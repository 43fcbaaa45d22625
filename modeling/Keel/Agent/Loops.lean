import Keel.Agent.Helpers.Worker
/-!
# A loop for every replicated record

Every record with volumes and somewhere to replicate them to is to have
one replication loop. The worker spawns a loop for a name once, and
remembers the name for good; the loop ends when it finds no record. So a
record that is deleted, missed by its loop and applied again has none
(`record_without_loop`), and neither has one that gets its first
`replicate_to` from `SetReplicateTo`, which spawns nothing.

These are the only ways. In every run in which a record becomes
replicated, under a name that will not be spawned for, only while the
name's loop is running (`KeepsLoop`), every replicated record has exactly
one loop, from `ResumeReplicationLoops` on (`one_loop_each`).
-/

namespace Keel

namespace Agent

/-- What can happen at one agent: a command, or a step of a loop. -/
inductive Move : Type 1
  | command {ρ : Type} (m : Machine) (c : Command ρ)
  | wake (i : ℕ) (snapshots connects : Bool) (fresh : Stamp)
  | conclude (i : ℕ) (prunes : Bool) (result : SendOnce)
  | exit (i : ℕ)

/-- An agent, and whether its loops were resumed. -/
structure Session where
  agent : Agentd
  resumed : Bool

namespace Agentd

variable (a : Agentd)

/-- The name has a loop that goes on. -/
def Looping (name : String) : Prop := ∃ t ∈ a.threads, t.loop.replicaName = name ∧ t.GoesOn

instance (name : String) : Decidable (a.Looping name) :=
  inferInstanceAs (Decidable (∃ _ ∈ _, _))

/-- The loops of a name that have not exited. -/
def live (name : String) : List Thread :=
  a.threads.filter fun t => t.loop.replicaName = name ∧ t.phase ≠ .exited

/-- Every replicated record has exactly one loop. -/
def OneLoopEach : Prop :=
  ∀ e ∈ a.reconciler.records.entries, isStatefulAndReplicated e.2.spec.spec = true →
    (a.live e.1).length = 1

instance : Decidable a.OneLoopEach := inferInstanceAs (Decidable (∀ _ ∈ _, _))

def move [Ipnet] : Move → Agentd
  | .command m c => (handleCommand m c a).2
  | .wake i snapshots connects fresh => a.wake i snapshots connects fresh
  | .conclude i prunes result => a.conclude i prunes result
  | .exit i => a.exit i

end Agentd

namespace Session

variable [Ipnet] (s : Session)

def move (mv : Move) : Session where
  agent := s.agent.move mv
  resumed :=
    match mv with
    | .command _ .resumeReplicationLoops => true
    | _ => s.resumed

def run (mvs : List Move) : Session := mvs.foldl move s

/-- A record becomes replicated, under a name the worker will spawn no
loop for, only while the name's loop is running: by an apply, if the name
was spawned for before; by `SetReplicateTo`, unless the loops are yet to
be resumed and the name was not spawned for. -/
def KeepsLoop : Move → Prop
  | .command m (.apply spec) =>
    (s.agent.reconciler.apply m.saves spec).1.isOk = true →
      isStatefulAndReplicated spec.spec = true → spec.metadata.name ∈ s.agent.replicating →
        s.agent.Looping spec.metadata.name
  | .command m (.setReplicateTo name replicateTo) =>
    (s.agent.reconciler.setReplicateTo m.saves name replicateTo).1.isOk = true →
      replicateTo.isSome = true →
        (∃ record ∈ s.agent.reconciler.records.lookup name, record.spec.spec.volumes ≠ []) →
          s.resumed = true ∨ name ∈ s.agent.replicating → s.agent.Looping name
  | _ => True

def KeepsLoopAlong (s : Session) : List Move → Prop
  | [] => True
  | mv :: mvs => s.KeepsLoop mv ∧ KeepsLoopAlong (s.move mv) mvs

end Session

/-! ## The threads -/

/-- And where it matters that there is one, there is. -/
structure Session.Looped (s : Session) : Prop extends s.agent.Spawned where
  named : s.agent.reconciler.Named
  looping : ∀ name record, s.agent.reconciler.records.lookup name = some record →
    isStatefulAndReplicated record.spec.spec = true →
      s.resumed = true ∨ name ∈ s.agent.replicating → s.agent.Looping name

namespace Agentd

variable {a : Agentd}

theorem looping_startReplicating_self {name : String}
    (h : name ∈ a.replicating → a.Looping name) : (a.startReplicating name).Looping name := by
  rw [startReplicating]
  split
  · rename_i hmem
    exact h hmem
  · refine ⟨_, List.mem_concat_self, rfl, ?_⟩
    constructor <;> intro hphase <;> cases hphase

theorem Looping.startReplicating {name : String} (h : a.Looping name) (name' : String) :
    (a.startReplicating name').Looping name := by
  rw [Agentd.startReplicating]
  split
  · exact h
  · obtain ⟨t, ht, hlooping⟩ := h
    exact ⟨t, List.mem_append_left _ ht, hlooping⟩

theorem mem_replicating_startReplicating {name name' : String} :
    name ∈ (a.startReplicating name').replicating ↔ name = name' ∨ name ∈ a.replicating := by
  rw [startReplicating]
  split
  · rename_i hmem
    constructor
    · exact Or.inr
    · rintro (rfl | h)
      · exact hmem
      · exact h
  · exact Finset.mem_insert

/-- **One loop.** Spawned once for a name, and going on. -/
theorem Spawned.length_live (h : a.Spawned) {name : String} (hlooping : a.Looping name) :
    (a.live name).length = 1 := by
  obtain ⟨t, ht, hname, hphase⟩ := hlooping
  have hmem : t ∈ a.live name := by
    rw [live, List.mem_filter]
    exact ⟨ht, decide_eq_true ⟨hname, hphase.2⟩⟩
  have hnodup : ((a.live name).map fun t => t.loop.replicaName).Nodup :=
    h.nodup.sublist (List.filter_sublist.map _)
  have hsame : ∀ x ∈ (a.live name).map fun t => t.loop.replicaName, x = name := by
    simp only [live, List.mem_map, List.mem_filter]
    rintro _ ⟨t', ⟨-, hlive⟩, rfl⟩
    exact (of_decide_eq_true hlive).1
  have hle : ((a.live name).map fun t => t.loop.replicaName).length ≤ 1 :=
    (hnodup.subperm fun x hx => List.mem_singleton.2 (hsame x hx)).length_le
  rw [List.length_map] at hle
  exact le_antisymm hle (List.length_pos_of_mem hmem)

section SetThread

variable {i : ℕ} {t t' : Thread}

theorem Looping.setThread {name : String} (h : a.Looping name) (hi : a.threads[i]? = some t)
    (hname : t'.loop.replicaName = t.loop.replicaName)
    (hgoes : t.loop.replicaName = name → t.GoesOn → t'.GoesOn) :
    (a.setThread i t').Looping name := by
  obtain ⟨x, hx, hxname, hxgoes⟩ := h
  obtain ⟨j, hj⟩ := List.mem_iff_getElem?.1 hx
  by_cases hij : i = j
  · subst hij
    have heq : x = t := Option.some.inj (hj.symm.trans hi)
    subst heq
    refine ⟨t', ?_, hname.trans hxname, hgoes hxname hxgoes⟩
    exact List.mem_of_getElem? (i := i) (by
      simp only [Agentd.setThread]
      rw [List.getElem?_set_self (List.getElem?_eq_some_iff.1 hi).1])
  · refine ⟨x, ?_, hxname, hxgoes⟩
    exact List.mem_of_getElem? (i := j) (by
      simp only [Agentd.setThread]
      rw [List.getElem?_set_ne hij]
      exact hj)

end SetThread

end Agentd

/-! ## The moves -/

namespace Session

variable {s : Session}

/-- A step of a loop that neither stops it nor ends it. -/
theorem Looped.setThread (h : s.Looped) {i : ℕ} {t t' : Thread} (zfs : FakeZfsManager)
    (hi : s.agent.threads[i]? = some t) (hname : t'.loop.replicaName = t.loop.replicaName)
    (hgoes : t.loop.replicaName ∈ s.agent.reconciler.records → t.GoesOn → t'.GoesOn) :
    Looped { s with agent := { s.agent with zfs }.setThread i t' } where
  toSpawned := Agentd.Spawned.setThread (a := { s.agent with zfs }) ⟨h.nodup, h.known⟩ hi hname
  named := h.named
  looping name record hrecord hreplicated hspawn := by
    have hlooping : { s.agent with zfs }.Looping name :=
      h.looping name record hrecord hreplicated hspawn
    refine hlooping.setThread hi hname fun htname => hgoes ?_
    rw [htname]
    exact Table.mem_of_lookup hrecord

theorem Looped.wake (h : s.Looped) (i : ℕ) (snapshots connects : Bool) (fresh : Stamp) :
    Looped { s with agent := s.agent.wake i snapshots connects fresh } := by
  rw [Agentd.wake]
  split
  · rename_i loop hi
    simp only
    split
    · rename_i hnone
      -- The record is gone, so no one asks that the loop go on.
      refine h.setThread s.agent.zfs hi rfl fun hmem => ?_
      rw [← AList.lookup_isSome, hnone] at hmem
      cases hmem
    · split
      · exact h.setThread s.agent.zfs hi rfl fun _ _ => .sleeping
      · split
        · exact h.setThread _ hi rfl fun _ _ => .sleeping
        · refine h.setThread _ hi rfl fun _ _ => ?_
          cases connects
          · exact .sleeping
          · exact .sending
  · exact h

theorem Looped.conclude (h : s.Looped) (i : ℕ) (prunes : Bool) (result : SendOnce) :
    Looped { s with agent := s.agent.conclude i prunes result } := by
  rw [Agentd.conclude]
  split
  · rename_i loop addr ack hi
    refine h.setThread _ hi ?_ fun _ _ => .sleeping
    cases result <;> rfl
  · exact h

theorem Looped.exit (h : s.Looped) (i : ℕ) :
    Looped { s with agent := s.agent.exit i } := by
  rw [Agentd.exit]
  split
  · rename_i loop hi
    exact h.setThread s.agent.zfs hi rfl fun _ hgoes => absurd rfl hgoes.1
  · exact h

/-- Records that change leave the loops to look after those that are
replicated. -/
theorem Looped.of_records (h : s.Looped) {reconciler : Reconciler} {zfs : FakeZfsManager}
    (hnamed : reconciler.Named)
    (hlooping : ∀ name record, reconciler.records.lookup name = some record →
      isStatefulAndReplicated record.spec.spec = true →
        s.resumed = true ∨ name ∈ s.agent.replicating →
          s.agent.reconciler.records.lookup name = some record ∨ s.agent.Looping name) :
    Looped { s with agent := { s.agent with reconciler, zfs } } where
  nodup := h.nodup
  known := h.known
  named := hnamed
  looping name record hrecord hreplicated hspawn :=
    (hlooping name record hrecord hreplicated hspawn).elim
      (fun hold => h.looping name record hold hreplicated hspawn) id

/-- A pass leaves the loops with nothing more to look after. -/
theorem Looped.reconcile [Ipnet] (h : s.Looped) (m : Machine) :
    Looped { s with agent := s.agent.reconcile m } := by
  have hnamed : (s.agent.reconciler.ensureIngressJail m).Named := by
    rcases s.agent.reconciler.ensureIngressJail_cases m with ⟨next, hr⟩ | ⟨-, ordinal, next, hr⟩
    · rw [hr]
      exact h.named
    · rw [hr]
      exact h.named.insert ⟨Reconciler.ingressSpec, ordinal⟩ _ _
  refine h.of_records hnamed fun name record hrecord hreplicated _ => ?_
  rcases Reconciler.lookup_ensureIngressJail hrecord with hold | ⟨-, hspec⟩
  · exact Or.inl hold
  · rw [hspec] at hreplicated
    cases hreplicated

/-- A loop is spawned, or the one there is goes on. -/
theorem Looped.startReplicating (h : s.Looped) {name : String}
    (hname : name ∈ s.agent.replicating → s.agent.Looping name) :
    Looped { s with agent := s.agent.startReplicating name } where
  toSpawned := h.toSpawned.startReplicating name
  named := by
    rw [Agentd.startReplicating_reconciler]
    exact h.named
  looping name' record hrecord hreplicated hspawn := by
    rw [Agentd.startReplicating_reconciler] at hrecord
    by_cases heq : name' = name
    · subst heq
      exact Agentd.looping_startReplicating_self hname
    · refine (h.looping name' record hrecord hreplicated ?_).startReplicating name
      refine hspawn.imp_right fun hmem => ?_
      exact (Agentd.mem_replicating_startReplicating.1 hmem).resolve_left heq

theorem Looped.apply [Ipnet] (h : s.Looped) (m : Machine) (spec : JailSpec)
    (hkeeps : s.KeepsLoop (.command m (.apply spec))) :
    Looped { s with agent := (s.agent.apply m spec).2 } := by
  rw [Agentd.apply]
  rcases s.agent.reconciler.apply_cases m.saves spec with
    ⟨e, next, hr⟩ | ⟨ordinal, next, hr⟩
  · rw [hr]
    simp only [Except.isOk, Except.toBool, Bool.false_and, Bool.false_eq_true, if_false]
    -- Refused: the records stay, whatever the counter is.
    have hrefused : Looped { s with agent := { s.agent with
        reconciler := { s.agent.reconciler with nextEpairOrdinal := next } } } :=
      h.of_records h.named fun name record hrecord _ _ => Or.inl hrecord
    exact hrefused.reconcile m
  · rw [Session.KeepsLoop, hr] at hkeeps
    rw [hr]
    simp only [Except.isOk, Except.toBool, Bool.true_and]
    cases hreplicated : isStatefulAndReplicated spec.spec with
    | false =>
      refine Looped.reconcile (s := { s with agent := { s.agent with reconciler := _ } }) ?_ m
      -- The record written is not replicated, so it needs no loop.
      refine h.of_records (h.named.insert ⟨spec, ordinal⟩ _ _) fun name record hrecord hrep _ => ?_
      rw [Table.lookup_insert_eq] at hrecord
      split at hrecord
      · cases hrecord
        rw [hreplicated] at hrep
        cases hrep
      · exact Or.inl hrecord
    | true =>
      -- The loop is started after the pass, which does not look at it.
      rw [if_pos rfl, Agentd.startReplicating_reconcile s.agent (by rfl)]
      have hlooping : (s.agent.startReplicating spec.metadata.name).Looping spec.metadata.name :=
        Agentd.looping_startReplicating_self (hkeeps rfl hreplicated)
      have hstarted := h.startReplicating (hkeeps rfl hreplicated)
      refine Looped.reconcile (s := { s with agent := { s.agent.startReplicating spec.metadata.name
        with reconciler := _ } }) ?_ m
      refine hstarted.of_records (h.named.insert ⟨spec, ordinal⟩ _ _) fun name record hrecord _ _ => ?_
      rw [Table.lookup_insert_eq] at hrecord
      split at hrecord
      · rename_i hname
        exact Or.inr (hname ▸ hlooping)
      · refine Or.inl ?_
        rw [Agentd.startReplicating_reconciler]
        exact hrecord

theorem Looped.delete [Ipnet] (h : s.Looped) (m : Machine) (name : String) :
    Looped { s with agent := (s.agent.delete m name).2 } := by
  rw [Agentd.delete]
  refine Looped.reconcile (s := { s with agent := { s.agent with reconciler := _ } }) ?_ m
  rcases s.agent.reconciler.delete_cases m name with ⟨e, hr⟩ | hr
  · rw [hr]
    exact h.of_records h.named fun name record hrecord _ _ => Or.inl hrecord
  · rw [hr]
    have hold : ∀ name' record, (s.agent.reconciler.records.erase name).lookup name' = some record →
        s.agent.reconciler.records.lookup name' = some record := by
      intro name' record hrecord
      rw [Table.lookup_erase_eq] at hrecord
      split at hrecord
      · cases hrecord
      · exact hrecord
    exact h.of_records (fun name' record hrecord => h.named name' record (hold name' record hrecord))
      fun name' record hrecord _ _ => Or.inl (hold name' record hrecord)

theorem Looped.setReplicateTo [Ipnet] (h : s.Looped) (m : Machine) (name : String)
    (replicateTo : Option String)
    (hkeeps : s.KeepsLoop (.command m (.setReplicateTo name replicateTo))) :
    Looped { s with agent := { s.agent with
      reconciler := (s.agent.reconciler.setReplicateTo m.saves name replicateTo).2 } } := by
  rcases s.agent.reconciler.setReplicateTo_cases m.saves name replicateTo with
    ⟨e, hr⟩ | ⟨record, hrecord, hr⟩
  · rw [hr]
    exact h.of_records h.named fun name record hrecord _ _ => Or.inl hrecord
  · rw [Session.KeepsLoop, hr] at hkeeps
    rw [hr]
    obtain rfl := h.named name record hrecord
    refine h.of_records (h.named.insert (Reconciler.retargeted record replicateTo) _ _)
      fun name' record' hrecord' hreplicated hspawn => ?_
    rw [Table.lookup_insert_eq] at hrecord'
    split at hrecord'
    · rename_i hname
      cases hrecord'
      obtain ⟨hvolumes, hsome⟩ : record.spec.spec.volumes ≠ [] ∧ replicateTo.isSome = true := by
        simpa [isStatefulAndReplicated, Reconciler.retargeted] using hreplicated
      rw [hname] at hspawn ⊢
      exact Or.inr (hkeeps rfl hsome ⟨record, hrecord, hvolumes⟩ hspawn)
    · exact Or.inl hrecord'

/-- Loops started one after another for records there are. -/
theorem Looped.startAll (h : s.Looped) (records : List JailRecord)
    (hrecords : ∀ record ∈ records, isStatefulAndReplicated record.spec.spec = true ∧
      s.agent.reconciler.records.lookup record.spec.metadata.name = some record) :
    Looped { s with agent := s.agent.startAll records } ∧
      ∀ record ∈ records, (s.agent.startAll records).Looping record.spec.metadata.name := by
  induction records using List.reverseRecOn with
  | nil => exact ⟨h, by simp⟩
  | append_singleton records last ih =>
    obtain ⟨hlooped, hlooping⟩ := ih fun record hrecord =>
      hrecords record (List.mem_append_left _ hrecord)
    obtain ⟨hreplicated, hlast⟩ := hrecords last List.mem_concat_self
    have hgoes : last.spec.metadata.name ∈ (s.agent.startAll records).replicating →
        (s.agent.startAll records).Looping last.spec.metadata.name := by
      intro hmem
      refine hlooped.looping _ last ?_ hreplicated (Or.inr hmem)
      rw [Agentd.startAll_reconciler]
      exact hlast
    rw [Agentd.startAll_snoc]
    refine ⟨hlooped.startReplicating hgoes, fun record hrecord => ?_⟩
    rcases List.mem_append.1 hrecord with hrecord | hrecord
    · exact (hlooping record hrecord).startReplicating _
    · rw [List.mem_singleton.1 hrecord]
      exact Agentd.looping_startReplicating_self hgoes

/-- **Resuming** gives every replicated record its loop. -/
theorem Looped.resume (h : s.Looped) :
    Looped ⟨s.agent.resumeReplicationLoops, true⟩ := by
  have hrecords : ∀ record ∈ s.agent.reconciler.list.filter
      (fun record => isStatefulAndReplicated record.spec.spec),
      isStatefulAndReplicated record.spec.spec = true ∧
        s.agent.reconciler.records.lookup record.spec.metadata.name = some record := by
    intro record hrecord
    obtain ⟨hlist, hreplicated⟩ := List.mem_filter.1 hrecord
    obtain ⟨name, hname⟩ := Reconciler.mem_list.1 hlist
    exact ⟨hreplicated, (h.named name record hname).symm ▸ hname⟩
  obtain ⟨hlooped, hlooping⟩ := h.startAll _ hrecords
  refine ⟨hlooped.toSpawned, hlooped.named, fun name record hrecord hreplicated _ => ?_⟩
  have hold : s.agent.reconciler.records.lookup name = some record := by
    rwa [Agentd.resumeReplicationLoops, Agentd.startAll_reconciler] at hrecord
  have hname := h.named name record hold
  subst hname
  exact hlooping record (List.mem_filter.2 ⟨Reconciler.mem_list.2 ⟨_, hold⟩, hreplicated⟩)

/-! ## Every run -/

variable [Ipnet]

/-- **A move keeps the loops.** -/
theorem Looped.move {mv : Move} (h : s.Looped) (hkeeps : s.KeepsLoop mv) : (s.move mv).Looped := by
  cases mv with
  | command m c =>
    cases c with
    | apply spec => exact h.apply m spec hkeeps
    | get name => exact h
    | delete name => exact h.delete m name
    | tick => exact h.reconcile m
    | getVolume name => exact h
    | deleteVolume name => exact h.of_records h.named fun _ _ hrecord _ _ => Or.inl hrecord
    | setReplicateTo name replicateTo => exact h.setReplicateTo m name replicateTo hkeeps
    | resumeReplicationLoops => exact h.resume
  | wake i snapshots connects fresh => exact h.wake i snapshots connects fresh
  | conclude i prunes result => exact h.conclude i prunes result
  | exit i => exact h.exit i

theorem Looped.run {mvs : List Move} (h : s.Looped) (hkeeps : s.KeepsLoopAlong mvs) :
    (s.run mvs).Looped := by
  induction mvs generalizing s with
  | nil => exact h
  | cons mv mvs ih => exact ih (h.move hkeeps.1) hkeeps.2

end Session

/-- **One loop each.** From `ResumeReplicationLoops` on, every replicated
record has exactly one loop that has not exited, in every run in which
records become replicated only while their loop, if it is not to be
spawned then, is running. -/
theorem one_loop_each [Ipnet] (pool : String) (zfs : FakeZfsManager) (loaded : List JailRecord)
    (targets : Table ReplicaTarget) (mvs : List Move)
    (hkeeps : Session.KeepsLoopAlong
      ⟨.start pool zfs (Reconciler.collect loaded) targets, false⟩ mvs)
    (hresumed : (Session.run ⟨.start pool zfs (Reconciler.collect loaded) targets, false⟩
      mvs).resumed = true) :
    (Session.run ⟨.start pool zfs (Reconciler.collect loaded) targets, false⟩
      mvs).agent.OneLoopEach := by
  have hstart : Session.Looped ⟨.start pool zfs (Reconciler.collect loaded) targets, false⟩ :=
    ⟨⟨List.nodup_nil, by simp [Agentd.start]⟩, fun name record => Reconciler.lookup_collect loaded,
      fun name record _ _ hspawn => by simp [Agentd.start] at hspawn⟩
  have hlooped := hstart.run hkeeps
  intro e he hreplicated
  refine hlooped.toSpawned.length_live (hlooped.looping e.1 e.2 ?_ hreplicated (Or.inl hresumed))
  exact AList.mem_lookup_iff.2 he

namespace Sample

/-- An agent with an empty disk. -/
def session : Session := ⟨.start "zroot" .new (Reconciler.collect []) ∅, false⟩

def resume : Move := .command machine .resumeReplicationLoops

/-- `db-0` is applied, to be replicated to `b`. -/
def apply : Move := .command machine (.apply (jail "db-0" (some "b:7622")))

def delete : Move := .command machine (.delete "db-0")

end Sample

open Sample in
theorem one_loop_each_sample :
    (Sample.session.run [resume, apply, .wake 0 true true 0, .conclude 0 true .ok, delete, apply,
      .wake 0 true true 1]).agent.OneLoopEach := by
  refine one_loop_each _ _ _ _ _ ⟨trivial, ?_, trivial, trivial, trivial, ?_, trivial, trivial⟩
    (by decide +kernel)
  · intro _ _ hmem
    revert hmem
    decide +kernel
  · intro _ _ _
    decide +kernel

open Sample in
/-- **Replicated records with no loop**: one applied again after its loop
has missed it, one that is given somewhere to replicate to. -/
theorem record_without_loop :
    (¬ (Sample.session.run [resume, apply, delete, .wake 0 true true 0, .exit 0,
      apply]).agent.OneLoopEach) ∧
    ¬ (Sample.session.run [resume, .command machine (.apply (jail "db-0" none)),
      .command machine (.setReplicateTo "db-0" (some "b:7622"))]).agent.OneLoopEach := by
  decide +kernel

end Agent

end Keel
