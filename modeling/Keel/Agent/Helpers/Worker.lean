import Keel.Agent.Model.Http
import Keel.Agent.Helpers.Replication
/-!
# What a command leaves

The records after each command of the agent's worker, and the loops. A
command that is refused leaves the records as they were; one that is
accepted leaves the one record it is about; and a reconcile pass adds at
most the ingress's jail.
-/

namespace Keel

namespace Agent

namespace Reconciler

variable {r : Reconciler}

/-- A record of the name, if there is one that keeps the name. -/
def Named (r : Reconciler) : Prop :=
  ∀ name record, r.records.lookup name = some record → record.spec.metadata.name = name

/-- A record kept under its own name keeps the names. -/
theorem Named.insert (h : r.Named) (record : JailRecord) (saved : Table JailRecord) (next : ℕ) :
    Named ⟨r.pool, r.records.insert record.spec.metadata.name record, saved, next⟩ := by
  intro name' record' hrecord
  rw [Table.lookup_insert_eq] at hrecord
  split at hrecord
  · rename_i heq
    cases hrecord
    exact heq.symm
  · exact h name' record' hrecord

theorem keep_cases (r : Reconciler) (saves : Bool) (name : String) (record : JailRecord) :
    (∃ e, r.keep saves name record = (.error e, r)) ∨
      r.keep saves name record = (.ok (), { r with
        records := r.records.insert name record
        saved := r.saved.insert record.spec.metadata.name record }) := by
  rw [keep]
  split
  · exact Or.inr rfl
  · exact Or.inl ⟨_, rfl⟩

/-- **What an apply comes to**: refused, and the records as they were; or
accepted, and the spec's record kept under its name. -/
theorem apply_cases [Ipnet] (r : Reconciler) (saves : Bool) (spec : JailSpec) :
    (∃ e next, r.apply saves spec = (.error e, { r with nextEpairOrdinal := next })) ∨
      ∃ ordinal next, r.apply saves spec = (.ok (), { r with
        nextEpairOrdinal := next
        records := r.records.insert spec.metadata.name ⟨spec, ordinal⟩
        saved := r.saved.insert spec.metadata.name ⟨spec, ordinal⟩ }) := by
  rw [apply]
  split
  · exact Or.inl ⟨_, r.nextEpairOrdinal, rfl⟩
  · rename_i ordinal next _
    rcases keep_cases { r with nextEpairOrdinal := next } saves spec.metadata.name
      ⟨spec, ordinal⟩ with ⟨e, hkeep⟩ | hkeep
    · exact Or.inl ⟨e, next, hkeep⟩
    · exact Or.inr ⟨ordinal, next, hkeep⟩

theorem delete_cases (r : Reconciler) (m : Machine) (name : String) :
    (∃ e, r.delete m name = (.error e, r)) ∨
      r.delete m name = (.ok (), { r with
        records := r.records.erase name
        saved := r.saved.erase name }) := by
  rw [delete]
  split
  · exact Or.inl ⟨_, rfl⟩
  · split
    · exact Or.inl ⟨_, rfl⟩
    · split
      · exact Or.inr rfl
      · exact Or.inl ⟨_, rfl⟩

/-- A record, sent elsewhere. -/
def retargeted (record : JailRecord) (replicateTo : Option String) : JailRecord :=
  { record with spec := { record.spec with spec := { record.spec.spec with replicateTo } } }

theorem setReplicateTo_cases (r : Reconciler) (saves : Bool) (name : String)
    (replicateTo : Option String) :
    (∃ e, r.setReplicateTo saves name replicateTo = (.error e, r)) ∨
      ∃ record, r.records.lookup name = some record ∧
        r.setReplicateTo saves name replicateTo = (.ok (), { r with
          records := r.records.insert name (retargeted record replicateTo)
          saved := r.saved.insert record.spec.metadata.name (retargeted record replicateTo) }) := by
  rw [setReplicateTo]
  split
  · exact Or.inl ⟨_, rfl⟩
  · rename_i record hrecord
    exact (keep_cases r saves name (retargeted record replicateTo)).imp_right fun hkeep =>
      ⟨record, hrecord, hkeep⟩

/-- **A pass adds at most the ingress's jail.** -/
theorem ensureIngressJail_cases [Ipnet] (r : Reconciler) (m : Machine) :
    (∃ next, r.ensureIngressJail m = { r with nextEpairOrdinal := next }) ∨
      "ingress" ∉ r.records ∧ ∃ ordinal next, r.ensureIngressJail m = { r with
        nextEpairOrdinal := next
        records := r.records.insert "ingress" ⟨ingressSpec, ordinal⟩
        saved := r.saved.insert "ingress" ⟨ingressSpec, ordinal⟩ } := by
  rw [ensureIngressJail]
  split
  · exact Or.inl ⟨r.nextEpairOrdinal, rfl⟩
  · rename_i hcond
    rcases apply_cases r m.ingressSaves ingressSpec with ⟨e, next, happly⟩ | ⟨ordinal, next, happly⟩
    · rw [happly]
      exact Or.inl ⟨next, rfl⟩
    · rw [happly]
      refine Or.inr ⟨?_, ordinal, next, rfl⟩
      have hcond : m.ingress = true ∧ "ingress" ∉ r.records := by simpa using hcond
      exact hcond.2

@[simp] theorem ensureIngressJail_pool [Ipnet] (r : Reconciler) (m : Machine) :
    (r.ensureIngressJail m).pool = r.pool := by
  rcases ensureIngressJail_cases r m with ⟨next, hr⟩ | ⟨-, ordinal, next, hr⟩ <;> rw [hr]

/-- So it adds no replicated one, and changes none. -/
theorem lookup_ensureIngressJail [Ipnet] {m : Machine} {name : String} {record : JailRecord}
    (h : (r.ensureIngressJail m).records.lookup name = some record) :
    r.records.lookup name = some record ∨ name = "ingress" ∧ record.spec = ingressSpec := by
  rcases ensureIngressJail_cases r m with ⟨next, hr⟩ | ⟨-, ordinal, next, hr⟩
  · rw [hr] at h
    exact Or.inl h
  · rw [hr, Table.lookup_insert_eq] at h
    split at h
    · rename_i hname
      cases h
      exact Or.inr ⟨hname, rfl⟩
    · exact Or.inl h

/-- Records collected under their own names are found under them. -/
theorem lookup_collect {name : String} {record : JailRecord} (loaded : List JailRecord)
    (h : (collect loaded).lookup name = some record) : record.spec.metadata.name = name := by
  induction loaded using List.reverseRecOn with
  | nil => simp [collect] at h
  | append_singleton loaded last ih =>
    rw [collect, List.foldl_append, List.foldl_cons, List.foldl_nil, Table.lookup_insert_eq] at h
    split at h
    · rename_i hname
      cases h
      exact hname.symm
    · exact ih h

theorem mem_list {record : JailRecord} :
    record ∈ r.list ↔ ∃ name, r.records.lookup name = some record := by
  simp only [list, List.mem_filterMap, List.mem_insertionSort]
  constructor
  · rintro ⟨name, -, h⟩
    exact ⟨name, h⟩
  · rintro ⟨name, h⟩
    exact ⟨name, Table.mem_keys_of_lookup h, h⟩

end Reconciler

namespace Agentd

variable {a : Agentd}

@[simp] theorem startReplicating_reconciler (name : String) :
    (a.startReplicating name).reconciler = a.reconciler := by
  rw [startReplicating]
  split <;> rfl

theorem startAll_snoc (records : List JailRecord) (last : JailRecord) :
    a.startAll (records ++ [last]) =
      (a.startAll records).startReplicating last.spec.metadata.name := by
  rw [startAll, List.foldl_append]
  rfl

@[simp] theorem startAll_reconciler (records : List JailRecord) :
    (a.startAll records).reconciler = a.reconciler := by
  induction records using List.reverseRecOn with
  | nil => rfl
  | append_singleton records last ih => rw [startAll_snoc, startReplicating_reconciler, ih]

/-- Spawning a loop has nothing to do with the records. -/
theorem startReplicating_reconcile [Ipnet] (a : Agentd) {reconciler : Reconciler}
    (hpool : reconciler.pool = a.reconciler.pool) (m : Machine) (name : String) :
    ({ a with reconciler }.reconcile m).startReplicating name =
      { a.startReplicating name with reconciler }.reconcile m := by
  simp only [startReplicating, Agentd.reconcile, Reconciler.reconcile, pool,
    Reconciler.ensureIngressJail_pool, hpool]
  split <;> rfl

end Agentd

/-! ## Loops are spawned once a name -/

/-- Loops are spawned for names not spawned for before. -/
structure Agentd.Spawned (a : Agentd) : Prop where
  nodup : (a.threads.map fun t => t.loop.replicaName).Nodup
  known : ∀ t ∈ a.threads, t.loop.replicaName ∈ a.replicating

namespace Agentd

variable {a : Agentd}

theorem Spawned.startReplicating (h : a.Spawned) (name : String) :
    (a.startReplicating name).Spawned := by
  rw [Agentd.startReplicating]
  split
  · exact h
  · rename_i hnew
    refine ⟨?_, ?_⟩
    · simp only [List.map_append, List.map_cons, List.map_nil, ReplicationLoop.spawn]
      refine List.nodup_append.2 ⟨h.nodup, List.nodup_singleton _, ?_⟩
      simp only [List.mem_map, List.mem_singleton]
      rintro _ ⟨t, ht, rfl⟩ _ rfl heq
      exact hnew (heq ▸ h.known t ht)
    · intro t ht
      rcases List.mem_append.1 ht with ht | ht
      · exact Finset.mem_insert_of_mem (h.known t ht)
      · rw [List.mem_singleton.1 ht]
        exact Finset.mem_insert_self _ _

theorem Spawned.setThread {i : ℕ} {t t' : Thread} (h : a.Spawned) (hi : a.threads[i]? = some t)
    (hname : t'.loop.replicaName = t.loop.replicaName) : (a.setThread i t').Spawned := by
  have hnames : ((a.threads.set i t').map fun t => t.loop.replicaName) =
      a.threads.map fun t => t.loop.replicaName := by
    refine List.ext_getElem? fun j => ?_
    rw [List.getElem?_map, List.getElem?_map]
    by_cases hij : i = j
    · subst hij
      rw [List.getElem?_set_self (List.getElem?_eq_some_iff.1 hi).1, hi]
      exact congrArg some hname
    · rw [List.getElem?_set_ne hij]
  refine ⟨hnames ▸ h.nodup, fun x hx => ?_⟩
  rcases List.mem_or_eq_of_mem_set hx with hx | rfl
  · exact h.known x hx
  · rw [hname]
    exact h.known t (List.mem_of_getElem? hi)

end Agentd

/-! ## Commands, on the whole -/

/-- The thread neither has ended nor is about to. -/
def Thread.GoesOn (t : Thread) : Prop := t.phase ≠ .stopping ∧ t.phase ≠ .exited

instance (t : Thread) : Decidable t.GoesOn := inferInstanceAs (Decidable (_ ∧ _))

theorem Thread.GoesOn.sleeping {loop : ReplicationLoop} : Thread.GoesOn ⟨loop, .sleeping⟩ := by
  simp [Thread.GoesOn]

theorem Thread.GoesOn.sending {loop : ReplicationLoop} {addr : String} {ack : Option Ack} :
    Thread.GoesOn ⟨loop, .sending addr ack⟩ := by
  simp [Thread.GoesOn]

/-- A loop just spawned for a name. -/
def Thread.spawned (pool name : String) : Thread :=
  ⟨.spawn name (name ++ "-data") pool, .sleeping⟩

/-- **What a command leaves alone**: the targets, the snapshots, and the
loops there are; it may spawn more. -/
structure Commanded (a a' : Agentd) : Prop where
  pool : a'.pool = a.pool
  targets : a'.targets = a.targets
  snapshots : a'.zfs.snapshots = a.zfs.snapshots
  threads : ∀ t ∈ a'.threads, t ∈ a.threads ∨ ∃ name, t = .spawned a.pool name
  kept : a.threads <+: a'.threads
  spawned : a.Spawned → a'.Spawned

namespace Commanded

variable {a a' a'' : Agentd}

theorem refl : Commanded a a := ⟨rfl, rfl, rfl, fun _ => Or.inl, List.prefix_rfl, id⟩

theorem trans (h : Commanded a a') (h' : Commanded a' a'') : Commanded a a'' where
  pool := h'.pool.trans h.pool
  targets := h'.targets.trans h.targets
  snapshots := h'.snapshots.trans h.snapshots
  threads t ht := by
    rcases h'.threads t ht with ht | ⟨name, rfl⟩
    · exact h.threads t ht
    · exact Or.inr ⟨name, by rw [h.pool]⟩
  kept := h.kept.trans h'.kept
  spawned hspawned := h'.spawned (h.spawned hspawned)

/-- Records and datasets that change, and nothing else. -/
theorem of_records {reconciler : Reconciler} (zfs : FakeZfsManager)
    (hpool : reconciler.pool = a.reconciler.pool) (hsnapshots : zfs.snapshots = a.zfs.snapshots) :
    Commanded a { a with reconciler, zfs } :=
  ⟨hpool, rfl, hsnapshots, fun _ => Or.inl, List.prefix_rfl, fun h => ⟨h.nodup, h.known⟩⟩

theorem startReplicating (a : Agentd) (name : String) : Commanded a (a.startReplicating name) where
  pool := by rw [Agentd.pool, Agentd.startReplicating_reconciler, Agentd.pool]
  targets := by
    rw [Agentd.startReplicating]
    split <;> rfl
  snapshots := by
    rw [Agentd.startReplicating]
    split <;> rfl
  threads t ht := by
    rw [Agentd.startReplicating] at ht
    split at ht
    · exact Or.inl ht
    · rcases List.mem_append.1 ht with ht | ht
      · exact Or.inl ht
      · exact Or.inr ⟨name, List.mem_singleton.1 ht⟩
  kept := by
    rw [Agentd.startReplicating]
    split
    · exact List.prefix_rfl
    · exact List.prefix_append ..
  spawned h := h.startReplicating name

theorem startAll (a : Agentd) (records : List JailRecord) : Commanded a (a.startAll records) := by
  induction records using List.reverseRecOn with
  | nil => exact .refl
  | append_singleton records last ih =>
    rw [Agentd.startAll_snoc]
    exact ih.trans (.startReplicating _ _)

theorem provision_snapshots (r : Reconciler) (m : Machine) (zfs : FakeZfsManager) :
    (r.provision m zfs).snapshots = zfs.snapshots := by
  rw [Reconciler.provision]
  generalize (r.records.entries.flatMap fun e => e.2.spec.spec.volumes).filter _ = volumes
  induction volumes using List.reverseRecOn with
  | nil => rfl
  | append_singleton volumes last ih =>
    rw [List.foldl_append]
    exact ih

variable [Ipnet]

theorem reconcile (a : Agentd) (m : Machine) : Commanded a (a.reconcile m) :=
  .of_records _ (Reconciler.ensureIngressJail_pool _ _) (provision_snapshots _ _ _)

theorem apply (a : Agentd) (m : Machine) (spec : JailSpec) : Commanded a (a.apply m spec).2 := by
  have hpool : (a.reconciler.apply m.saves spec).2.pool = a.reconciler.pool := by
    rcases a.reconciler.apply_cases m.saves spec with ⟨e, next, hr⟩ | ⟨ordinal, next, hr⟩ <;> rw [hr]
  have hcommanded := (of_records a.zfs hpool rfl).trans (reconcile _ m)
  rw [Agentd.apply]
  simp only
  split
  · exact hcommanded.trans (.startReplicating _ _)
  · exact hcommanded

/-- **Every command leaves them alone.** -/
theorem handleCommand {ρ : Type} (m : Machine) (c : Command ρ) (a : Agentd) :
    Commanded a (Agentd.handleCommand m c a).2 := by
  cases c with
  | apply spec => exact .apply a m spec
  | get name => exact .refl
  | delete name =>
    have hpool : (a.reconciler.delete m name).2.pool = a.reconciler.pool := by
      rcases a.reconciler.delete_cases m name with ⟨e, hr⟩ | hr <;> rw [hr]
    exact (of_records a.zfs hpool rfl).trans (.reconcile _ m)
  | tick => exact .reconcile a m
  | getVolume name => exact .refl
  | deleteVolume name =>
    refine of_records _ rfl ?_
    have hsnapshots := a.zfs.destroyDataset_snapshots (volumeDatasetPath a.reconciler.pool name)
    change (a.reconciler.deleteVolume a.zfs name).2.snapshots = a.zfs.snapshots
    rw [Reconciler.deleteVolume]
    split <;> (rename_i h; rwa [h] at hsnapshots)
  | setReplicateTo name replicateTo =>
    have hpool : (a.reconciler.setReplicateTo m.saves name replicateTo).2.pool =
        a.reconciler.pool := by
      rcases a.reconciler.setReplicateTo_cases m.saves name replicateTo with
        ⟨e, hr⟩ | ⟨record, -, hr⟩ <;> rw [hr]
    exact of_records a.zfs hpool rfl
  | resumeReplicationLoops => exact .startAll a _

/-- And so does every request. -/
theorem handle (m : Machine) (request : Request) (a : Agentd) :
    Commanded a (a.handle m request).2 := by
  cases request with
  | putJail name body =>
    simp only [Agentd.handle, Agentd.handleApply]
    split
    · exact .refl
    · split
      · exact .refl
      · split
        · exact .refl
        · exact .handleCommand m _ a
  | getJails => exact .handleCommand m (.get none) a
  | getJail name => exact .handleCommand m (.get (some name)) a
  | deleteJail name => exact .handleCommand m (.delete name) a
  | putReplicateTo name body =>
    simp only [Agentd.handle, Agentd.handleSetReplicateTo]
    split
    · exact .refl
    · exact .handleCommand m _ a
    · exact .handleCommand m _ a
  | getVolume name => exact .handleCommand m (.getVolume name) a
  | deleteVolume name => exact .handleCommand m (.deleteVolume name) a
  | getReplicaTarget name => exact .refl
  | noRoute method path => exact .refl

end Commanded

end Agent

end Keel
