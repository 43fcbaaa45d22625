import Keel.Cluster.Helpers
import Keel.Node.Helpers.Turns
/-!
# The agent of the cluster

Every step of the agent's process, on a machine where any call may fail or
be the last, is a turn or two of the agent the cluster is made of, or
none; so is every life of it, through its crashes and restarts; and what
it replies to a command is what that agent answers. And nothing happens to
an agent in the cluster but its turns.
-/

namespace Keel

namespace Node

open Agent (JailRecord Agentd Thread Listener ReplicationLoop ThreadPhase volumes
  volumeDatasetPath FakeZfsManager)

section Refinement

variable {Text : Type} [Ipnet] [SerdeYaml Text JailRecord] [SerdeYaml Text IngressRecord]
variable {pool : String} (choices : ℕ → Option (Outcome Text)) {d : Daemon Text} {a : Agentd}

/-! ## The loops -/

omit [Ipnet] [SerdeYaml Text IngressRecord] in
/-- ZFS has been worked on by a part of the process that is not the
worker. -/
theorem Refines.setZfs (h : Refines pool d a) {z z' : FakeZfsManager}
    (hz : z.AgreeOn (volumes pool) z') : Refines pool (d.setZfs z) { a with zfs := z' } := by
  have hstored : Stored a.reconciler z' (d.setZfs z).host := by
    refine ⟨h.stored.saved, ?_⟩
    rw [h.onPool]
    exact hz
  refine ⟨h.onPool, hstored, h.savedTargets, h.podCidr, h.targets, h.threads, h.datasets,
    fun r hr => ?_⟩
  obtain ⟨halive, hlen, hm⟩ := h.worker r hr
  exact ⟨halive, hlen, hm.pool, hm.records, hm.next, hm.synced, hstored⟩

omit [Ipnet] [SerdeYaml Text IngressRecord] in
theorem Refines.zfs (h : Refines pool d a) : d.zfs.AgreeOn (volumes pool) a.zfs := by
  have hzfs := h.stored.zfs
  rw [h.onPool] at hzfs
  exact hzfs

omit [Ipnet] [SerdeYaml Text IngressRecord] in
theorem Refines.setThread (h : Refines pool d a) {i : ℕ} {t : Thread}
    (ht : t.loop.dataset ∈ volumes pool) : Refines pool (d.setThread i t) (a.setThread i t) := by
  refine ⟨h.onPool, h.stored, h.savedTargets, h.podCidr, h.targets,
    fun hup => (h.threads hup).set i t, fun hup t' ht' => ?_, fun r hr => ?_⟩
  · rcases List.mem_or_eq_of_mem_set ht' with hmem | rfl
    · exact h.datasets hup t' hmem
    · exact ht
  · obtain ⟨halive, ⟨hreplicating, hlen⟩, hm⟩ := h.worker r hr
    refine ⟨halive, ⟨hreplicating, ?_⟩, hm⟩
    simp only [Daemon.setThread, Agentd.setThread, List.length_set, hlen]

omit [Ipnet] [SerdeYaml Text IngressRecord] in
/-- A thread that finds no worker is gone. -/
theorem Refines.exitThread (h : Refines pool d a) {i : ℕ} {t : Thread} (ht : t.phase = .exited) :
    Refines pool (d.setThread i t) a := by
  refine ⟨h.onPool, h.stored, h.savedTargets, h.podCidr, h.targets,
    fun hup => (h.threads hup).exit i ht, h.datasets, fun r hr => ?_⟩
  obtain ⟨halive, ⟨hreplicating, hlen⟩, hm⟩ := h.worker r hr
  refine ⟨halive, ⟨hreplicating, ?_⟩, hm⟩
  simp only [Daemon.setThread, List.length_set, hlen]

omit [Ipnet] [SerdeYaml Text IngressRecord] in
/-- A thread of the process that is not gone is one of the cluster's
agent, on a volume. -/
theorem Refines.thread (h : Refines pool d a) (halive : d.alive = true) {i : ℕ} {t : Thread}
    (hi : d.threads[i]? = some t) (ht : t.phase ≠ .exited) :
    a.threads[i]? = some t ∧ t.loop.dataset ∈ volumes pool := by
  have hi' := (h.threads halive).get hi ht
  exact ⟨hi', h.datasets halive t (List.mem_of_getElem? hi')⟩

omit [SerdeYaml Text IngressRecord] in
/-- **A loop's turn.** -/
theorem Refines.wake (h : Refines pool d a) (halive : d.alive = true) (i now : ℕ)
    (snapshots connects : Bool) (fresh : Agent.Stamp) :
    ∃ ts, Refines pool (d.wake choices i now snapshots connects fresh) (a.turns ts) := by
  unfold Daemon.wake
  split
  case h_2 => exact ⟨[], h⟩
  case h_1 loop hi =>
    obtain ⟨hi', hdataset⟩ := h.thread halive hi ThreadPhase.noConfusion
    cases hr : d.sys.memory with
    | none =>
      simp only [Daemon.call, hr]
      exact ⟨[], h.exitThread rfl⟩
    | some r =>
      rcases Daemon.call_cases choices hr
        (wp_get_mirrors (h.worker r hr).2.2 loop.replicaName now) with
        ⟨_, r', t', hcall, ⟨status, rfl, hrecord⟩, hm'⟩ | ⟨-, t', alive, hcall, ⟨-, hs⟩, hup⟩
      · have h' := h.returned hr hm' h.onPool
        refine ⟨[.wake i snapshots connects fresh], ?_⟩
        simp only [hcall, Agentd.turns, List.foldl_cons, List.foldl_nil, Agentd.turn, Agentd.wake,
          hi', ← hrecord]
        cases status with
        | none => exact h'.setThread hdataset
        | some status =>
          simp only [Option.map_some]
          cases status.record.spec.spec.replicateTo with
          | none => exact h'.setThread hdataset
          | some addr =>
            obtain ⟨htaken, hleft⟩ := ReplicationLoop.takeSnapshot_agree
              (l := { loop with tick := loop.tick + 1 }) h'.zfs hdataset snapshots fresh
            simp only
            generalize ReplicationLoop.takeSnapshot _ snapshots fresh (Daemon.zfs _) = x
              at htaken hleft
            generalize ReplicationLoop.takeSnapshot _ snapshots fresh a.zfs = x' at htaken hleft
            obtain ⟨taken, z⟩ := x
            obtain ⟨taken', z'⟩ := x'
            cases htaken
            cases taken with
            | false => exact (h'.setZfs hleft).setThread hdataset
            | true => exact (h'.setZfs hleft).setThread hdataset
      · simp only [hcall]
        exact ⟨[], (h.stopped hup hs h.onPool).exitThread rfl⟩

omit [SerdeYaml Text IngressRecord] in
theorem Refines.acknowledge (h : Refines pool d a) (halive : d.alive = true) (i : ℕ)
    (ack : Agent.Ack) : ∃ ts, Refines pool (d.acknowledge i ack) (a.turns ts) := by
  unfold Daemon.acknowledge
  split
  case h_2 => exact ⟨[], h⟩
  case h_1 loop addr hi =>
    obtain ⟨hi', hdataset⟩ := h.thread halive hi ThreadPhase.noConfusion
    refine ⟨[.acknowledge i ack], ?_⟩
    simp only [Agentd.turns, List.foldl_cons, List.foldl_nil, Agentd.turn, hi']
    exact h.setThread hdataset

omit [SerdeYaml Text IngressRecord] in
theorem Refines.conclude (h : Refines pool d a) (halive : d.alive = true) (i : ℕ) (prunes : Bool)
    (result : Agent.SendOnce) : ∃ ts, Refines pool (d.conclude i prunes result) (a.turns ts) := by
  unfold Daemon.conclude
  split
  case h_2 => exact ⟨[], h⟩
  case h_1 loop addr ack hi =>
    obtain ⟨hi', hdataset⟩ := h.thread halive hi ThreadPhase.noConfusion
    refine ⟨[.conclude i prunes result], ?_⟩
    obtain ⟨hloop, hleft⟩ := loop.conclude_agree h.zfs hdataset prunes result
    simp only [Agentd.turns, List.foldl_cons, List.foldl_nil, Agentd.turn, Agentd.conclude, hi',
      ← hloop]
    refine (h.setZfs hleft).setThread ?_
    show (loop.conclude prunes result d.zfs).1.dataset ∈ volumes pool
    rw [ReplicationLoop.conclude_dataset]
    exact hdataset

omit [SerdeYaml Text IngressRecord] in
theorem Refines.exit (h : Refines pool d a) (halive : d.alive = true) (i : ℕ) :
    ∃ ts, Refines pool (d.exit i) (a.turns ts) := by
  unfold Daemon.exit
  split
  case h_2 => exact ⟨[], h⟩
  case h_1 loop hi =>
    obtain ⟨hi', hdataset⟩ := h.thread halive hi ThreadPhase.noConfusion
    refine ⟨[.exit i], ?_⟩
    simp only [Agentd.turns, List.foldl_cons, List.foldl_nil, Agentd.turn, Agentd.exit, hi']
    exact h.setThread hdataset

/-! ## The listener -/

omit [Ipnet] [SerdeYaml Text IngressRecord] in
theorem Refines.setListener (h : Refines pool d a) {l l' : Listener}
    (hz : l.zfs.AgreeOn (volumes pool) l'.zfs) (ht : l.targets = l'.targets) :
    Refines pool (d.setListener l) (a.setListener l') := by
  have h' := h.setZfs hz
  refine ⟨h.onPool, h'.stored, ?_, h.podCidr, fun _ => ht, h.threads, h.datasets, h'.worker⟩
  exact congrArg Agent.ReplicaTargetRegistry.saved ht

omit [Ipnet] [SerdeYaml Text IngressRecord] in
theorem Refines.listener (h : Refines pool d a) (halive : d.alive = true) :
    d.listener pool = { a.listener with zfs := d.zfs } := by
  have hpool : a.pool = pool := h.onPool
  unfold Daemon.listener Agentd.listener
  rw [h.targets halive, hpool]

omit [SerdeYaml Text IngressRecord] in
/-- Answering a header has nothing to do with ZFS. -/
theorem Refines.answer (h : Refines pool d a) (halive : d.alive = true) (saved : Bool)
    (header : Agent.Header) (peerAddr : String) :
    Refines pool (d.setListener ((d.listener pool).answer saved header peerAddr).2)
      (a.turns [.answer saved header peerAddr]) := by
  rw [h.listener halive]
  simp only [Agentd.turns, List.foldl_cons, List.foldl_nil, Agentd.turn, Listener.answer,
    Listener.dataset]
  split <;> exact h.setListener h.zfs rfl

omit [SerdeYaml Text IngressRecord] in
theorem Refines.receive (h : Refines pool d a) (halive : d.alive = true) (works : Bool)
    (header : Agent.Header) (input : Option Agent.SendStream) :
    Refines pool (d.setListener ((d.listener pool).receive works header input).2)
      (a.turns [.receive works header input]) := by
  have hz : d.zfs.AgreeOn (volumes a.listener.pool) a.listener.zfs := by
    show d.zfs.AgreeOn (volumes a.reconciler.pool) a.zfs
    rw [h.onPool]
    exact h.zfs
  have hleft := Listener.receive_agree hz works header input
  rw [h.listener halive]
  refine h.setListener ?_ ?_
  · rw [← h.onPool]
    exact hleft
  · rw [Listener.receive_targets, Listener.receive_targets]

omit [SerdeYaml Text IngressRecord] in
theorem Refines.record (h : Refines pool d a) (halive : d.alive = true) (saved : Bool)
    (header : Agent.Header) :
    Refines pool (d.setListener ((d.listener pool).record saved header))
      (a.turns [.record saved header]) := by
  rw [h.listener halive]
  exact h.setListener h.zfs rfl

/-! ## Starting -/

omit [Ipnet] [SerdeYaml Text IngressRecord] in
/-- A process that is not there has no worker. -/
theorem Refines.memory (h : Refines pool d a) (hdead : ¬d.alive = true) : d.sys.memory = none := by
  cases hr : d.sys.memory with
  | none => rfl
  | some r => exact absurd (h.worker r hr).1 hdead

/-- A reconciler comes up with what is saved, or not at all. -/
theorem Refines.started (h : Refines pool d a) (hdead : ¬d.alive = true)
    {sys : System Text (Host Text)} (hsys : d.sys.step (Host.world pool choices) .start = sys) :
    Stored a.reconciler a.zfs sys.trace.world ∧ ∀ r, sys.memory = some r →
      Mirrors (.new a.pool a.reconciler.saved) a.zfs r sys.trace.world := by
  obtain rfl := h.onPool
  subst hsys
  simp only [System.step, h.memory hdead]
  refine System.of_started (I := fun sys => Stored a.reconciler a.zfs sys.trace.world ∧
    ∀ r, sys.memory = some r → Mirrors (.new a.pool a.reconciler.saved) a.zfs r sys.trace.world)
    (Host.meets_of_wp (wp_new_mirrors h.stored)) ?_ ?_ ?_
  · rintro r t ⟨hs, hm⟩
    refine ⟨hs, fun r' hr' => ?_⟩
    cases hr'
    exact hm rfl
  · rintro e r t ⟨hs, -⟩
    exact ⟨hs, fun r' hr' => by cases hr'⟩
  · exact fun x t hs => ⟨hs, fun r' hr' => by cases hr'⟩

/-- **A start** comes up as the cluster's agent does, or not at all. -/
theorem Refines.start (h : Refines pool d a) (hdead : ¬d.alive = true) (p : Pass) (loads : Bool) :
    ∃ ts, Refines pool (d.start pool choices p loads) (a.turns ts) := by
  have hup : ∀ {P : Prop}, d.alive = true → P := fun halive => absurd halive hdead
  simp only [Daemon.start]
  generalize hsys : d.sys.step (Host.world pool choices) .start = sys
  obtain ⟨hstored, hnew⟩ := h.started choices hdead hsys
  cases hr : sys.memory with
  | none =>
    refine ⟨[], h.onPool, hstored, h.savedTargets, hup, hup, hup, hup, fun r hr' => ?_⟩
    rw [hr] at hr'
    cases hr'
  | some r =>
    have hm := hnew r hr
    have hstart : Refines pool ⟨sys, true, none, ∅, [], .load d.targets.saved⟩
        (.start a.pool a.zfs a.reconciler.saved a.targets.saved) := by
      refine ⟨h.onPool, hm.stored, h.savedTargets, fun _ => rfl, fun _ => ?_, fun _ i t hi => ?_,
        fun _ t ht => ?_, fun r' hr' => ⟨rfl, ⟨rfl, rfl⟩, hnew r' hr'⟩⟩
      · exact congrArg Agent.ReplicaTargetRegistry.load h.savedTargets
      · cases hi
      · cases ht
    rcases hstart.resumed choices p with ⟨hnone, h'⟩ | ⟨hdone, h'⟩
    · generalize Daemon.handleCommand _ pool choices p .resumeReplicationLoops = x at hnone h'
      obtain ⟨reply, d'⟩ := x
      cases hnone
      -- down again, with on disk what was there
      have hdown : ∀ {P : Prop}, d'.down.alive = true → P := fun h => absurd h Bool.false_ne_true
      exact ⟨[], h.onPool, ⟨h'.stored.saved, h'.stored.zfs⟩, h'.savedTargets, hdown, hdown, hdown,
        hdown, fun r hr => by cases hr⟩
    · generalize Daemon.handleCommand _ pool choices p .resumeReplicationLoops = x at hdone h'
      obtain ⟨reply, d'⟩ := x
      cases hdone
      refine ⟨[.restart], ?_⟩
      cases loads with
      | true => exact h'
      | false => exact h'.down

/-! ## Steps and lives -/

/-- The command of a jail exits: nothing the cluster's agent knows of. -/
theorem Refines.exits (h : Refines pool d a) (jail : String) :
    Refines pool (d.step pool choices (.exits jail)) a := by
  have hstored : Stored a.reconciler a.zfs (d.host.markExited jail) := by
    obtain ⟨jails, hjails⟩ := d.host.withJail_eq jail fun jail => { jail with running := false }
    rw [Host.markExited, hjails]
    exact ⟨h.stored.saved, h.stored.zfs⟩
  refine ⟨h.onPool, hstored, h.savedTargets, h.podCidr, h.targets, h.threads, h.datasets,
    fun r hr => ?_⟩
  obtain ⟨halive, hlen, hm⟩ := h.worker r hr
  exact ⟨halive, hlen, hm.pool, hm.records, hm.next, hm.synced, hstored⟩

omit [SerdeYaml Text IngressRecord] in
theorem Refines.assign (h : Refines pool d a) (podCidr : Ipv4Net) :
    Refines pool { d with podCidr := some podCidr } (a.turns [.assign (some podCidr)]) :=
  ⟨h.onPool, h.stored, h.savedTargets, fun _ => rfl, h.targets, h.threads, h.datasets, h.worker⟩

/-- **Every step** is some turns. -/
theorem Refines.step (h : Refines pool d a) (x : Act) :
    ∃ ts, Refines pool (d.step pool choices x) (a.turns ts) := by
  -- most are a part of a process that is there
  have hact : d.step pool choices x = (if d.alive then d.act pool choices x else d) →
      (d.alive = true → ∃ ts, Refines pool (d.act pool choices x) (a.turns ts)) →
      ∃ ts, Refines pool (d.step pool choices x) (a.turns ts) := by
    intro hstep hts
    rw [hstep]
    split
    · rename_i halive
      exact hts halive
    · exact ⟨[], h⟩
  cases x with
  | command p c =>
    refine hact rfl fun _ => ?_
    obtain ⟨ts, h', -⟩ := h.handleCommand choices p c
    exact ⟨ts, h'⟩
  | start p loads =>
    simp only [Daemon.step]
    split
    · exact ⟨[], h⟩
    · rename_i hdead
      exact h.start choices hdead p loads
  | kill => exact ⟨[], h.down⟩
  | exits jail => exact ⟨[], h.exits choices jail⟩
  | assign podCidr => exact hact rfl fun _ => ⟨_, h.assign podCidr⟩
  | wake i now snapshots connects fresh =>
    exact hact rfl fun halive => h.wake choices halive i now snapshots connects fresh
  | acknowledge i ack => exact hact rfl fun halive => h.acknowledge halive i ack
  | conclude i prunes result => exact hact rfl fun halive => h.conclude halive i prunes result
  | exit i => exact hact rfl fun halive => h.exit halive i
  | answer saved header peerAddr =>
    exact hact rfl fun halive => ⟨_, h.answer halive saved header peerAddr⟩
  | receive works header input =>
    exact hact rfl fun halive => ⟨_, h.receive halive works header input⟩
  | record saved header => exact hact rfl fun halive => ⟨_, h.record halive saved header⟩

/-- **Every life** is a life of the cluster's agent. -/
theorem Refines.run (acts : List Act) : ∀ {d : Daemon Text} {a : Agentd}, Refines pool d a →
    ∃ ts, Refines pool (d.run pool choices acts) (a.turns ts) := by
  induction acts with
  | nil => exact fun h => ⟨[], h⟩
  | cons x acts ih =>
    intro d a h
    obtain ⟨ts, hstep⟩ := h.step choices x
    obtain ⟨ts', hrun⟩ := ih hstep
    refine ⟨ts ++ ts', ?_⟩
    rw [Agentd.turns_append]
    exact hrun

omit [Ipnet] [SerdeYaml Text IngressRecord] in
/-- A machine with records on its disk, and an agent that was started on
them and is gone. -/
theorem Refines.fresh (pool : String) {machine : Host Text} {saved : Table JailRecord}
    (hsaved : Holds machine.stateDir saved.lookup) (targets : Table Agent.ReplicaTarget) :
    Refines pool (.fresh machine targets) (.start pool machine.zfs saved targets) := by
  have hdown : ∀ {P : Prop}, (Daemon.fresh machine targets).alive = true → P :=
    fun h => absurd h Bool.false_ne_true
  exact ⟨rfl, ⟨hsaved, .refl _ _⟩, rfl, hdown, hdown, hdown, hdown, fun r hr => by cases hr⟩

/-- **The agent's process is the cluster's agent**, after any life on its
machine; and what it does next with a command, and replies to it, is what
that agent does and answers. -/
theorem daemon_is_agentd {machine : Host Text} {saved : Table JailRecord}
    (hsaved : Holds machine.stateDir saved.lookup) (targets : Table Agent.ReplicaTarget)
    (pool : String) (acts : List Act) (p : Pass) (c : Command) :
    ∃ ts, Refines pool ((Daemon.fresh machine targets).run pool choices acts)
        ((Agentd.start pool machine.zfs saved targets).turns ts) ∧
      Explained pool ((Agentd.start pool machine.zfs saved targets).turns ts) c
        (((Daemon.fresh machine targets).run pool choices acts).handleCommand pool choices p
          c) := by
  obtain ⟨ts, hlife⟩ := (Refines.fresh pool hsaved targets).run choices acts
  exact ⟨ts, hlife, hlife.handleCommand choices p c⟩

end Refinement

section Sample

open Node.Sample Agent.Sample

/-- The record of a jail with a volume. -/
def Sample.kept : JailRecord := ⟨jail "db-0" (some "b:7622"), 1⟩

/-- A machine with the record on its disk. -/
def Sample.recorded : Host Doc :=
  { host with stateDir := (∅ : Table Doc).insert (stateFile "db-0") (.jail kept) }

/-- Every call works, up to the one at which the machine goes down. -/
def Sample.downAt (call : ℕ) : ℕ → Option (Outcome Doc) :=
  fun i => if i < call then some .works else none

theorem holds_recorded :
    Holds recorded.stateDir ((∅ : Table JailRecord).insert "db-0" kept).lookup := by
  have hnone : Holds (∅ : Table Doc) fun _ => none :=
    holds_none fun file content hfile => by cases hfile
  have hput : Holds recorded.stateDir (Function.update (fun _ => none) "db-0" (some kept)) := by
    refine Holds.put hnone (fun file _ => ?_) (by decide : kept.spec.metadata.name ≠ "")
    exact Table.lookup_insert_eq ..
  have hsame : ((∅ : Table JailRecord).insert "db-0" kept).lookup =
      Function.update (fun _ => none) "db-0" (some kept) := by
    funext name
    rw [Table.lookup_insert_eq, Function.update_apply]
    rfl
  rw [hsame]
  exact hput

/-- An agent started on its disk, and shut off before its first pass has
made the jail's volume. -/
def Sample.cutOff : List Act := [.start (pass 0) true, .command (pass 0) .tick]

theorem daemon_is_agentd_cutOff :
    ((Daemon.fresh recorded ∅).run "zroot" (downAt 15) cutOff).alive = false ∧
    ∃ ts,
      Refines "zroot" ((Daemon.fresh recorded ∅).run "zroot" (downAt 15) cutOff)
        ((Agentd.start "zroot" recorded.zfs ((∅ : Table JailRecord).insert "db-0" kept) ∅).turns
          ts) ∧
      Explained "zroot"
        ((Agentd.start "zroot" recorded.zfs ((∅ : Table JailRecord).insert "db-0" kept) ∅).turns ts)
        (.get none)
        (((Daemon.fresh recorded ∅).run "zroot" (downAt 15) cutOff).handleCommand "zroot"
          (downAt 15) (pass 1) (.get none)) :=
  ⟨by decide +kernel,
    daemon_is_agentd (downAt 15) holds_recorded ∅ "zroot" cutOff (pass 1) (.get none)⟩

end Sample

end Node

/-! ## The cluster -/

namespace Agent

variable [Ipnet] (a : Agentd)

/-- An agent later on, after some turns. -/
def Agentd.Turned (a' : Agentd) : Prop := ∃ ts, a' = a.turns ts

theorem Agentd.Turned.refl : a.Turned a := ⟨[], rfl⟩

theorem Agentd.Turned.of_turn (t : Agentd.Turn) : a.Turned (a.turn t) := ⟨[t], rfl⟩

variable {a} {a' a'' : Agentd}

theorem Agentd.Turned.trans (h : a.Turned a') (h' : a'.Turned a'') : a.Turned a'' := by
  obtain ⟨ts, rfl⟩ := h
  obtain ⟨ts', rfl⟩ := h'
  exact ⟨ts ++ ts', (a.turns_append ts ts').symm⟩

/-- A request is one command, or none. -/
theorem Agentd.turned_handle (m : Machine) (request : Request) :
    a.Turned (a.handle m request).2 := by
  cases request with
  | putJail name body =>
    simp only [handle, handleApply]
    split
    · exact .refl a
    split
    · exact .refl a
    split
    · exact .refl a
    · exact .of_turn a (.command m (.apply _))
  | getJails => exact .of_turn a (.command m (.get none))
  | getJail name => exact .of_turn a (.command m (.get (some name)))
  | deleteJail name => exact .of_turn a (.command m (.delete name))
  | putReplicateTo name body =>
    simp only [handle, handleSetReplicateTo]
    split
    · exact .refl a
    · exact .of_turn a (.command m (.setReplicateTo name (some _)))
    · exact .of_turn a (.command m (.setReplicateTo name none))
  | getVolume name => exact .of_turn a (.command m (.getVolume name))
  | deleteVolume name => exact .of_turn a (.command m (.deleteVolume name))
  | getReplicaTarget name => exact .refl a
  | noRoute method path => exact .refl a

end Agent

namespace Cluster

open Agent

variable {N : Type} [DecidableEq N] [Ipnet] (net : Net N) (c : Cluster N)

/-- Every agent has taken some turns. -/
def Turned (c' : Cluster N) : Prop := ∀ n, (c.agents n).Turned (c'.agents n)

variable {c} {c' c'' : Cluster N}

omit [DecidableEq N] in
theorem Turned.of_agents (h : c'.agents = c.agents) : c.Turned c' := by
  intro n
  rw [h]
  exact .refl _

omit [DecidableEq N] in
theorem Turned.trans (h : c.Turned c') (h' : c'.Turned c'') : c.Turned c'' :=
  fun n => (h n).trans (h' n)

theorem Turned.setAgent {n : N} {a : Agentd} (h : (c.agents n).Turned a) :
    c.Turned (c.setAgent n a) := by
  intro n'
  show (c.agents n').Turned (Function.update c.agents n a n')
  by_cases hn : n' = n
  · subst hn
    rw [Function.update_self]
    exact h
  · rw [Function.update_of_ne hn]
    exact .refl _

theorem turned_conclude (n : N) (i : ℕ) (prunes : Bool) (result : SendOnce) :
    c.Turned (c.conclude n i prunes result) := .setAgent (.of_turn _ (.conclude i prunes result))

theorem turned_ask (n : N) (m : Machine) (request : Agent.Request) :
    c.Turned (c.ask n m request) := .setAgent (Agentd.turned_handle m request)

theorem turned_listen (o : Orphan N) (arrival : Arrival) (saves : Bool) (peerAddr : String) :
    c.Turned (c.listen o arrival saves peerAddr).2 := by
  intro n
  rw [listen_agents]
  split
  · rename_i hn
    subst hn
    exact .of_turn _ (.answer saves o.header peerAddr)
  · exact .refl _

theorem turned_forward (m : Machine) (delivery : Delivery) (f : ControlPlane.Forward) :
    c.Turned (c.forward net m delivery f).2 := by
  unfold forward
  split
  · exact turned_ask _ m f.request
  · exact turned_ask _ m f.request
  · exact .of_agents rfl
  · exact .of_agents rfl

theorem turned_advance (i : ℕ) (o : ControlPlane.Choice) (m : Machine) (delivery : Delivery) :
    c.Turned (c.advance net i o m delivery) := by
  unfold advance
  split
  · exact .of_agents rfl
  · exact .of_agents rfl
  · exact .of_agents rfl
  · exact turned_forward net m delivery _

/-- A header is answered, and its loop reads the answer. -/
theorem turned_answer (n : N) (i : ℕ) (saves : Bool) (peerAddr : String) :
    c.Turned (c.answer net n i saves peerAddr) := by
  unfold answer
  split
  case h_2 => exact .of_agents rfl
  case h_1 loop addr hi =>
    split
    case h_2 => exact .of_agents rfl
    case h_1 d _ =>
      have hlisten : c.Turned (c.listen ⟨n, d, loop.header⟩ (.awaited i) saves peerAddr).2 :=
        turned_listen ⟨n, d, loop.header⟩ (.awaited i) saves peerAddr
      have hthread : ((c.listen ⟨n, d, loop.header⟩ (.awaited i) saves
          peerAddr).2.agents n).threads[i]? = some ⟨loop, .sending addr none⟩ := by
        rw [listen_threads, hi]
      generalize c.listen ⟨n, d, loop.header⟩ (.awaited i) saves peerAddr = x at hlisten hthread
      obtain ⟨ack, c'⟩ := x
      cases ack with
      | none => exact hlisten.trans (turned_conclude n i false .io)
      | some ack =>
        refine hlisten.trans (.setAgent ⟨[.acknowledge i ack], ?_⟩)
        simp only [Agentd.turns, List.foldl_cons, List.foldl_nil, Agentd.turn, hthread]

theorem turned_send (n : N) (i : ℕ) (sends arrives prunes : Bool) :
    c.Turned (c.send n i sends arrives prunes) := by
  unfold send
  split
  case h_1 => exact turned_conclude n i prunes .needFull
  case h_2 =>
    split
    · exact Turned.trans (.of_agents rfl) (turned_conclude n i prunes .io)
    · exact Turned.trans (.of_agents rfl) (turned_conclude n i prunes _)
  case h_3 => exact .of_agents rfl

/-- A listener receives what has come of a stream. -/
theorem turned_receive (k : ℕ) (works : Bool) : c.Turned (c.receive k works) := by
  unfold receive
  split
  case h_1 src dst header stream hk =>
    have hreceive := Agentd.Turned.of_turn (c.agents dst) (.receive works header (some stream))
    simp only [Agentd.turn] at hreceive
    generalize (c.agents dst).listener.receive works header (some stream) = x at hreceive
    obtain ⟨received, l⟩ := x
    cases received with
    | true => exact (Turned.setAgent hreceive).trans (.of_agents rfl)
    | false => exact (Turned.setAgent hreceive).trans (.of_agents rfl)
  case h_2 src dst header hk =>
    exact (Turned.setAgent (.of_turn _ (.receive works header none))).trans (.of_agents rfl)
  case h_3 => exact .of_agents rfl

theorem turned_record (k : ℕ) (saves : Bool) : c.Turned (c.record k saves) := by
  unfold record
  split
  case h_1 src dst header hk =>
    exact (Turned.setAgent (.of_turn _ (.record saves header))).trans (.of_agents rfl)
  case h_2 => exact .of_agents rfl

/-- **A step of the cluster**, to each of its agents. -/
theorem turned_step (label : Label N) : c.Turned (c.step net label) := by
  cases label with
  | serve request => exact .of_agents rfl
  | advance i o m delivery => exact turned_advance net i o m delivery
  | ask n m request => exact turned_ask n m request
  | timer n m => exact .setAgent (.of_turn _ (.command m .tick))
  | assign n podCidr => exact .setAgent (.of_turn _ (.assign podCidr))
  | wake n i snapshots connects =>
    exact (Turned.setAgent (.of_turn _ (.wake i snapshots connects c.fresh))).trans (.of_agents rfl)
  | exit n i => exact .setAgent (.of_turn _ (.exit i))
  | answer n i saves peerAddr => exact turned_answer net n i saves peerAddr
  | abandon n i =>
    show c.Turned (c.abandon net n i)
    unfold abandon
    split
    · exact Turned.trans (.of_agents rfl) (turned_conclude n i false .io)
    · exact .of_agents rfl
  | send n i sends arrives prunes => exact turned_send n i sends arrives prunes
  | answerOrphan k saves peerAddr =>
    show c.Turned (c.answerOrphan k saves peerAddr)
    unfold answerOrphan
    split
    · exact (turned_listen _ .cut saves peerAddr).trans (.of_agents rfl)
    · exact .of_agents rfl
  | receive k works => exact turned_receive k works
  | record k saves => exact turned_record k saves
  | restart n => exact Turned.trans (.of_agents rfl) (.setAgent (.of_turn _ .restart))

end Cluster

end Keel
