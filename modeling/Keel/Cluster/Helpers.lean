import Keel.Cluster.Model
import Keel.Agent.Helpers.Worker
/-!
# What a step of the cluster leaves

The parts of the cluster that its laws are about — the loops, the
records, the streams under way, the last snapshot each agent has recorded
of a replica, in memory and on disk, and the stamps of the snapshots it
holds — after each operation a step is made of. What a listener awaits
and the loop it awaits it from agree in every run (`Linked`).
-/

namespace Keel

namespace Agent

/-! ## A stream received -/

namespace Listener

variable (l : Listener) (works saved : Bool) (header : Header) (stream : SendStream) (r : String)

/-- What is not received leaves nothing. -/
theorem receive_of_false {input : Option SendStream}
    (h : (l.receive works header input).1 = false) : (l.receive works header input).2 = l := by
  have hpool := l.receive_pool works header input
  have htargets := l.receive_targets works header input
  have hzfs := l.receive_zfs_of_false works header input h
  cases hl : (l.receive works header input).2 with
  | mk pool zfs targets =>
    rw [hl] at hpool htargets hzfs
    cases l
    cases hpool
    cases htargets
    cases hzfs
    rfl

theorem receive_of_true (h : (l.receive works header (some stream)).1 = true) :
    (l.receive works header (some stream)).2 =
      { l with zfs := l.zfs.store (l.dataset header.replicaName) stream } := by
  have hpool := l.receive_pool works header (some stream)
  have htargets := l.receive_targets works header (some stream)
  obtain ⟨stream', hinput, hzfs⟩ := l.receive_eq_true works header (some stream) h
  cases hinput
  cases hl : (l.receive works header (some stream)).2 with
  | mk pool zfs targets =>
    rw [hl] at hpool htargets hzfs
    cases hpool
    cases htargets
    cases hzfs
    rfl

/-- A stream cut short is not received. -/
theorem receive_none : (l.receive works header none).1 = false := by
  by_contra hne
  obtain ⟨stream, hinput, -⟩ := l.receive_eq_true works header none (by simpa using hne)
  cases hinput

theorem record_last_cases :
    (l.record saved header).targets.last r = l.targets.last r ∨
      r = header.replicaName ∧
        (l.record saved header).targets.last r = some header.snapshotId := by
  by_cases hmem : header.replicaName ∈ l.targets.byName
  · rw [l.record_last saved header r hmem]
    split
    · rename_i hr
      exact Or.inr ⟨hr, rfl⟩
    · exact Or.inl rfl
  · have hnone : l.targets.byName.lookup header.replicaName = none := AList.lookup_eq_none.2 hmem
    exact Or.inl (by simp only [record, ReplicaTargetRegistry.recordSnapshot, hnone])

/-- What is on disk after it was there before, or is in memory. -/
theorem record_savedLast_cases :
    (l.record saved header).targets.savedLast r = l.targets.savedLast r ∨
      r = header.replicaName ∧
        (l.record saved header).targets.savedLast r = some header.snapshotId ∧
        (l.record saved header).targets.last r = some header.snapshotId := by
  by_cases hmem : header.replicaName ∈ l.targets.byName
  · rw [l.record_savedLast saved header r hmem, l.record_last saved header r hmem]
    split
    · rename_i hr
      exact Or.inr ⟨hr.2, rfl, if_pos hr.2⟩
    · exact Or.inl rfl
  · have hnone : l.targets.byName.lookup header.replicaName = none := AList.lookup_eq_none.2 hmem
    exact Or.inl (by simp only [record, ReplicaTargetRegistry.recordSnapshot, hnone])

end Listener

/-! ## An agent's turns -/

/-- The address a thread is connected to. -/
def Thread.addr? (t : Thread) : Option String :=
  match t.phase with
  | .sending addr _ => some addr
  | _ => none

/-- The answer it has. -/
def Thread.ack? (t : Thread) : Option Ack :=
  match t.phase with
  | .sending _ ack => ack
  | _ => none

@[simp] theorem Thread.addr?_sleeping (loop : ReplicationLoop) :
    Thread.addr? ⟨loop, .sleeping⟩ = none := rfl

@[simp] theorem Thread.addr?_stopping (loop : ReplicationLoop) :
    Thread.addr? ⟨loop, .stopping⟩ = none := rfl

@[simp] theorem Thread.addr?_exited (loop : ReplicationLoop) :
    Thread.addr? ⟨loop, .exited⟩ = none := rfl

@[simp] theorem Thread.addr?_sending (loop : ReplicationLoop) (addr : String) (ack : Option Ack) :
    Thread.addr? ⟨loop, .sending addr ack⟩ = some addr := rfl

@[simp] theorem Thread.ack?_sending (loop : ReplicationLoop) (addr : String) (ack : Option Ack) :
    Thread.ack? ⟨loop, .sending addr ack⟩ = ack := rfl

namespace ReplicationLoop

variable {loop : ReplicationLoop} {zfs : FakeZfsManager}

/-- A snapshot there is stays the one it is. -/
theorem lookup_takeSnapshot {works : Bool} {fresh : Stamp} {k : String × String} {s : Stamp}
    (h : zfs.snapshots.lookup k = some s) :
    (loop.takeSnapshot works fresh zfs).2.snapshots.lookup k = some s := by
  cases works with
  | false => exact h
  | true =>
    simp only [takeSnapshot, FakeZfsManager.snapshot, if_true]
    by_cases hdataset : loop.dataset ∈ zfs.datasets
    · simp only [if_pos hdataset]
      split
      · exact h
      · rename_i hnew
        rw [AList.lookup_insert_ne]
        · exact h
        · rintro rfl
          exact hnew (AList.lookup_isSome.1 (by rw [h]; rfl))
    · simp only [if_neg hdataset]
      exact h

/-- And one that was not there is a new one. -/
theorem of_takeSnapshot {works : Bool} {fresh : Stamp} {k : String × String} {s : Stamp}
    (h : (loop.takeSnapshot works fresh zfs).2.snapshots.lookup k = some s) :
    zfs.snapshots.lookup k = some s ∨ s = fresh := by
  cases works with
  | false => exact Or.inl h
  | true =>
    simp only [takeSnapshot, FakeZfsManager.snapshot, if_true] at h
    by_cases hdataset : loop.dataset ∈ zfs.datasets
    · simp only [if_pos hdataset] at h
      split at h
      · exact Or.inl h
      · by_cases hk : k = (loop.dataset, snapshotId loop.tick)
        · rw [hk, AList.lookup_insert] at h
          exact Or.inr (Option.some.inj h).symm
        · rw [AList.lookup_insert_ne hk] at h
          exact Or.inl h
    · simp only [if_neg hdataset] at h
      exact Or.inl h

/-- What is sent is the snapshot there is under the tick's name. -/
theorem stream_stamp {stream : SendStream} (h : loop.stream zfs = some stream) :
    zfs.snapshots.lookup (loop.dataset, snapshotId loop.tick) = some stream.stamp := by
  simp only [ReplicationLoop.stream, FakeZfsManager.sendSnapshot] at h
  split at h
  · cases h
  · rename_i stamp hstamp
    rw [hstamp]
    split at h
    · cases h
      rfl
    · split at h
      · cases h
        rfl
      · cases h

/-- A loop that is done with a tick takes no snapshot. -/
theorem of_conclude {prunes : Bool} {result : SendOnce} {k : String × String} {s : Stamp}
    (h : (loop.conclude prunes result zfs).2.snapshots.lookup k = some s) :
    zfs.snapshots.lookup k = some s := by
  cases result with
  | ok =>
    simp only [conclude] at h
    split at h
    · split at h
      · rw [FakeZfsManager.lookup_destroySnapshot] at h
        split at h
        · cases h
        · exact h
      · exact h
    · exact h
  | needFull => exact h
  | io => exact h

end ReplicationLoop

namespace Agentd

variable (a : Agentd)

/-- **What waking a loop comes to**: nothing, or a turn of a sleeping one,
up to the header it sends to where its record points. The snapshots there
are stay the ones they are. -/
theorem wake_cases (i : ℕ) (snapshots connects : Bool) (fresh : Stamp) :
    a.wake i snapshots connects fresh = a ∨
      ∃ loop zfs phase, a.threads[i]? = some ⟨loop, .sleeping⟩ ∧
        a.wake i snapshots connects fresh =
          { a with zfs }.setThread i ⟨{ loop with tick := loop.tick + 1 }, phase⟩ ∧
        (∀ k s, a.zfs.snapshots.lookup k = some s → zfs.snapshots.lookup k = some s) ∧
        (phase = .sleeping ∨ phase = .stopping ∨
          ∃ addr, phase = .sending addr none ∧
            ∃ record, a.reconciler.records.lookup loop.replicaName = some record ∧
              record.spec.spec.replicateTo = some addr) := by
  rw [wake]
  split
  · rename_i loop hi
    refine Or.inr ?_
    simp only
    split
    · -- No record: the loop ends. No `replicateTo`: it waits for one.
      exact ⟨loop, a.zfs, .stopping, hi, rfl, fun _ _ => id, Or.inr (Or.inl rfl)⟩
    · rename_i record hrecord
      split
      · exact ⟨loop, a.zfs, .sleeping, hi, rfl, fun _ _ => id, Or.inl rfl⟩
      · rename_i addr haddr
        split
        · rename_i zfs hzfs
          refine ⟨loop, zfs, .sleeping, hi, rfl, fun k s h => ?_, Or.inl rfl⟩
          exact (congrArg (fun x => x.2.snapshots.lookup k) hzfs).symm.trans
            (ReplicationLoop.lookup_takeSnapshot h)
        · rename_i zfs hzfs
          refine ⟨loop, zfs, _, hi, rfl, fun k s h => ?_, ?_⟩
          · exact (congrArg (fun x => x.2.snapshots.lookup k) hzfs).symm.trans
              (ReplicationLoop.lookup_takeSnapshot h)
          · cases connects
            · exact Or.inl rfl
            · exact Or.inr (Or.inr ⟨addr, rfl, record, hrecord, haddr⟩)
  · exact Or.inl rfl

/-- A snapshot that was not there is a new one. -/
theorem of_wake {i : ℕ} {snapshots connects : Bool} {fresh : Stamp} {k : String × String}
    {s : Stamp}
    (h : (a.wake i snapshots connects fresh).zfs.snapshots.lookup k = some s) :
    a.zfs.snapshots.lookup k = some s ∨ s = fresh := by
  rw [wake] at h
  split at h
  · simp only at h
    split at h
    · exact Or.inl h
    · split at h
      · exact Or.inl h
      · split at h
        · rename_i zfs hzfs
          exact ReplicationLoop.of_takeSnapshot
            ((congrArg (fun x => x.2.snapshots.lookup k) hzfs).trans h)
        · rename_i zfs hzfs
          exact ReplicationLoop.of_takeSnapshot
            ((congrArg (fun x => x.2.snapshots.lookup k) hzfs).trans h)
  · exact Or.inl h

/-- A loop in `send_once` comes back from it. -/
theorem conclude_eq {i : ℕ} {loop : ReplicationLoop} {addr : String} {ack : Option Ack}
    (hi : a.threads[i]? = some ⟨loop, .sending addr ack⟩) (prunes : Bool) (result : SendOnce) :
    a.conclude i prunes result =
      { a with zfs := (loop.conclude prunes result a.zfs).2 }.setThread i
        ⟨(loop.conclude prunes result a.zfs).1, .sleeping⟩ := by
  simp only [conclude, hi]

/-- Which snapshot an agent has of a replica under a name. -/
def stamp (r name : String) : Option Stamp :=
  (a.zfs.snapshots.entries.find? fun e => e.1 = (a.listener.dataset r, name)).map Sigma.snd

theorem stamp_eq (r name : String) :
    a.stamp r name = a.zfs.snapshots.lookup (a.listener.dataset r, name) := by
  rw [stamp, AList.lookup]
  induction a.zfs.snapshots.entries with
  | nil => rfl
  | cons e entries ih =>
    rw [List.find?_cons]
    by_cases he : e.1 = (a.listener.dataset r, name)
    · rw [decide_eq_true he]
      obtain ⟨k, s⟩ := e
      subst he
      rw [List.dlookup_cons_eq]
      rfl
    · rw [decide_eq_false he, List.dlookup_cons_ne _ _ (Ne.symm he)]
      exact ih

variable {a} in
theorem dataset_congr {a' : Agentd} (hpool : a'.pool = a.pool) :
    a'.listener.dataset = a.listener.dataset := by
  funext r
  exact congrArg (fun pool => volumeDatasetPath pool (r ++ "-data")) hpool

variable {a} in
theorem stamp_congr {a' : Agentd} (hpool : a'.pool = a.pool)
    (hsnapshots : a'.zfs.snapshots = a.zfs.snapshots) : a'.stamp = a.stamp := by
  funext r name
  rw [stamp_eq, stamp_eq, dataset_congr hpool, hsnapshots]

/-- A restarted agent has the loops it spawned just now. -/
theorem restart_commanded :
    Commanded (start a.pool a.zfs a.reconciler.saved a.targets.saved) a.restart :=
  .startAll _ _

theorem mem_restart {t : Thread} (h : t ∈ a.restart.threads) : ∃ name, t = .spawned a.pool name :=
  (a.restart_commanded.threads t h).resolve_left List.not_mem_nil

theorem exit_cases (i : ℕ) :
    a.exit i = a ∨ ∃ loop, a.threads[i]? = some ⟨loop, .stopping⟩ ∧
      a.exit i = a.setThread i ⟨loop, .exited⟩ := by
  rw [exit]
  split
  · rename_i loop hi
    exact Or.inr ⟨loop, hi, rfl⟩
  · exact Or.inl rfl

end Agentd

end Agent

/-- The stream that has come on a connection. -/
def Arrival.stream? : Arrival → Option Agent.SendStream
  | .arrived stream => some stream
  | _ => none

/-- A step of the control plane. -/
def Label.control {N : Type} : Label N → Bool
  | .serve _ => true
  | .advance .. => true
  | _ => false

namespace Cluster

open Agent

variable {N : Type} (c : Cluster N)

/-- The last snapshot an agent has recorded of a replica. -/
def last (m : N) (r : String) : Option String := (c.agents m).targets.last r

/-- The same, as it is on disk. -/
def savedLast (m : N) (r : String) : Option String := (c.agents m).targets.savedLast r

variable [DecidableEq N] {net : Net N} {c}

theorem agents_setAgent (n m : N) (a : Agentd) :
    (c.setAgent n a).agents m = if m = n then a else c.agents m :=
  Function.update_apply ..

/-! ## An answer -/

section Listen

variable (o : Orphan N) (arrival : Arrival) (m : N) (saves : Bool) (peerAddr r : String)

theorem listen_agents :
    (c.listen o arrival saves peerAddr).2.agents m =
      if m = o.dst then
        (c.agents o.dst).setListener ((c.agents o.dst).listener.answer saves o.header peerAddr).2
      else c.agents m := by
  rw [← agents_setAgent, listen]
  simp only
  split <;> rfl

@[simp] theorem listen_threads :
    ((c.listen o arrival saves peerAddr).2.agents m).threads = (c.agents m).threads := by
  rw [listen_agents]
  split
  · rename_i h
    rw [h]
    rfl
  · rfl

@[simp] theorem listen_reconciler :
    ((c.listen o arrival saves peerAddr).2.agents m).reconciler = (c.agents m).reconciler := by
  rw [listen_agents]
  split
  · rename_i h
    rw [h]
    rfl
  · rfl

@[simp] theorem listen_zfs :
    ((c.listen o arrival saves peerAddr).2.agents m).zfs = (c.agents m).zfs := by
  rw [listen_agents]
  split
  · rename_i h
    rw [h]
    exact Listener.answer_zfs ..
  · rfl

@[simp] theorem listen_last :
    (c.listen o arrival saves peerAddr).2.last m r = c.last m r := by
  rw [last, listen_agents]
  split
  · rename_i h
    rw [h]
    exact Listener.answer_last ..
  · rfl

theorem listen_savedLast :
    (c.listen o arrival saves peerAddr).2.savedLast m r =
      if m = o.dst ∧ saves = true ∧ r = o.header.replicaName then c.last m r
      else c.savedLast m r := by
  rw [savedLast, listen_agents]
  by_cases hm : m = o.dst
  · subst hm
    simp only [if_true, true_and]
    change (Listener.answer _ saves o.header peerAddr).2.targets.savedLast r = _
    rw [Listener.answer_targets, ReplicaTargetRegistry.savedLast_ensure]
    split
    · rename_i h
      rw [h.2]
      rfl
    · rfl
  · simp only [hm, false_and, if_false]
    rfl

@[simp] theorem listen_stamp :
    ((c.listen o arrival saves peerAddr).2.agents m).stamp = (c.agents m).stamp :=
  Agentd.stamp_congr (by rw [Agentd.pool, listen_reconciler, Agentd.pool]) (by rw [listen_zfs])

theorem listen_ack :
    (c.listen o arrival saves peerAddr).1 =
      if saves then
        some (if o.header.baseSnapshotId = c.last o.dst o.header.replicaName then .proceed
          else .needFull)
      else none :=
  Listener.answer_ack ..

/-- A yes opens a connection for a stream. -/
theorem listen_eq :
    (c.listen o arrival saves peerAddr).2 =
      { c with
        agents := (c.listen o arrival saves peerAddr).2.agents
        receives := c.receives ++
          if (c.listen o arrival saves peerAddr).1 = some .proceed then
            [⟨o.src, o.dst, o.header, arrival⟩]
          else [] } := by
  unfold listen
  generalize (c.agents o.dst).listener.answer saves o.header peerAddr = answer
  obtain ⟨_ | _ | _, l⟩ := answer
  · exact congrArg (Cluster.mk _ _ _ _ · _ _ _) (List.append_nil _).symm
  · rfl
  · exact congrArg (Cluster.mk _ _ _ _ · _ _ _) (List.append_nil _).symm

theorem mem_listen {x : Receive N} (hx : x ∈ (c.listen o arrival saves peerAddr).2.receives) :
    x ∈ c.receives ∨ x = ⟨o.src, o.dst, o.header, arrival⟩ ∧
      (c.listen o arrival saves peerAddr).1 = some .proceed := by
  rw [listen_eq] at hx
  refine (List.mem_append.1 hx).imp_right fun hx => ?_
  split at hx
  · rename_i hack
    exact ⟨List.mem_singleton.1 hx, hack⟩
  · cases hx

@[simp] theorem listen_orphans :
    (c.listen o arrival saves peerAddr).2.orphans = c.orphans := by
  rw [listen_eq]

/-- A yes is to a header whose base is what the agent has recorded. -/
theorem listen_proceed (h : (c.listen o arrival saves peerAddr).1 = some .proceed) :
    o.header.baseSnapshotId = c.last o.dst o.header.replicaName := by
  rw [listen_ack] at h
  split at h
  · by_contra hne
    rw [if_neg hne] at h
    cases h
  · cases h

end Listen

/-! ## A turn of a loop -/

/-- Thread `i` of an agent becomes another, and its snapshots change. -/
def turn (c : Cluster N) (n : N) (i : ℕ) (t : Thread) (zfs : FakeZfsManager) : Cluster N :=
  c.setAgent n ({ c.agents n with zfs }.setThread i t)

section Turn

variable (n m : N) (i : ℕ) (t : Thread) (zfs : FakeZfsManager)

theorem mem_turn {x : Thread} (h : x ∈ ((c.turn n i t zfs).agents m).threads) :
    x ∈ (c.agents m).threads ∨ m = n ∧ x = t := by
  rw [turn, agents_setAgent] at h
  split at h
  · rename_i hm
    subst hm
    exact (List.mem_or_eq_of_mem_set h).imp_right fun hx => ⟨rfl, hx⟩
  · exact Or.inl h

@[simp] theorem turn_reconciler :
    ((c.turn n i t zfs).agents m).reconciler = (c.agents m).reconciler := by
  rw [turn, agents_setAgent]
  split
  · rename_i h
    rw [h]
    rfl
  · rfl

@[simp] theorem turn_targets :
    ((c.turn n i t zfs).agents m).targets = (c.agents m).targets := by
  rw [turn, agents_setAgent]
  split
  · rename_i h
    rw [h]
    rfl
  · rfl

theorem turn_stamp (r name : String) :
    ((c.turn n i t zfs).agents m).stamp r name =
      if m = n then zfs.snapshots.lookup ((c.agents n).listener.dataset r, name)
      else (c.agents m).stamp r name := by
  rw [turn, agents_setAgent]
  split
  · exact Agentd.stamp_eq ..
  · rfl

theorem conclude_turn {loop : ReplicationLoop} {addr : String} {ack : Option Ack}
    (hi : (c.agents n).threads[i]? = some ⟨loop, .sending addr ack⟩) (prunes : Bool)
    (result : SendOnce) :
    c.conclude n i prunes result =
      c.turn n i ⟨(loop.conclude prunes result (c.agents n).zfs).1, .sleeping⟩
        (loop.conclude prunes result (c.agents n).zfs).2 := by
  rw [conclude, Agentd.conclude_eq _ hi, turn]

end Turn

/-! ## A stream -/

section Stream

omit [DecidableEq N] in
theorem mem_close {k : ℕ} {x : Receive N} (h : x ∈ (c.close k).receives) : x ∈ c.receives :=
  List.mem_of_mem_eraseIdx h

theorem mem_settle {n : N} {i : ℕ} {arrival : Arrival} {x : Receive N}
    (h : x ∈ (c.settle n i arrival).receives) :
    x ∈ c.receives ∧ ¬ (x.src = n ∧ x.arrival = .awaited i) ∨
      ∃ y ∈ c.receives, y.src = n ∧ y.arrival = .awaited i ∧ x = { y with arrival } := by
  obtain ⟨y, hy, rfl⟩ := List.mem_map.1 h
  split
  · rename_i hawaited
    exact Or.inr ⟨y, hy, hawaited.1, hawaited.2, rfl⟩
  · rename_i hnot
    exact Or.inl ⟨hy, hnot⟩

/-- An agent has stored a stream of connection `k`. -/
def stored (c : Cluster N) (k : ℕ) (x : Receive N) (stream : SendStream) : Cluster N :=
  { c.setAgent x.dst { c.agents x.dst with
      zfs := (c.agents x.dst).zfs.store ((c.agents x.dst).listener.dataset x.header.replicaName)
        stream } with
    receives := c.receives.set k { x with arrival := .stored }
    received := ⟨x.dst, x.header.replicaName, x.src, stream.stamp, stream.base.isNone⟩ ::
      c.received }

/-- A listener that is left as it was leaves the cluster as it was. -/
theorem setAgent_listener (n : N) :
    c.setAgent n ((c.agents n).setListener (c.agents n).listener) = c :=
  congrArg (Cluster.mk _ _ · _ _ _ _ _) (Function.update_eq_self n c.agents)

/-- **What receiving comes to**: nothing, or the end of the connection, or
a stream that is stored. -/
theorem receive_cases (c : Cluster N) (k : ℕ) (works : Bool) :
    c.receive k works = c ∨ c.receive k works = c.close k ∨
      ∃ x stream, c.receives[k]? = some x ∧ x.arrival = .arrived stream ∧
        c.stores (.receive k works) = some x ∧ c.receive k works = c.stored k x stream := by
  rw [receive]
  split
  · rename_i src dst header stream hk
    cases hreceive : ((c.agents dst).listener.receive works header (some stream)).1 with
    | true =>
      have hleft := (c.agents dst).listener.receive_of_true works header stream hreceive
      refine Or.inr (Or.inr ⟨_, stream, hk, rfl, ?_, ?_⟩)
      · simp only [stores, hk, Option.filter_some, hreceive, if_true]
      · generalize (c.agents dst).listener.receive works header (some stream) = answer at *
        obtain ⟨_, l⟩ := answer
        cases hreceive
        cases hleft
        rfl
    | false =>
      have hleft := (c.agents dst).listener.receive_of_false works header hreceive
      refine Or.inr (Or.inl ?_)
      generalize (c.agents dst).listener.receive works header (some stream) = answer at *
      obtain ⟨_, l⟩ := answer
      cases hreceive
      cases hleft
      exact congrArg (close · k) (setAgent_listener dst)
  · rename_i src dst header hk
    have hleft := (c.agents dst).listener.receive_of_false works header
      ((c.agents dst).listener.receive_none works header)
    refine Or.inr (Or.inl ?_)
    simp only [hleft, setAgent_listener]
  · exact Or.inl rfl

theorem stored_agents (k : ℕ) (x : Receive N) (stream : SendStream) (m : N) :
    (c.stored k x stream).agents m =
      if m = x.dst then { c.agents x.dst with
        zfs := (c.agents x.dst).zfs.store
          ((c.agents x.dst).listener.dataset x.header.replicaName) stream }
      else c.agents m := agents_setAgent ..

/-- What an agent keeps when a stream is stored. -/
theorem stored_keeps (k : ℕ) (x : Receive N) (stream : SendStream) (m : N) :
    ((c.stored k x stream).agents m).reconciler = (c.agents m).reconciler ∧
      ((c.stored k x stream).agents m).threads = (c.agents m).threads ∧
      ((c.stored k x stream).agents m).targets = (c.agents m).targets := by
  rw [stored_agents]
  split
  · rename_i h
    rw [h]
    exact ⟨rfl, rfl, rfl⟩
  · exact ⟨rfl, rfl, rfl⟩

theorem mem_stored {k : ℕ} {x y : Receive N} {stream : SendStream}
    (h : y ∈ (c.stored k x stream).receives) :
    y ∈ c.receives ∨ y = { x with arrival := .stored } :=
  List.mem_or_eq_of_mem_set h

/-- **What recording comes to**: nothing, or the connection's snapshot
recorded. -/
theorem record_cases (c : Cluster N) (k : ℕ) (saves : Bool) :
    c.record k saves = c ∨
      ∃ x, c.receives[k]? = some x ∧ x.arrival = .stored ∧
        c.record k saves = (c.setAgent x.dst ((c.agents x.dst).setListener
          ((c.agents x.dst).listener.record saves x.header))).close k := by
  rw [record]
  split
  · rename_i src dst header hk
    exact Or.inr ⟨_, hk, rfl, rfl⟩
  · exact Or.inl rfl

theorem record_keeps (k : ℕ) (saves : Bool) (m : N) :
    ((c.record k saves).agents m).reconciler = (c.agents m).reconciler ∧
      ((c.record k saves).agents m).threads = (c.agents m).threads ∧
      ((c.record k saves).agents m).zfs = (c.agents m).zfs := by
  rcases c.record_cases k saves with heq | ⟨x, -, -, heq⟩
  · rw [heq]
    exact ⟨rfl, rfl, rfl⟩
  · rw [heq, close, agents_setAgent]
    split
    · rename_i h
      rw [h]
      exact ⟨rfl, rfl, rfl⟩
    · exact ⟨rfl, rfl, rfl⟩

theorem record_last_cases (k : ℕ) (saves : Bool) (m : N) (r : String) :
    (c.record k saves).last m r = c.last m r ∨
      ∃ x, c.receives[k]? = some x ∧ x.arrival = .stored ∧ x.dst = m ∧
        x.header.replicaName = r ∧ (c.record k saves).last m r = some x.header.snapshotId := by
  rcases c.record_cases k saves with heq | ⟨x, hk, hx, heq⟩
  · rw [heq]
    exact Or.inl rfl
  · rw [heq, last, close, agents_setAgent]
    split
    · rename_i h
      subst h
      refine ((c.agents x.dst).listener.record_last_cases saves x.header r).imp_right ?_
      rintro ⟨rfl, h⟩
      exact ⟨x, hk, hx, rfl, rfl, h⟩
    · exact Or.inl rfl

theorem record_savedLast_cases (k : ℕ) (saves : Bool) (m : N) (r : String) :
    (c.record k saves).savedLast m r = c.savedLast m r ∨
      ∃ x, c.receives[k]? = some x ∧ x.arrival = .stored ∧ x.dst = m ∧
        x.header.replicaName = r ∧ (c.record k saves).savedLast m r = some x.header.snapshotId ∧
        (c.record k saves).last m r = some x.header.snapshotId := by
  rcases c.record_cases k saves with heq | ⟨x, hk, hx, heq⟩
  · rw [heq]
    exact Or.inl rfl
  · rw [heq, savedLast, last, close, agents_setAgent]
    split
    · rename_i h
      subst h
      refine ((c.agents x.dst).listener.record_savedLast_cases saves x.header r).imp_right ?_
      rintro ⟨rfl, h⟩
      exact ⟨x, hk, hx, rfl, rfl, h⟩
    · exact Or.inl rfl

theorem mem_record {k : ℕ} {saves : Bool} {x : Receive N}
    (h : x ∈ (c.record k saves).receives) : x ∈ c.receives := by
  rcases c.record_cases k saves with heq | ⟨y, -, -, heq⟩
  · rwa [heq] at h
  · rw [heq] at h
    exact mem_close h

end Stream

/-! ## A command -/

/-- What a step does that is at most a command to an agent. -/
structure Commanded (c c' : Cluster N) : Prop where
  agents : ∀ n, Agent.Commanded (c.agents n) (c'.agents n)
  orphans : c'.orphans = c.orphans
  receives : c'.receives = c.receives

theorem commanded_setAgent {n : N} {a : Agentd} (h : Agent.Commanded (c.agents n) a) :
    Commanded c (c.setAgent n a) where
  agents m := by
    rw [agents_setAgent]
    split
    · rename_i hm
      rwa [hm]
    · exact .refl
  orphans := rfl
  receives := rfl

theorem commanded_assign (n : N) (podCidr : Option Ipv4Net) :
    Commanded c (c.setAgent n { c.agents n with podCidr }) :=
  commanded_setAgent
    ⟨rfl, rfl, rfl, fun _ => Or.inl, List.prefix_rfl, fun h => ⟨h.nodup, h.known⟩⟩

theorem commanded_forward [Ipnet] (c : Cluster N) (net : Net N) (m : Machine) (delivery : Delivery)
    (f : ControlPlane.Forward) : Commanded c (c.forward net m delivery f).2 := by
  rw [forward.eq_def]
  rcases net.http f.addr with _ | n
  · exact ⟨fun _ => .refl, rfl, rfl⟩
  · cases delivery with
    | delivered => exact commanded_setAgent (.handle m _ _)
    | lost message => exact ⟨fun _ => .refl, rfl, rfl⟩
    | unanswered message => exact commanded_setAgent (.handle m _ _)

/-- A handler of the control plane gets at most to an agent's commands. -/
theorem commanded_advance [Ipnet] (i : ℕ) (o : ControlPlane.Choice) (m : Machine)
    (delivery : Delivery) : Commanded c (c.advance net i o m delivery) := by
  rw [advance]
  split
  · exact ⟨fun _ => .refl, rfl, rfl⟩
  · exact ⟨fun _ => .refl, rfl, rfl⟩
  · exact ⟨fun _ => .refl, rfl, rfl⟩
  · rename_i f k _
    have hforward := c.commanded_forward net m delivery f
    exact ⟨hforward.agents, hforward.orphans, hforward.receives⟩

theorem forward_control [Ipnet] (c : Cluster N) (net : Net N) (m : Machine) (delivery : Delivery)
    (f : ControlPlane.Forward) :
    (c.forward net m delivery f).2.worker = c.worker ∧
      (c.forward net m delivery f).2.received = c.received ∧
      (c.forward net m delivery f).2.born = c.born ∧
      (c.forward net m delivery f).2.fresh = c.fresh := by
  rw [forward.eq_def]
  rcases net.http f.addr with _ | n
  · exact ⟨rfl, rfl, rfl, rfl⟩
  · cases delivery <;> exact ⟨rfl, rfl, rfl, rfl⟩

/-! ## A restart -/

theorem restart_agents (n m : N) :
    (c.restart net n).agents m = if m = n then (c.agents n).restart else c.agents m :=
  agents_setAgent ..

theorem mem_restart {n m : N} {t : Thread} (h : t ∈ ((c.restart net n).agents m).threads) :
    t ∈ (c.agents m).threads ∨ ∃ name, t = .spawned (c.agents m).pool name := by
  rw [restart_agents] at h
  split at h
  · rename_i hm
    subst hm
    exact Or.inr ((c.agents m).mem_restart h)
  · exact Or.inl h

theorem restart_last (n m : N) (r : String) :
    (c.restart net n).last m r = if m = n then c.savedLast m r else c.last m r := by
  rw [last, restart_agents]
  split
  · rename_i hm
    rw [(c.agents n).restart_commanded.targets, hm]
    rfl
  · rfl

@[simp] theorem restart_savedLast (n m : N) (r : String) :
    (c.restart net n).savedLast m r = c.savedLast m r := by
  rw [savedLast, restart_agents]
  split
  · rename_i hm
    rw [(c.agents n).restart_commanded.targets, hm]
    rfl
  · rfl

@[simp] theorem restart_stamp (n m : N) :
    ((c.restart net n).agents m).stamp = (c.agents m).stamp := by
  rw [restart_agents]
  split
  · rename_i hm
    rw [hm]
    exact Agentd.stamp_congr (c.agents n).restart_commanded.pool
      (c.agents n).restart_commanded.snapshots
  · rfl

omit [DecidableEq N] in
/-- An orphan is of a loop that waited for its answer. -/
theorem mem_waiting {n : N} {t : Thread} {o : Orphan N} (h : waiting net n t = some o) :
    ∃ addr, t.phase = .sending addr none ∧ net.replication addr = some o.dst ∧
      o = ⟨n, o.dst, t.loop.header⟩ := by
  rw [waiting] at h
  split at h
  · rename_i addr hphase
    obtain ⟨d, hd, rfl⟩ := Option.map_eq_some_iff.1 h
    exact ⟨addr, hphase, hd, rfl⟩
  · cases h

theorem mem_orphans_restart {n : N} {o : Orphan N} (h : o ∈ (c.restart net n).orphans) :
    o ∈ c.orphans ∨ ∃ t ∈ (c.agents n).threads, waiting net n t = some o := by
  rcases List.mem_append.1 h with h | h
  · exact Or.inl h
  · exact Or.inr (List.mem_filterMap.1 h)

/-- Nothing is under way to a restarted agent, and its own loops send
nothing more. -/
theorem mem_receives_restart {n : N} {x : Receive N} (h : x ∈ (c.restart net n).receives) :
    x.dst ≠ n ∧ ((x ∈ c.receives ∧ (x.src = n → ∀ i, x.arrival ≠ .awaited i)) ∨
      x.arrival = .cut) := by
  obtain ⟨y, hy, hx⟩ := List.mem_filterMap.1 h
  rw [Receive.afterRestart] at hx
  split at hx
  · cases hx
  · rename_i hdst
    split at hx
    · split at hx
      · cases hx
        exact ⟨hdst, Or.inr rfl⟩
      · rename_i hsrc
        cases hx
        exact ⟨hdst, Or.inl ⟨hy, fun h => absurd h hsrc⟩⟩
    · rename_i hawaited
      cases hx
      exact ⟨hdst, Or.inl ⟨hy, fun _ i hi => hawaited i hi⟩⟩

/-! ## The steps of a loop -/

/-- **What answering a loop comes to**: nothing, or an answer that the
loop is left with, or that it never gets. -/
theorem answer_cases (c : Cluster N) (net : Net N) (n : N) (i : ℕ) (saves : Bool)
    (peerAddr : String) :
    c.answer net n i saves peerAddr = c ∨
      ∃ loop addr d, (c.agents n).threads[i]? = some ⟨loop, .sending addr none⟩ ∧
        net.replication addr = some d ∧
        ∃ phase, c.answer net n i saves peerAddr =
            (c.listen ⟨n, d, loop.header⟩ (.awaited i) saves peerAddr).2.turn n i ⟨loop, phase⟩
              (c.agents n).zfs ∧
          (phase = .sleeping ∧
              (c.listen ⟨n, d, loop.header⟩ (.awaited i) saves peerAddr).1 = none ∨
            ∃ ack, (c.listen ⟨n, d, loop.header⟩ (.awaited i) saves peerAddr).1 = some ack ∧
              phase = .sending addr (some ack)) := by
  rw [answer]
  split
  · rename_i loop addr hi
    split
    · rename_i d hd
      refine Or.inr ⟨loop, addr, d, hi, hd, ?_⟩
      rcases hlisten : c.listen ⟨n, d, loop.header⟩ (.awaited i) saves peerAddr with ⟨ack, c'⟩
      have hc' : c' = (c.listen ⟨n, d, loop.header⟩ (.awaited i) saves peerAddr).2 := by
        rw [hlisten]
      have hi' : (c'.agents n).threads[i]? = some ⟨loop, .sending addr none⟩ := by
        rw [hc', listen_threads, hi]
      have hzfs : (c'.agents n).zfs = (c.agents n).zfs := by rw [hc', listen_zfs]
      cases ack with
      | none =>
        refine ⟨.sleeping, ?_, Or.inl ⟨rfl, rfl⟩⟩
        rw [← hzfs]
        exact conclude_turn n i hi' false .io
      | some ack =>
        refine ⟨.sending addr (some ack), ?_, Or.inr ⟨ack, rfl, rfl⟩⟩
        rw [← hzfs]
        rfl
    · exact Or.inl rfl
  · exact Or.inl rfl

theorem abandon_cases (c : Cluster N) (net : Net N) (n : N) (i : ℕ) :
    c.abandon net n i = c ∨
      ∃ loop addr ack, (c.agents n).threads[i]? = some ⟨loop, .sending addr ack⟩ ∧
        c.abandon net n i =
          { c.settle n i .cut with
            orphans := c.orphans ++ (waiting net n ⟨loop, .sending addr ack⟩).toList }.turn
              n i ⟨loop, .sleeping⟩ (c.agents n).zfs := by
  rw [abandon]
  split
  · rename_i loop addr ack hi
    refine Or.inr ⟨loop, addr, ack, hi, ?_⟩
    have hconclude := Agentd.conclude_eq (c.agents n) hi false .io
    simp only [conclude, turn, settle, hconclude]
    rfl
  · exact Or.inl rfl

/-- **What a loop makes of its answer**: its base is dropped if it was
told so; or the stream is sent, or cannot be, and the loop is done with
the tick. -/
theorem send_cases (c : Cluster N) (n : N) (i : ℕ) (sends arrives prunes : Bool) :
    c.send n i sends arrives prunes = c ∨
      ∃ loop addr ack, (c.agents n).threads[i]? = some ⟨loop, .sending addr (some ack)⟩ ∧
        (ack = .needFull ∧ c.send n i sends arrives prunes =
            c.turn n i ⟨{ loop with lastConfirmedSent := none }, .sleeping⟩ (c.agents n).zfs ∨
          ack = .proceed ∧ (c.send n i sends arrives prunes =
              (c.settle n i .cut).turn n i ⟨loop, .sleeping⟩ (c.agents n).zfs ∨
            ∃ stream arrival, loop.stream (c.agents n).zfs = some stream ∧
              (arrival = .arrived stream ∨ arrival = .cut) ∧
              c.send n i sends arrives prunes =
                (c.settle n i arrival).conclude n i prunes (if sends then .ok else .io))) := by
  rw [send]
  split
  · rename_i loop addr hi
    exact Or.inr ⟨loop, addr, .needFull, hi, Or.inl ⟨rfl, conclude_turn n i hi prunes .needFull⟩⟩
  · rename_i loop addr hi
    refine Or.inr ⟨loop, addr, .proceed, hi, Or.inr ⟨rfl, ?_⟩⟩
    split
    · have hi' : ((c.settle n i .cut).agents n).threads[i]? =
          some ⟨loop, .sending addr (some .proceed)⟩ := hi
      exact Or.inl (conclude_turn n i hi' prunes .io)
    · rename_i stream hstream
      refine Or.inr ⟨stream, if arrives then .arrived stream else .cut, hstream, ?_, rfl⟩
      cases arrives with
      | true => exact Or.inl rfl
      | false => exact Or.inr rfl
  · exact Or.inl rfl

/-! ## Answers -/

/-- A header that is answered is a waiting loop's, or an orphan's. -/
theorem mem_acknowledged {label : Label N} {x : Orphan N × Ack}
    (h : x ∈ c.acknowledged net label) :
    ((∃ n, ∃ t ∈ (c.agents n).threads, waiting net n t = some x.1) ∨ x.1 ∈ c.orphans) ∧
      ∃ arrival saves peerAddr, (c.listen x.1 arrival saves peerAddr).1 = some x.2 := by
  cases label with
  | answer n i saves peerAddr =>
    obtain ⟨o, ho, hack⟩ := Option.bind_eq_some_iff.1 h
    obtain ⟨t, ht, hwaiting⟩ := Option.bind_eq_some_iff.1 ho
    obtain ⟨ack, hlisten, rfl⟩ := Option.map_eq_some_iff.1 hack
    exact ⟨Or.inl ⟨n, t, List.mem_of_getElem? ht, hwaiting⟩, _, saves, peerAddr, hlisten⟩
  | answerOrphan k saves peerAddr =>
    obtain ⟨o, ho, hack⟩ := Option.bind_eq_some_iff.1 h
    obtain ⟨ack, hlisten, rfl⟩ := Option.map_eq_some_iff.1 hack
    exact ⟨Or.inr (List.mem_of_getElem? ho), _, saves, peerAddr, hlisten⟩
  | _ => cases h

omit [DecidableEq N] in
/-- A stream that is received is on a connection it came on. -/
theorem mem_stores {label : Label N} {x : Receive N} (h : x ∈ c.stores label) :
    x ∈ c.receives ∧ x.arrival ≠ .cut := by
  cases label with
  | receive k works =>
    obtain ⟨hk, hreceived⟩ := Option.filter_eq_some_iff.1 h
    refine ⟨List.mem_of_getElem? hk, fun hcut => ?_⟩
    rw [hcut] at hreceived
    cases hreceived
  | _ => cases h

/-! ## The control plane's part -/

/-- The other steps leave the tables and the handlers alone. -/
theorem step_control [Ipnet] (c : Cluster N) (net : Net N) {label : Label N}
    (h : label.control = false) :
    (c.step net label).worker = c.worker ∧ (c.step net label).handlers = c.handlers := by
  cases label with
  | serve => cases h
  | advance => cases h
  | ask => exact ⟨rfl, rfl⟩
  | timer => exact ⟨rfl, rfl⟩
  | assign => exact ⟨rfl, rfl⟩
  | wake => exact ⟨rfl, rfl⟩
  | exit => exact ⟨rfl, rfl⟩
  | answer n i saves peerAddr =>
    rcases c.answer_cases net n i saves peerAddr with heq | ⟨_, _, _, -, -, _, heq, -⟩
    · rw [step, heq]
      exact ⟨rfl, rfl⟩
    · rw [step, heq, listen_eq]
      exact ⟨rfl, rfl⟩
  | abandon n i =>
    rcases c.abandon_cases net n i with heq | ⟨_, _, _, -, heq⟩
    · rw [step, heq]
      exact ⟨rfl, rfl⟩
    · rw [step, heq]
      exact ⟨rfl, rfl⟩
  | send n i sends arrives prunes =>
    rcases c.send_cases n i sends arrives prunes with
      heq | ⟨_, _, _, -, ⟨-, heq⟩ | ⟨-, heq | ⟨_, _, -, -, heq⟩⟩⟩ <;>
    · rw [step, heq]
      exact ⟨rfl, rfl⟩
  | answerOrphan k saves peerAddr =>
    rw [step, answerOrphan]
    split
    · rw [listen_eq]
      exact ⟨rfl, rfl⟩
    · exact ⟨rfl, rfl⟩
  | receive k works =>
    rcases c.receive_cases k works with heq | heq | ⟨_, _, -, -, -, heq⟩ <;>
    · rw [step, heq]
      exact ⟨rfl, rfl⟩
  | record k saves =>
    rcases c.record_cases k saves with heq | ⟨_, -, -, heq⟩ <;>
    · rw [step, heq]
      exact ⟨rfl, rfl⟩
  | restart => exact ⟨rfl, rfl⟩

/-! ## What is awaited -/

/-- What a listener awaits is what a loop that read its yes, or is yet to
read it, is to send; and what has arrived is what the header said. -/
structure Linked (net : Net N) (c : Cluster N) : Prop where
  awaited : ∀ x ∈ c.receives, ∀ i, x.arrival = .awaited i → ∃ loop addr,
    (c.agents x.src).threads[i]? = some ⟨loop, .sending addr (some .proceed)⟩ ∧
      net.replication addr = some x.dst ∧ loop.header = x.header
  arrived : ∀ x ∈ c.receives, ∀ stream, x.arrival = .arrived stream →
    stream.snapshot = x.header.snapshotId ∧ stream.base = x.header.baseSnapshotId

namespace Linked

variable {c' : Cluster N}

omit [DecidableEq N] in
/-- A step that adds no stream, and leaves the loops whose streams are
awaited where they are. -/
theorem of_step (h : Linked net c)
    (hreceives : ∀ x ∈ c'.receives, x.arrival = .cut ∨ x.arrival = .stored ∨ x ∈ c.receives ∧
      ∀ i, x.arrival = .awaited i →
        (c'.agents x.src).threads[i]? = (c.agents x.src).threads[i]?) : Linked net c' where
  awaited x hx i hi := by
    rcases hreceives x hx with hcut | hstored | ⟨hold, hthreads⟩
    · exact absurd (hcut.symm.trans hi) nofun
    · exact absurd (hstored.symm.trans hi) nofun
    · rw [hthreads i hi]
      exact h.awaited x hold i hi
  arrived x hx stream hi := by
    rcases hreceives x hx with hcut | hstored | ⟨hold, -⟩
    · exact absurd (hcut.symm.trans hi) nofun
    · exact absurd (hstored.symm.trans hi) nofun
    · exact h.arrived x hold stream hi

omit [DecidableEq N] in
theorem commanded (h : Linked net c) (hcommanded : Commanded c c') : Linked net c' := by
  refine h.of_step fun x hx => Or.inr (Or.inr ⟨hcommanded.receives ▸ hx, fun i hi => ?_⟩)
  obtain ⟨loop, addr, hthread, -⟩ := h.awaited x (hcommanded.receives ▸ hx) i hi
  rw [hthread]
  obtain ⟨rest, hrest⟩ := (hcommanded.agents x.src).kept
  rw [← hrest, List.getElem?_append_left (List.getElem?_eq_some_iff.1 hthread).1, hthread]

/-- A turn of a loop no stream of which is awaited. -/
theorem turn (h : Linked net c) {n : N} {i : ℕ} {t : Thread} {zfs : FakeZfsManager}
    (hnone : ∀ x ∈ c.receives, x.src = n → x.arrival ≠ .awaited i) :
    Linked net (c.turn n i t zfs) := by
  refine h.of_step fun x hx => Or.inr (Or.inr ⟨hx, fun j hj => ?_⟩)
  rw [Cluster.turn, agents_setAgent]
  split
  · rename_i hsrc
    have hij : i ≠ j := by
      rintro rfl
      exact hnone x hx hsrc hj
    rw [hsrc]
    exact List.getElem?_set_ne hij
  · rfl

omit [DecidableEq N] in
theorem not_awaited (h : Linked net c) {n : N} {i : ℕ} {t : Thread}
    (hi : (c.agents n).threads[i]? = some t) (hack : t.ack? ≠ some .proceed) :
    ∀ x ∈ c.receives, x.src = n → x.arrival ≠ .awaited i := by
  rintro x hx rfl hawaited
  obtain ⟨loop, addr, hthread, -⟩ := h.awaited x hx i hawaited
  rw [hthread] at hi
  cases hi
  exact hack rfl

/-- A loop that is done with a tick. -/
theorem settle (h : Linked net c) (n : N) (i : ℕ) (arrival : Arrival)
    (harrival : ∀ x ∈ c.receives, x.src = n → x.arrival = .awaited i → ∀ stream,
      arrival = .arrived stream →
        stream.snapshot = x.header.snapshotId ∧ stream.base = x.header.baseSnapshotId)
    (hover : ∀ j, arrival ≠ .awaited j) :
    Linked net (c.settle n i arrival) ∧
      ∀ x ∈ (c.settle n i arrival).receives, x.src = n → x.arrival ≠ .awaited i := by
  refine ⟨⟨fun x hx j hj => ?_, fun x hx stream hstream => ?_⟩, fun x hx hsrc hi => ?_⟩
  · rcases mem_settle hx with ⟨hx, -⟩ | ⟨y, -, -, -, rfl⟩
    · exact h.awaited x hx j hj
    · exact absurd hj (hover j)
  · rcases mem_settle hx with ⟨hx, -⟩ | ⟨y, hy, hsrc, hi, rfl⟩
    · exact h.arrived x hx stream hstream
    · exact harrival y hy hsrc hi stream hstream
  · rcases mem_settle hx with ⟨-, hnot⟩ | ⟨y, -, -, -, rfl⟩
    · exact hnot ⟨hsrc, hi⟩
    · exact hover i hi

omit [DecidableEq N] in
/-- What has been sent is what the header that was answered said. -/
theorem of_stream (h : Linked net c) {n : N} {i : ℕ} {loop : ReplicationLoop} {phase : ThreadPhase}
    {stream : SendStream} {zfs : FakeZfsManager}
    (hi : (c.agents n).threads[i]? = some ⟨loop, phase⟩)
    (hstream : loop.stream zfs = some stream) : ∀ x ∈ c.receives, x.src = n →
      x.arrival = .awaited i →
        stream.snapshot = x.header.snapshotId ∧ stream.base = x.header.baseSnapshotId := by
  rintro x hx rfl hawaited
  obtain ⟨loop', addr, hthread, -, hheader⟩ := h.awaited x hx i hawaited
  rw [hthread] at hi
  cases hi
  rw [← hheader]
  exact ReplicationLoop.stream_eq hstream

theorem answer (h : Linked net c) (n : N) (i : ℕ) (saves : Bool) (peerAddr : String) :
    Linked net (c.answer net n i saves peerAddr) := by
  rcases c.answer_cases net n i saves peerAddr with
    heq | ⟨loop, addr, d, hi, hd, phase, heq, hphase⟩
  · rw [heq]
    exact h
  have hnone := h.not_awaited hi nofun
  rw [heq]
  refine ⟨fun x hx j hj => ?_, fun x hx stream hstream => ?_⟩
  · rcases mem_listen _ _ _ _ hx with hx | ⟨rfl, hyes⟩
    · obtain ⟨loop', addr', hthread, hrest⟩ := h.awaited x hx j hj
      refine ⟨loop', addr', ?_, hrest⟩
      rw [Cluster.turn, agents_setAgent]
      split
      · rename_i hsrc
        have hij : i ≠ j := by
          rintro rfl
          exact hnone x hx hsrc hj
        rw [← hthread, hsrc, ← listen_threads (c := c) ⟨n, d, loop.header⟩ (.awaited i) n saves
          peerAddr]
        exact List.getElem?_set_ne hij
      · rw [listen_threads, hthread]
    · -- The connection just opened, awaiting this very loop.
      cases hj
      rcases hphase with ⟨-, hno⟩ | ⟨ack, hack, rfl⟩
      · rw [hyes] at hno
        cases hno
      · rw [hyes] at hack
        cases hack
        refine ⟨loop, addr, ?_, hd, rfl⟩
        rw [Cluster.turn, agents_setAgent, if_pos rfl]
        refine List.getElem?_set_self ?_
        rw [listen_threads]
        exact (List.getElem?_eq_some_iff.1 hi).1
  · rcases mem_listen _ _ _ _ hx with hx | ⟨rfl, -⟩
    · exact h.arrived x hx stream hstream
    · cases hstream

/-- **What is awaited stays linked**, whatever the step. -/
theorem step [Ipnet] (h : Linked net c) (label : Label N) : Linked net (c.step net label) := by
  cases label with
  | serve request => exact h.commanded ⟨fun _ => .refl, rfl, rfl⟩
  | advance i o m delivery => exact h.commanded (commanded_advance ..)
  | ask n m request => exact h.commanded (commanded_setAgent (.handle m request _))
  | timer n m => exact h.commanded (commanded_setAgent (.handleCommand m .tick _))
  | assign n podCidr => exact h.commanded (commanded_assign n podCidr)
  | wake n i snapshots connects =>
    have hwake : Linked net (c.setAgent n ((c.agents n).wake i snapshots connects c.fresh)) := by
      rcases (c.agents n).wake_cases i snapshots connects c.fresh with
        heq | ⟨loop, zfs, phase, hi, heq, -⟩
      · rw [heq, setAgent, Function.update_eq_self]
        exact h
      · rw [heq]
        exact h.turn (h.not_awaited hi nofun)
    exact ⟨hwake.awaited, hwake.arrived⟩
  | exit n i =>
    rcases (c.agents n).exit_cases i with heq | ⟨loop, hi, heq⟩
    · rw [Cluster.step, heq, setAgent, Function.update_eq_self]
      exact h
    · rw [Cluster.step, heq]
      change Linked net (c.turn n i ⟨loop, .exited⟩ (c.agents n).zfs)
      exact h.turn (h.not_awaited hi nofun)
  | answer n i saves peerAddr => exact h.answer n i saves peerAddr
  | abandon n i =>
    rcases c.abandon_cases net n i with heq | ⟨loop, addr, ack, hi, heq⟩
    · rw [Cluster.step, heq]
      exact h
    · rw [Cluster.step, heq]
      obtain ⟨hsettled, hnone⟩ := h.settle n i .cut
        (fun _ _ _ _ _ h => by cases h) nofun
      have horphaned : Linked net { c.settle n i .cut with
          orphans := c.orphans ++ (waiting net n ⟨loop, .sending addr ack⟩).toList } :=
        ⟨hsettled.awaited, hsettled.arrived⟩
      exact horphaned.turn hnone
  | send n i sends arrives prunes =>
    rcases c.send_cases n i sends arrives prunes with
      heq | ⟨loop, addr, ack, hi, ⟨rfl, heq⟩ | ⟨rfl, heq |
        ⟨stream, arrival, hstream, harrival, heq⟩⟩⟩
    · rw [Cluster.step, heq]
      exact h
    · rw [Cluster.step, heq]
      exact h.turn (h.not_awaited hi nofun)
    · rw [Cluster.step, heq]
      obtain ⟨hsettled, hnone⟩ := h.settle n i .cut
        (fun _ _ _ _ _ h => by cases h) nofun
      exact hsettled.turn hnone
    · have hi' : ((c.settle n i arrival).agents n).threads[i]? =
          some ⟨loop, .sending addr (some .proceed)⟩ := hi
      obtain ⟨hsettled, hnone⟩ := h.settle n i arrival
        (fun x hx hsrc hawaited stream' h' => by
          rcases harrival with rfl | rfl
          · cases h'
            exact h.of_stream hi hstream x hx hsrc hawaited
          · cases h')
        (by rcases harrival with rfl | rfl <;> nofun)
      rw [Cluster.step, heq, conclude_turn n i hi']
      exact hsettled.turn hnone
  | answerOrphan k saves peerAddr =>
    rw [Cluster.step, answerOrphan]
    split
    · refine h.of_step fun x hx => ?_
      rcases mem_listen _ _ _ _ hx with hx | ⟨rfl, -⟩
      · exact Or.inr (Or.inr ⟨hx, fun i _ => by simp only [listen_threads]⟩)
      · exact Or.inl rfl
    · exact h
  | receive k works =>
    rcases c.receive_cases k works with heq | heq | ⟨y, stream, -, -, -, heq⟩
    · rw [Cluster.step, heq]
      exact h
    · rw [Cluster.step, heq]
      exact h.of_step fun x hx => Or.inr (Or.inr ⟨mem_close hx, fun _ _ => rfl⟩)
    · rw [Cluster.step, heq]
      refine h.of_step fun x hx => ?_
      rcases mem_stored hx with hx | rfl
      · exact Or.inr (Or.inr ⟨hx, fun i _ => by rw [(stored_keeps ..).2.1]⟩)
      · exact Or.inr (Or.inl rfl)
  | record k saves =>
    refine h.of_step fun x hx => Or.inr (Or.inr ⟨mem_record hx, fun i _ => ?_⟩)
    rw [Cluster.step, (record_keeps ..).2.1]
  | restart n =>
    refine h.of_step fun x hx => ?_
    obtain ⟨-, ⟨hx, hawaited⟩ | hcut⟩ := mem_receives_restart hx
    · refine Or.inr (Or.inr ⟨hx, fun i hi => ?_⟩)
      rw [Cluster.step, restart_agents, if_neg fun hsrc => hawaited hsrc i hi]
    · exact Or.inl hcut

end Linked

/-! ## Along a run -/

variable [Ipnet]

/-- Every step of a run is of a kind. -/
def Along (net : Net N) (P : Cluster N → Label N → Prop) : Cluster N → List (Label N) → Prop
  | _, [] => True
  | c, label :: labels => P c label ∧ Along net P (c.step net label) labels

instance decidableAlong (net : Net N) (P : Cluster N → Label N → Prop)
    [∀ c label, Decidable (P c label)] :
    ∀ (c : Cluster N) (labels : List (Label N)), Decidable (Along net P c labels)
  | _, [] => .isTrue trivial
  | c, label :: labels =>
    have := decidableAlong net P (c.step net label) labels
    inferInstanceAs (Decidable (_ ∧ _))

section Invariant

variable {Inv : Cluster N → Prop} {P Q : Cluster N → Label N → Prop} {labels : List (Label N)}

/-- **An invariant kept by steps of a kind** holds after a run of them. -/
theorem Along.invariant (hstep : ∀ c label, Inv c → P c label → Inv (c.step net label))
    (h : Along net P c labels) (hc : Inv c) : Inv (c.run net labels) := by
  induction labels generalizing c with
  | nil => exact hc
  | cons label labels ih => exact ih h.2 (hstep c label hc h.1)

/-- And what it says of a step holds all along it. -/
theorem Along.imp (hstep : ∀ c label, Inv c → P c label → Inv (c.step net label))
    (himp : ∀ c label, Inv c → Q c label) (h : Along net P c labels) (hc : Inv c) :
    Along net Q c labels := by
  induction labels generalizing c with
  | nil => trivial
  | cons label labels ih => exact ⟨himp c label hc, ih h.2 (hstep c label hc h.1)⟩

end Invariant

end Cluster

end Keel
