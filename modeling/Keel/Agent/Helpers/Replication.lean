import Keel.Common.Text
import Keel.Agent.Model.Replication
/-!
# What each end of a stream knows

The last snapshot a standby has recorded, in memory and on disk, and the
snapshots a dataset holds, after each step of either end.
-/

namespace Keel

namespace Agent

/-! ## Snapshots -/

namespace FakeZfsManager

/-- The dataset holds a snapshot of this name. -/
def Holds (z : FakeZfsManager) (dataset name : String) : Prop := (dataset, name) ∈ z.snapshots

instance (z : FakeZfsManager) (dataset name : String) : Decidable (z.Holds dataset name) :=
  inferInstanceAs (Decidable (_ ∈ _))

variable {z : FakeZfsManager} {dataset name name' : String}

theorem holds_store (stream : SendStream) :
    (z.store dataset stream).Holds dataset name ↔
      name = stream.snapshot ∨ z.Holds dataset name := by
  simp only [Holds, store, AList.mem_insert, Prod.mk.injEq, true_and]

theorem holds_store_of_holds {dataset' : String} (stream : SendStream)
    (h : z.Holds dataset name) : (z.store dataset' stream).Holds dataset name :=
  (AList.mem_insert _).2 (Or.inr h)

/-- A stream is received exactly if it is whole and its base is there. -/
theorem receiveSnapshot_ok {input : Option SendStream} {z' : FakeZfsManager}
    (h : z.receiveSnapshot dataset input = (.ok (), z')) :
    ∃ stream, input = some stream ∧ (∀ b ∈ stream.base, z.Holds dataset b) ∧
      z' = z.store dataset stream := by
  cases input with
  | none => cases h
  | some stream =>
    refine ⟨stream, rfl, ?_⟩
    simp only [receiveSnapshot] at h
    split at h
    · rename_i b hbase
      split at h
      · rename_i hb
        rw [hbase]
        refine ⟨?_, (Prod.mk.inj h).2.symm⟩
        rintro _ ⟨⟩
        exact hb
      · cases (Prod.mk.inj h).1
    · rename_i hbase
      rw [hbase]
      exact ⟨by rintro _ ⟨⟩, (Prod.mk.inj h).2.symm⟩

theorem lookup_destroySnapshot (z : FakeZfsManager) (dataset name : String)
    (k : String × String) :
    (z.destroySnapshot dataset name).2.snapshots.lookup k =
      if k = (dataset, name) then none else z.snapshots.lookup k := by
  rw [destroySnapshot]
  split
  · split
    · rename_i h
      rw [h]
      exact AList.lookup_erase _ _
    · rename_i h
      exact AList.lookup_erase_ne h
  · rename_i hmem
    split
    · rename_i h
      rw [h]
      exact AList.lookup_eq_none.2 hmem
    · rfl

theorem holds_destroySnapshot : (z.destroySnapshot dataset name).2.Holds dataset name' ↔
    z.Holds dataset name' ∧ name' ≠ name := by
  rw [Holds, Holds, ← AList.lookup_isSome, ← AList.lookup_isSome, lookup_destroySnapshot]
  by_cases h : name' = name
  · rw [if_pos (by rw [h])]
    exact iff_of_false Bool.false_ne_true fun h' => h'.2 h
  · rw [if_neg fun hkey => h (Prod.mk.inj hkey).2, and_iff_left h]

theorem destroySnapshot_datasets :
    (z.destroySnapshot dataset name).2.datasets = z.datasets := by
  rw [destroySnapshot]
  split
  · rfl
  · rfl

/-- Snapshots outlive their dataset. -/
theorem destroyDataset_snapshots (z : FakeZfsManager) (dataset : String) :
    (z.destroyDataset dataset).2.snapshots = z.snapshots := by
  rw [destroyDataset]
  split
  · rfl
  · split <;> rfl

theorem receiveSnapshot_of_base {stream : SendStream}
    (h : ∀ b ∈ stream.base, z.Holds dataset b) :
    z.receiveSnapshot dataset (some stream) = (.ok (), z.store dataset stream) := by
  simp only [receiveSnapshot]
  split
  · rename_i b hbase
    exact if_pos (h b hbase)
  · rfl

theorem receiveSnapshot_error {input : Option SendStream} {e : ZfsError} {z' : FakeZfsManager}
    (h : z.receiveSnapshot dataset input = (.error e, z')) : z' = z := by
  simp only [receiveSnapshot] at h
  split at h
  · exact (Prod.mk.inj h).2.symm
  · split at h
    · split at h
      · cases (Prod.mk.inj h).1
      · exact (Prod.mk.inj h).2.symm
    · cases (Prod.mk.inj h).1

end FakeZfsManager

/-! ## The targets of a standby -/

namespace ReplicaTargetRegistry

/-- The last snapshot recorded for a replica. -/
def last (t : ReplicaTargetRegistry) (r : String) : Option String :=
  (t.byName.lookup r).bind ReplicaTarget.lastSnapshot

/-- The same, as it is on disk. -/
def savedLast (t : ReplicaTargetRegistry) (r : String) : Option String :=
  (t.saved.lookup r).bind ReplicaTarget.lastSnapshot

variable (t : ReplicaTargetRegistry) (saved : Bool) (r r' dataset addr id : String)

/-- Contact with a replica's primary records no snapshot. -/
@[simp] theorem last_ensure : (t.ensure saved r dataset addr).2.last r' = t.last r' := by
  have hby : (t.ensure saved r dataset addr).2.byName.lookup r' =
      if r' = r then
        some { (t.byName.lookup r).getD ⟨r, dataset, addr, none⟩ with sourceNodeAddr := addr }
      else t.byName.lookup r' := by
    rw [ensure]
    cases saved <;> exact Table.lookup_insert_eq _ _ _ _
  simp only [last, hby]
  split
  · rename_i h
    rw [h]
    cases t.byName.lookup r <;> rfl
  · rfl

/-- It saves what is in memory, if it saves. -/
theorem savedLast_ensure :
    (t.ensure saved r dataset addr).2.savedLast r' =
      if saved = true ∧ r' = r then t.last r else t.savedLast r' := by
  cases saved with
  | false => simp [ensure, savedLast]
  | true =>
    simp only [ensure, savedLast, Table.lookup_insert_eq, true_and, if_true]
    split
    · rw [last]
      cases t.byName.lookup r <;> rfl
    · rfl

/-- What is answered is what is in memory. -/
theorem ensure_eq :
    (t.ensure saved r dataset addr).1.toOption.map ReplicaTarget.lastSnapshot =
      if saved then some (t.last r) else none := by
  cases saved with
  | false => rfl
  | true =>
    simp only [ensure, last, if_true, Except.toOption, Option.map_some]
    cases t.byName.lookup r <;> rfl

/-- There is a target for the replica from then on. -/
theorem mem_ensure : r ∈ (t.ensure saved r dataset addr).2.byName := by
  rw [ensure]
  cases saved <;> exact (AList.mem_insert _).2 (Or.inl rfl)

theorem mem_ensure_of_mem (h : r' ∈ t.byName) :
    r' ∈ (t.ensure saved r dataset addr).2.byName := by
  rw [ensure]
  cases saved <;> exact (AList.mem_insert _).2 (Or.inr h)

/-- A snapshot is recorded for a replica there is a target for. -/
theorem last_recordSnapshot (h : r ∈ t.byName) :
    (t.recordSnapshot saved r id).2.last r' = if r' = r then some id else t.last r' := by
  obtain ⟨known, hknown⟩ := Table.exists_of_mem h
  simp only [recordSnapshot, hknown, last]
  have hby : ∀ target : ReplicaTarget,
      ((t.byName.insert r target).lookup r').bind ReplicaTarget.lastSnapshot =
        if r' = r then target.lastSnapshot
        else (t.byName.lookup r').bind ReplicaTarget.lastSnapshot := by
    intro target
    rw [Table.lookup_insert_eq]
    split <;> rfl
  cases saved <;> exact hby _

theorem mem_recordSnapshot_of_mem (h : r' ∈ t.byName) :
    r' ∈ (t.recordSnapshot saved r id).2.byName := by
  rw [recordSnapshot]
  split
  · exact h
  · cases saved <;> exact (AList.mem_insert _).2 (Or.inr h)

theorem savedLast_recordSnapshot (h : r ∈ t.byName) :
    (t.recordSnapshot saved r id).2.savedLast r' =
      if saved = true ∧ r' = r then some id else t.savedLast r' := by
  obtain ⟨known, hknown⟩ := Table.exists_of_mem h
  simp only [recordSnapshot, hknown, savedLast]
  cases saved with
  | false => simp
  | true =>
    simp only [if_true, Table.lookup_insert_eq, true_and]
    split <;> rfl

@[simp] theorem last_load (s : Table ReplicaTarget) (r : String) :
    (load s).last r = (s.lookup r).bind ReplicaTarget.lastSnapshot := rfl

@[simp] theorem savedLast_load (s : Table ReplicaTarget) (r : String) :
    (load s).savedLast r = (s.lookup r).bind ReplicaTarget.lastSnapshot := rfl

end ReplicaTargetRegistry

/-! ## The listener -/

namespace Listener

variable (l : Listener) (saved works : Bool) (header : Header) (addr r : String)
  (input : Option SendStream)

/-- **The acknowledgement.** Proceed, exactly if the base is the snapshot
last recorded. -/
theorem answer_ack :
    (l.answer saved header addr).1 =
      if saved then
        some (if header.baseSnapshotId = l.targets.last header.replicaName then .proceed
          else .needFull)
      else none := by
  have h := l.targets.ensure_eq saved header.replicaName (l.dataset header.replicaName) addr
  rw [answer]
  rcases hensure : l.targets.ensure saved header.replicaName (l.dataset header.replicaName) addr
    with ⟨_ | target, targets⟩
  · rw [hensure] at h
    cases saved with
    | false => rfl
    | true => cases h
  · rw [hensure] at h
    cases saved with
    | false => cases h
    | true =>
      have htarget : target.lastSnapshot = l.targets.last header.replicaName := by
        simpa [Except.toOption] using h
      simp only [htarget, ne_eq, ite_not, if_true]

theorem answer_targets :
    (l.answer saved header addr).2.targets =
      (l.targets.ensure saved header.replicaName (l.dataset header.replicaName) addr).2 := by
  rw [answer]
  split <;> (rename_i h; rw [h])

@[simp] theorem answer_zfs : (l.answer saved header addr).2.zfs = l.zfs := by
  rw [answer]
  split <;> rfl

@[simp] theorem answer_pool : (l.answer saved header addr).2.pool = l.pool := by
  rw [answer]
  split <;> rfl

@[simp] theorem answer_last : (l.answer saved header addr).2.targets.last r = l.targets.last r := by
  rw [answer_targets, ReplicaTargetRegistry.last_ensure]

/-- There is a target for the replica from then on. -/
theorem answer_mem : header.replicaName ∈ (l.answer saved header addr).2.targets.byName := by
  rw [answer_targets]
  exact ReplicaTargetRegistry.mem_ensure ..

@[simp] theorem receive_targets : (l.receive works header input).2.targets = l.targets := by
  rw [receive]
  split
  · split <;> rfl
  · rfl

@[simp] theorem receive_pool : (l.receive works header input).2.pool = l.pool := by
  rw [receive]
  split
  · split <;> rfl
  · rfl

/-- **A stream is received** exactly if it came whole, `zfs receive`
works and its base is there; and then it is stored. -/
theorem receive_eq_true (h : (l.receive works header input).1 = true) :
    ∃ stream, input = some stream ∧
      (l.receive works header input).2.zfs =
        l.zfs.store (l.dataset header.replicaName) stream := by
  cases works with
  | false => cases h
  | true =>
    simp only [receive, if_true] at h ⊢
    rcases hreceive : l.zfs.receiveSnapshot (l.dataset header.replicaName) input with
      ⟨_ | ⟨⟩, zfs⟩
    · rw [hreceive] at h
      cases h
    · obtain ⟨stream, hinput, -, hstore⟩ := FakeZfsManager.receiveSnapshot_ok hreceive
      exact ⟨stream, hinput, hstore⟩

theorem receive_zfs_of_false (h : (l.receive works header input).1 = false) :
    (l.receive works header input).2.zfs = l.zfs := by
  cases works with
  | false => rfl
  | true =>
    simp only [receive, if_true] at h ⊢
    rcases hreceive : l.zfs.receiveSnapshot (l.dataset header.replicaName) input with
      ⟨_ | ⟨⟩, zfs⟩
    · exact FakeZfsManager.receiveSnapshot_error hreceive
    · rw [hreceive] at h
      cases h

theorem receive_of_base {stream : SendStream}
    (h : ∀ b ∈ stream.base, l.zfs.Holds (l.dataset header.replicaName) b) :
    l.receive true header (some stream) =
      (true, { l with zfs := l.zfs.store (l.dataset header.replicaName) stream }) := by
  rw [receive, FakeZfsManager.receiveSnapshot_of_base h]
  rfl

@[simp] theorem record_zfs : (l.record saved header).zfs = l.zfs := rfl

@[simp] theorem record_pool : (l.record saved header).pool = l.pool := rfl

theorem record_last (h : header.replicaName ∈ l.targets.byName) :
    (l.record saved header).targets.last r =
      if r = header.replicaName then some header.snapshotId else l.targets.last r :=
  l.targets.last_recordSnapshot saved _ r header.snapshotId h

theorem record_savedLast (h : header.replicaName ∈ l.targets.byName) :
    (l.record saved header).targets.savedLast r =
      if saved = true ∧ r = header.replicaName then some header.snapshotId
      else l.targets.savedLast r :=
  l.targets.savedLast_recordSnapshot saved _ r header.snapshotId h

end Listener

/-! ## The loop -/

theorem snapshotId_inj {i j : ℕ} (h : snapshotId i = snapshotId j) : i = j :=
  toString_inj.1 ((String.append_right_inj _).1 h)

namespace ReplicationLoop

variable {loop : ReplicationLoop} {works : Bool} {fresh : Stamp} {zfs zfs' : FakeZfsManager}

/-- A snapshot that works finds the volume, and is there afterwards. -/
theorem takeSnapshot_true (h : loop.takeSnapshot works fresh zfs = (true, zfs')) :
    loop.dataset ∈ zfs.datasets ∧ zfs'.datasets = zfs.datasets ∧
      zfs'.Holds loop.dataset (snapshotId loop.tick) := by
  rw [takeSnapshot] at h
  split at h
  · rw [FakeZfsManager.snapshot] at h
    by_cases hmem : loop.dataset ∈ zfs.datasets
    · rw [if_pos hmem] at h
      obtain ⟨-, rfl⟩ := Prod.mk.inj h
      refine ⟨hmem, ?_⟩
      split
      · rename_i hholds
        exact ⟨rfl, hholds⟩
      · exact ⟨rfl, (AList.mem_insert _).2 (Or.inl rfl)⟩
    · rw [if_neg hmem] at h
      cases h
  · cases h

theorem takeSnapshot_datasets :
    (loop.takeSnapshot works fresh zfs).2.datasets = zfs.datasets := by
  rw [takeSnapshot, FakeZfsManager.snapshot]
  split
  · split
    · rename_i h
      split at h
      · obtain ⟨-, rfl⟩ := Prod.mk.inj h
        split <;> rfl
      · cases h
    · rename_i h
      split at h
      · cases h
      · exact (Prod.mk.inj h).2 ▸ rfl
  · rfl

/-- A volume that is there can be snapshotted. -/
theorem takeSnapshot_of_dataset (h : loop.dataset ∈ zfs.datasets) :
    ∃ zfs', loop.takeSnapshot true fresh zfs = (true, zfs') := by
  simp only [takeSnapshot, FakeZfsManager.snapshot, if_true, if_pos h]
  exact ⟨_, rfl⟩

/-- It then holds this tick's snapshot beside those it held. -/
theorem takeSnapshot_holds (loop : ReplicationLoop) (fresh : Stamp)
    (h : loop.dataset ∈ zfs.datasets) :
    ∃ zfs', loop.takeSnapshot true fresh zfs = (true, zfs') ∧ zfs'.datasets = zfs.datasets ∧
      ∀ name, zfs'.Holds loop.dataset name ↔
        name = snapshotId loop.tick ∨ zfs.Holds loop.dataset name := by
  simp only [takeSnapshot, FakeZfsManager.snapshot, if_true, if_pos h]
  refine ⟨_, rfl, ?_, fun name => ?_⟩
  · split
    · rfl
    · rfl
  · split
    · rename_i hheld
      refine (or_iff_right_of_imp ?_).symm
      rintro rfl
      exact hheld
    · simp only [FakeZfsManager.Holds, AList.mem_insert, Prod.mk.injEq, true_and]

/-- A stream is of this tick's snapshot, on the base the loop has. -/
theorem stream_eq {stream : SendStream} (h : loop.stream zfs = some stream) :
    stream.snapshot = snapshotId loop.tick ∧ stream.base = loop.lastConfirmedSent := by
  simp only [ReplicationLoop.stream, FakeZfsManager.sendSnapshot] at h
  split at h
  · cases h
  · split at h
    · rename_i hbase
      rw [hbase]
      cases h
      exact ⟨rfl, rfl⟩
    · rename_i b hbase
      rw [hbase]
      split at h
      · cases h
        exact ⟨rfl, rfl⟩
      · cases h

/-- A loop whose snapshot and base are there has a stream to send. -/
theorem isSome_stream (h : zfs.Holds loop.dataset (snapshotId loop.tick))
    (hbase : ∀ b, loop.lastConfirmedSent = some b → zfs.Holds loop.dataset b) :
    (loop.stream zfs).isSome = true := by
  obtain ⟨stamp, hstamp⟩ := Option.isSome_iff_exists.1 (AList.lookup_isSome.2 h)
  simp only [stream, FakeZfsManager.sendSnapshot, hstamp]
  cases hlast : loop.lastConfirmedSent with
  | none => rfl
  | some b =>
    have hb : (loop.dataset, b) ∈ zfs.snapshots := hbase b hlast
    simp only [if_pos hb]
    rfl

/-- A loop with no base sends the whole snapshot. -/
theorem stream_of_base (hbase : loop.lastConfirmedSent = none)
    (h : zfs.Holds loop.dataset (snapshotId loop.tick)) :
    ∃ stream, loop.stream zfs = some stream ∧ stream.base = none := by
  obtain ⟨stamp, hstamp⟩ := Option.isSome_iff_exists.1 (AList.lookup_isSome.2 h)
  refine ⟨⟨snapshotId loop.tick, none, stamp⟩, ?_, rfl⟩
  simp only [stream, FakeZfsManager.sendSnapshot, hstamp, hbase, Except.toOption]

/-- A pruning that works takes the base away, and nothing else. -/
theorem holds_conclude (result : SendOnce) (name : String) :
    (loop.conclude true result zfs).2.Holds loop.dataset name ↔
      zfs.Holds loop.dataset name ∧ (result = .ok → loop.lastConfirmedSent ≠ some name) := by
  cases result with
  | ok =>
    simp only [conclude, forall_true_left]
    cases loop.lastConfirmedSent with
    | none => exact (and_iff_left (Option.some_ne_none name).symm).symm
    | some previous =>
      simp only [if_true]
      rw [FakeZfsManager.holds_destroySnapshot, ne_eq, ne_eq, Option.some.injEq, eq_comm]
  | needFull => exact (and_iff_left fun h => by cases h).symm
  | io => exact (and_iff_left fun h => by cases h).symm

theorem conclude_datasets (pruned : Bool) (result : SendOnce) :
    (loop.conclude pruned result zfs).2.datasets = zfs.datasets := by
  cases result with
  | ok =>
    simp only [conclude]
    split
    · split
      · exact FakeZfsManager.destroySnapshot_datasets
      · rfl
    · rfl
  | needFull => rfl
  | io => rfl

theorem conclude_loop (pruned : Bool) (result : SendOnce) :
    ∃ last, (loop.conclude pruned result zfs).1 = { loop with lastConfirmedSent := last } ∧
      (result = .ok → last = some (snapshotId loop.tick)) ∧
      (result ≠ .ok → last = none ∨ last = loop.lastConfirmedSent) := by
  cases result with
  | ok => exact ⟨_, rfl, fun _ => rfl, fun h => absurd rfl h⟩
  | needFull => exact ⟨_, rfl, fun h => (by cases h), fun _ => Or.inl rfl⟩
  | io => exact ⟨_, rfl, fun h => (by cases h), fun _ => Or.inr rfl⟩

end ReplicationLoop

end Agent

end Keel
