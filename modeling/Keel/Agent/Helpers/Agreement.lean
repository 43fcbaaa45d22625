import Mathlib.Data.Set.Basic
import Keel.Agent.Helpers.Replication
import Keel.Agent.Model.Worker
/-!
# What replication sees of ZFS

Two states of a node's ZFS that agree on some datasets: the same of them
are there, with the same snapshots, and the same are busy. An operation on
one of these datasets comes to the same in both and leaves them agreeing;
one on any other dataset does not matter. So a loop's turn, and what the
listener does, depend on the volumes alone.
-/

namespace Keel

namespace Agent

namespace FakeZfsManager

/-- The same, as far as some datasets go. -/
structure AgreeOn (S : Set String) (z z' : FakeZfsManager) : Prop where
  datasets : ∀ d ∈ S, (d ∈ z.datasets ↔ d ∈ z'.datasets)
  snapshots : ∀ d ∈ S, ∀ name, z.snapshots.lookup (d, name) = z'.snapshots.lookup (d, name)
  busy : ∀ d ∈ S, (d ∈ z.busy ↔ d ∈ z'.busy)

variable {S : Set String} {z z' z'' : FakeZfsManager} {d name : String}

theorem AgreeOn.refl (S : Set String) (z : FakeZfsManager) : z.AgreeOn S z :=
  ⟨fun _ _ => Iff.rfl, fun _ _ _ => rfl, fun _ _ => Iff.rfl⟩

theorem AgreeOn.trans (h : z.AgreeOn S z') (h' : z'.AgreeOn S z'') : z.AgreeOn S z'' :=
  ⟨fun d hd => (h.datasets d hd).trans (h'.datasets d hd),
    fun d hd name => (h.snapshots d hd name).trans (h'.snapshots d hd name),
    fun d hd => (h.busy d hd).trans (h'.busy d hd)⟩

/-- Other datasets, but the same ones of `S`. -/
theorem AgreeOn.of_datasets {datasets : Finset String}
    (h : ∀ d ∈ S, (d ∈ datasets ↔ d ∈ z.datasets)) :
    ({ z with datasets } : FakeZfsManager).AgreeOn S z :=
  ⟨h, fun _ _ _ => rfl, fun _ _ => Iff.rfl⟩

theorem AgreeOn.mem_snapshots (h : z.AgreeOn S z') (hd : d ∈ S) :
    (d, name) ∈ z.snapshots ↔ (d, name) ∈ z'.snapshots := by
  rw [← AList.lookup_isSome, ← AList.lookup_isSome, h.snapshots d hd]

/-! ## On one of the datasets -/

theorem AgreeOn.insert_snapshot (h : z.AgreeOn S z') (stamp : Stamp) :
    ({ z with snapshots := z.snapshots.insert (d, name) stamp } : FakeZfsManager).AgreeOn S
      { z' with snapshots := z'.snapshots.insert (d, name) stamp } := by
  refine ⟨h.datasets, fun e he name' => ?_, h.busy⟩
  by_cases hkey : (e, name') = (d, name)
  · cases hkey
    simp only [AList.lookup_insert]
  · simp only [AList.lookup_insert_ne hkey]
    exact h.snapshots e he name'

theorem AgreeOn.erase_snapshot (h : z.AgreeOn S z') :
    ({ z with snapshots := z.snapshots.erase (d, name) } : FakeZfsManager).AgreeOn S
      { z' with snapshots := z'.snapshots.erase (d, name) } := by
  refine ⟨h.datasets, fun e he name' => ?_, h.busy⟩
  by_cases hkey : (e, name') = (d, name)
  · cases hkey
    simp only [AList.lookup_erase]
  · simp only [AList.lookup_erase_ne hkey]
    exact h.snapshots e he name'

theorem AgreeOn.createVolume (h : z.AgreeOn S z') :
    (z.createVolume d).AgreeOn S (z'.createVolume d) := by
  refine ⟨fun e he => ?_, h.snapshots, h.busy⟩
  simp only [FakeZfsManager.createVolume, Finset.mem_insert, h.datasets e he]

theorem AgreeOn.destroyDataset (h : z.AgreeOn S z') (hd : d ∈ S) :
    (z.destroyDataset d).1 = (z'.destroyDataset d).1 ∧
      (z.destroyDataset d).2.AgreeOn S (z'.destroyDataset d).2 := by
  have hbusy := h.busy d hd
  have hdatasets := h.datasets d hd
  unfold FakeZfsManager.destroyDataset
  by_cases hb : d ∈ z.busy
  · rw [if_pos hb, if_pos (hbusy.1 hb)]
    exact ⟨rfl, h⟩
  rw [if_neg hb, if_neg (mt hbusy.2 hb)]
  by_cases hz : d ∈ z.datasets
  · rw [if_pos hz, if_pos (hdatasets.1 hz)]
    refine ⟨rfl, fun e he => ?_, h.snapshots, h.busy⟩
    simp only [Finset.mem_erase, h.datasets e he]
  · rw [if_neg hz, if_neg (mt hdatasets.2 hz)]
    exact ⟨rfl, h⟩

theorem AgreeOn.snapshot (h : z.AgreeOn S z') (hd : d ∈ S) (fresh : Stamp) :
    (z.snapshot d name fresh).1 = (z'.snapshot d name fresh).1 ∧
      (z.snapshot d name fresh).2.AgreeOn S (z'.snapshot d name fresh).2 := by
  have hmem : (d, name) ∈ z.snapshots ↔ (d, name) ∈ z'.snapshots := h.mem_snapshots hd
  unfold FakeZfsManager.snapshot
  by_cases hz : d ∈ z.datasets
  · rw [if_pos hz, if_pos ((h.datasets d hd).1 hz)]
    refine ⟨rfl, ?_⟩
    by_cases hs : (d, name) ∈ z.snapshots
    · simpa only [if_pos hs, if_pos (hmem.1 hs)] using h
    · simpa only [if_neg hs, if_neg (mt hmem.2 hs)] using h.insert_snapshot fresh
  · rw [if_neg hz, if_neg (mt (h.datasets d hd).2 hz)]
    exact ⟨rfl, h⟩

theorem AgreeOn.destroySnapshot (h : z.AgreeOn S z') (hd : d ∈ S) :
    (z.destroySnapshot d name).2.AgreeOn S (z'.destroySnapshot d name).2 := by
  have hmem : (d, name) ∈ z.snapshots ↔ (d, name) ∈ z'.snapshots := h.mem_snapshots hd
  unfold FakeZfsManager.destroySnapshot
  by_cases hs : (d, name) ∈ z.snapshots
  · rw [if_pos hs, if_pos (hmem.1 hs)]
    exact h.erase_snapshot
  · rw [if_neg hs, if_neg (mt hmem.2 hs)]
    exact h

theorem AgreeOn.store (h : z.AgreeOn S z') (stream : SendStream) :
    (z.store d stream).AgreeOn S (z'.store d stream) :=
  (h.createVolume (d := d)).insert_snapshot stream.stamp

theorem AgreeOn.receiveSnapshot (h : z.AgreeOn S z') (hd : d ∈ S) (input : Option SendStream) :
    (z.receiveSnapshot d input).1 = (z'.receiveSnapshot d input).1 ∧
      (z.receiveSnapshot d input).2.AgreeOn S (z'.receiveSnapshot d input).2 := by
  cases input with
  | none => exact ⟨rfl, h⟩
  | some stream =>
    cases hbase : stream.base with
    | none =>
      simp only [FakeZfsManager.receiveSnapshot, hbase]
      exact ⟨trivial, h.store stream⟩
    | some b =>
      have hmem : (d, b) ∈ z.snapshots ↔ (d, b) ∈ z'.snapshots := h.mem_snapshots hd
      simp only [FakeZfsManager.receiveSnapshot, hbase]
      by_cases hs : (d, b) ∈ z.snapshots
      · rw [if_pos hs, if_pos (hmem.1 hs)]
        exact ⟨rfl, h.store stream⟩
      · rw [if_neg hs, if_neg (mt hmem.2 hs)]
        exact ⟨rfl, h⟩

/-! ## On any other -/

theorem agreeOn_cloneFromBase {base : String} (hd : d ∉ S) :
    (z.cloneFromBase base d).2.AgreeOn S z := by
  unfold FakeZfsManager.cloneFromBase
  split
  · refine .of_datasets fun e he => ?_
    rw [Finset.mem_insert, or_iff_right]
    rintro rfl
    exact hd he
  · exact .refl S z

end FakeZfsManager

/-! ## Volumes -/

/-- The datasets of a pool's volumes. -/
def volumes (pool : String) : Set String := Set.range (volumeDatasetPath pool)

theorem volumeDatasetPath_mem_volumes (pool name : String) :
    volumeDatasetPath pool name ∈ volumes pool := Set.mem_range_self name

theorem volumeDatasetPath_inj {pool a b : String} :
    volumeDatasetPath pool a = volumeDatasetPath pool b ↔ a = b := by
  constructor
  · intro h
    have hlist := congrArg String.toList h
    simp only [volumeDatasetPath, String.toList_append, List.append_cancel_left_eq] at hlist
    exact String.toList_injective hlist
  · rintro rfl
    rfl

open FakeZfsManager

variable {S : Set String} {z z' : FakeZfsManager}

theorem ReplicationLoop.takeSnapshot_agree {l : ReplicationLoop} (h : z.AgreeOn S z')
    (hd : l.dataset ∈ S) (works : Bool) (fresh : Stamp) :
    (l.takeSnapshot works fresh z).1 = (l.takeSnapshot works fresh z').1 ∧
      (l.takeSnapshot works fresh z).2.AgreeOn S (l.takeSnapshot works fresh z').2 := by
  cases works with
  | false => exact ⟨rfl, h⟩
  | true =>
    have ⟨hresult, hleft⟩ : (z.snapshot l.dataset (snapshotId l.tick) fresh).1 =
          (z'.snapshot l.dataset (snapshotId l.tick) fresh).1 ∧
        (z.snapshot l.dataset (snapshotId l.tick) fresh).2.AgreeOn S
          (z'.snapshot l.dataset (snapshotId l.tick) fresh).2 := h.snapshot hd fresh
    unfold ReplicationLoop.takeSnapshot
    rw [if_pos rfl, if_pos rfl]
    generalize z.snapshot l.dataset (snapshotId l.tick) fresh = x at hresult hleft
    generalize z'.snapshot l.dataset (snapshotId l.tick) fresh = x' at hresult hleft
    obtain ⟨r, y⟩ := x
    obtain ⟨r', y'⟩ := x'
    cases hresult
    cases r with
    | ok u => exact ⟨rfl, hleft⟩
    | error e => exact ⟨rfl, hleft⟩

theorem ReplicationLoop.conclude_agree {loop : ReplicationLoop} (h : z.AgreeOn S z')
    (hd : loop.dataset ∈ S) (pruned : Bool) (result : SendOnce) :
    (loop.conclude pruned result z).1 = (loop.conclude pruned result z').1 ∧
      (loop.conclude pruned result z).2.AgreeOn S (loop.conclude pruned result z').2 := by
  cases result with
  | needFull => exact ⟨rfl, h⟩
  | io => exact ⟨rfl, h⟩
  | ok =>
    refine ⟨rfl, ?_⟩
    unfold ReplicationLoop.conclude
    cases loop.lastConfirmedSent with
    | none => exact h
    | some previous =>
      cases pruned with
      | false => exact h
      | true => exact h.destroySnapshot hd

/-- A loop works on the dataset it was spawned for. -/
theorem ReplicationLoop.conclude_dataset (loop : ReplicationLoop) (pruned : Bool)
    (result : SendOnce) : (loop.conclude pruned result z).1.dataset = loop.dataset := by
  cases result <;> rfl

/-- What a listener receives goes to ZFS and nowhere else. -/
theorem Listener.receive_snd (l : Listener) (header : Header) (input : Option SendStream) :
    (l.receive true header input).2 =
      { l with zfs := (l.zfs.receiveSnapshot (l.dataset header.replicaName) input).2 } := by
  unfold Listener.receive
  rw [if_pos rfl]
  generalize l.zfs.receiveSnapshot (l.dataset header.replicaName) input = x
  obtain ⟨r, z⟩ := x
  cases r with
  | ok u => rfl
  | error e => rfl

theorem Listener.receive_agree {l : Listener} (h : z.AgreeOn (volumes l.pool) l.zfs) (works : Bool)
    (header : Header) (input : Option SendStream) :
    ({ l with zfs := z }.receive works header input).2.zfs.AgreeOn (volumes l.pool)
      (l.receive works header input).2.zfs := by
  cases works with
  | false => exact h
  | true =>
    rw [receive_snd, receive_snd]
    exact (h.receiveSnapshot (volumeDatasetPath_mem_volumes l.pool _) input).2

end Agent

end Keel
