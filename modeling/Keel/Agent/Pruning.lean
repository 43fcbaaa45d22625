import Keel.Agent.Helpers.Replication
/-!
# The snapshots a loop leaves

A tick of the replication loop takes a snapshot before it connects to
anyone. What becomes of it then decides whether it stays: a snapshot that
is confirmed takes the place of the one confirmed before, which is
destroyed; one that is not is forgotten, and so is the base of a loop that
is told to send all. Neither is looked at again.

So there is at most the last confirmed snapshot at every boundary between
two ticks exactly as long as every tick that sends is confirmed
(`keepsOne_iff`).
-/

namespace Keel

namespace Agent

/-! ## A loop on its own -/

/-- What a tick comes across. -/
structure Turn where
  /-- The standby the record names. -/
  replicateTo : Option String
  /-- It takes the connection and the header. -/
  connects : Bool
  /-- What is read back, if anything is. -/
  ack : Option Ack
  /-- The stream is sent. -/
  sends : Bool
  /-- The stamp of the snapshot taken. -/
  fresh : Stamp

/-- `send_once`, as far as the loop sees it. -/
def ReplicationLoop.sendOnce (loop : ReplicationLoop) (zfs : FakeZfsManager) (turn : Turn) :
    SendOnce :=
  if turn.connects then
    match turn.ack with
    | none => .io
    | some .needFull => .needFull
    | some .proceed => if (loop.stream zfs).isSome ∧ turn.sends then .ok else .io
  else .io

/-- A loop, the ZFS of its node, and the names of the snapshots the loop
has taken. -/
structure Sender where
  loop : ReplicationLoop
  zfs : FakeZfsManager
  taken : Finset String

namespace Sender

def spawn (replicaName volumeName pool : String) (zfs : FakeZfsManager) : Sender :=
  ⟨.spawn replicaName volumeName pool, zfs, ∅⟩

/-- A tick, whose `zfs snapshot` and `zfs destroy` work. -/
def tick (s : Sender) (turn : Turn) : Sender :=
  let loop := { s.loop with tick := s.loop.tick + 1 }
  match turn.replicateTo with
  | none => { s with loop }
  | some _ =>
    match loop.takeSnapshot true turn.fresh s.zfs with
    | (false, zfs) => { s with loop, zfs }
    | (true, zfs) =>
      let (loop', zfs) := loop.conclude true (loop.sendOnce zfs turn) zfs
      ⟨loop', zfs, insert (snapshotId loop.tick) s.taken⟩

def run (s : Sender) (turns : List Turn) : Sender := turns.foldl tick s

/-- A snapshot the loop has taken is still there. -/
def Left (s : Sender) (name : String) : Prop := name ∈ s.taken ∧ s.zfs.Holds s.loop.dataset name

instance (s : Sender) (name : String) : Decidable (s.Left name) :=
  inferInstanceAs (Decidable (_ ∧ _))

/-- No snapshot is left but the one last confirmed. -/
def KeepsOne (s : Sender) : Prop := ∀ name, s.Left name → s.loop.lastConfirmedSent = some name

end Sender

/-- The standby proceeds, and is sent the stream. -/
def Turn.Confirms (turn : Turn) : Prop :=
  turn.connects = true ∧ turn.ack = some .proceed ∧ turn.sends = true

namespace Sender

variable {s : Sender} {turn : Turn} {name : String}

/-! ## A tick -/

/-- The volume is there, and so is the base; and the snapshots are named
after ticks gone by. -/
structure Sound (s : Sender) : Prop where
  dataset : s.loop.dataset ∈ s.zfs.datasets
  base : ∀ b, s.loop.lastConfirmedSent = some b → s.Left b
  named : ∀ name ∈ s.taken, ∃ i ≤ s.loop.tick, name = snapshotId i

theorem Sound.spawn (replicaName : String) {volumeName pool : String} {zfs : FakeZfsManager}
    (h : volumeDatasetPath pool volumeName ∈ zfs.datasets) :
    (spawn replicaName volumeName pool zfs).Sound where
  dataset := h
  base _ hb := by cases hb
  named _ hname := absurd hname (Finset.notMem_empty _)

/-- This tick's snapshot is not one of those taken before. -/
theorem Sound.notMem_taken (h : s.Sound) : snapshotId (s.loop.tick + 1) ∉ s.taken := by
  intro hmem
  obtain ⟨i, hi, hname⟩ := h.named _ hmem
  have := snapshotId_inj hname
  omega

theorem tick_of_none (h : turn.replicateTo = none) :
    s.tick turn = { s with loop := { s.loop with tick := s.loop.tick + 1 } } := by
  rw [tick, h]

/-- A loop that has what it takes is done with a tick exactly if the
standby confirms. -/
theorem sendOnce_eq_ok_iff (turn : Turn) {loop : ReplicationLoop} {zfs : FakeZfsManager}
    (h : (loop.stream zfs).isSome = true) : loop.sendOnce zfs turn = .ok ↔ turn.Confirms := by
  rw [ReplicationLoop.sendOnce, Turn.Confirms]
  cases turn.connects with
  | false => simp
  | true =>
    cases turn.ack with
    | none => simp
    | some ack =>
      cases ack with
      | needFull => simp
      | proceed => simp [h]

/-- **A tick that sends** takes a snapshot, and where it is confirmed
prunes the base and moves to it. -/
theorem Sound.tick_eq (h : s.Sound) (hto : turn.replicateTo ≠ none) :
    (s.tick turn).taken = insert (snapshotId (s.loop.tick + 1)) s.taken ∧
    (s.tick turn).zfs.datasets = s.zfs.datasets ∧
    (∀ name, (s.tick turn).zfs.Holds s.loop.dataset name ↔
      (name = snapshotId (s.loop.tick + 1) ∨ s.zfs.Holds s.loop.dataset name) ∧
        (turn.Confirms → s.loop.lastConfirmedSent ≠ some name)) ∧
    ∃ last, (s.tick turn).loop =
        { s.loop with tick := s.loop.tick + 1, lastConfirmedSent := last } ∧
      (turn.Confirms → last = some (snapshotId (s.loop.tick + 1))) ∧
      (¬ turn.Confirms → last = none ∨ last = s.loop.lastConfirmedSent) := by
  obtain ⟨addr, hto⟩ := Option.ne_none_iff_exists'.1 hto
  obtain ⟨zfs, htake, hdatasets, hholds⟩ := ReplicationLoop.takeSnapshot_holds
    { s.loop with tick := s.loop.tick + 1 } turn.fresh h.dataset
  have hstream : (({ s.loop with tick := s.loop.tick + 1 } : ReplicationLoop).stream zfs).isSome =
      true :=
    ReplicationLoop.isSome_stream ((hholds _).2 (Or.inl rfl)) fun b hb =>
      (hholds b).2 (Or.inr (h.base b hb).2)
  have hok := sendOnce_eq_ok_iff turn hstream
  simp only [tick, hto, htake]
  refine ⟨trivial, (ReplicationLoop.conclude_datasets _ _).trans hdatasets, fun name => ?_, ?_⟩
  · rw [← hok, ← hholds]
    exact ReplicationLoop.holds_conclude _ name
  · rw [← hok]
    exact ReplicationLoop.conclude_loop _ _

theorem Sound.left_tick (h : s.Sound) (hto : turn.replicateTo ≠ none) :
    (s.tick turn).Left name ↔ (name = snapshotId (s.loop.tick + 1) ∨ s.Left name) ∧
      (turn.Confirms → s.loop.lastConfirmedSent ≠ some name) := by
  obtain ⟨htaken, -, hholds, last, hloop, -⟩ := h.tick_eq hto
  rw [Left, htaken, hloop, hholds, Finset.mem_insert, ← and_assoc, ← or_and_left, Left]

theorem Sound.tick (h : s.Sound) (turn : Turn) : (s.tick turn).Sound := by
  by_cases hto : turn.replicateTo = none
  · rw [tick_of_none hto]
    refine ⟨h.dataset, h.base, fun name hname => ?_⟩
    obtain ⟨i, hi, rfl⟩ := h.named name hname
    exact ⟨i, Nat.le_succ_of_le hi, rfl⟩
  · obtain ⟨htaken, hdatasets, -, last, hloop, hsent, hunsent⟩ := h.tick_eq hto
    refine ⟨?_, fun b hb => (h.left_tick hto).2 ?_, fun name hname => ?_⟩
    · rw [hloop, hdatasets]
      exact h.dataset
    · rw [hloop] at hb
      by_cases hconfirms : turn.Confirms
      · obtain rfl : snapshotId (s.loop.tick + 1) = b :=
          Option.some.inj ((hsent hconfirms).symm.trans hb)
        exact ⟨Or.inl rfl, fun _ hlast => h.notMem_taken (h.base _ hlast).1⟩
      · rcases hunsent hconfirms with hnone | hlast
        · cases hnone.symm.trans hb
        · exact ⟨Or.inr (h.base b (hlast.symm.trans hb)), fun hyes => absurd hyes hconfirms⟩
    · rw [hloop]
      rw [htaken, Finset.mem_insert] at hname
      rcases hname with rfl | hname
      · exact ⟨_, le_rfl, rfl⟩
      · obtain ⟨i, hi, rfl⟩ := h.named name hname
        exact ⟨i, Nat.le_succ_of_le hi, rfl⟩

/-- **At most one snapshot is left after a tick** if and only if it is
confirmed, or sends nothing. -/
theorem Sound.keepsOne_tick_iff (h : s.Sound) (hone : s.KeepsOne) :
    (s.tick turn).KeepsOne ↔ (turn.replicateTo ≠ none → turn.Confirms) := by
  constructor
  · intro hkeeps hto
    by_contra hconfirms
    obtain ⟨-, -, -, last, hloop, -, hunsent⟩ := h.tick_eq hto
    have hleft := hkeeps _ ((h.left_tick hto).2 ⟨Or.inl rfl, fun hyes => absurd hyes hconfirms⟩)
    rw [hloop] at hleft
    rcases hunsent hconfirms with hnone | hlast
    · cases hnone.symm.trans hleft
    · exact h.notMem_taken (h.base _ (hlast.symm.trans hleft)).1
  · intro hconfirms name hleft
    by_cases hto : turn.replicateTo = none
    · rw [tick_of_none hto] at hleft ⊢
      exact hone name hleft
    · obtain ⟨-, -, -, last, hloop, hsent, -⟩ := h.tick_eq hto
      obtain ⟨hname, hother⟩ := (h.left_tick hto).1 hleft
      rcases hname with rfl | hname
      · rw [hloop]
        exact hsent (hconfirms hto)
      · exact absurd (hone name hname) (hother (hconfirms hto))

/-! ## A run -/

theorem run_concat (s : Sender) (turns : List Turn) (turn : Turn) :
    s.run (turns ++ [turn]) = (s.run turns).tick turn := by
  rw [run, run, List.foldl_append]
  rfl

theorem Sound.run (h : s.Sound) (turns : List Turn) : (s.run turns).Sound := by
  induction turns using List.reverseRecOn with
  | nil => exact h
  | append_singleton turns turn ih =>
    rw [run_concat]
    exact ih.tick turn

/-- **A loop leaves at most its last confirmed snapshot** at every boundary
of a run if and only if every tick that has a standby to send to is
confirmed by it. -/
theorem keepsOne_iff (replicaName volumeName pool : String) {zfs : FakeZfsManager}
    (h : volumeDatasetPath pool volumeName ∈ zfs.datasets) (turns : List Turn) :
    (∀ done todo, turns = done ++ todo →
      ((spawn replicaName volumeName pool zfs).run done).KeepsOne) ↔
        ∀ turn ∈ turns, turn.replicateTo ≠ none → turn.Confirms := by
  have hsound := Sound.spawn replicaName h
  constructor
  · intro hkeeps turn hturn
    obtain ⟨done, todo, rfl⟩ := List.append_of_mem hturn
    refine ((hsound.run done).keepsOne_tick_iff (hkeeps done (turn :: todo) rfl)).1 ?_
    rw [← run_concat]
    exact hkeeps (done ++ [turn]) todo (by rw [List.append_assoc]; rfl)
  · intro hconfirms done
    induction done using List.reverseRecOn with
    | nil => exact fun _ _ name hleft => absurd hleft.1 (Finset.notMem_empty name)
    | append_singleton done turn ih =>
      intro todo hturns
      rw [List.append_assoc] at hturns
      rw [run_concat]
      refine ((hsound.run done).keepsOne_tick_iff (ih _ hturns)).2 (hconfirms turn ?_)
      rw [hturns]
      exact List.mem_append_right _ List.mem_cons_self

end Sender

/-! ## Two runs -/

/-- A node with the volume of `db-0`, and no snapshots yet. -/
def Sample.fresh : FakeZfsManager := ⟨{Sample.volume}, ∅, ∅⟩

/-- A tick that the standby confirms, and one it does not take. -/
def Sample.confirmed : Turn := ⟨some "10.0.0.2:7622", true, some .proceed, true, 1⟩

def Sample.unreachable : Turn := ⟨some "10.0.0.2:7622", false, none, false, 1⟩

/-- Two confirmed ticks leave the second's snapshot. -/
theorem keepsOne_sample :
    ((Sender.spawn "db-0" "db-0-data" "zroot" Sample.fresh).run
      [Sample.confirmed, Sample.confirmed]).KeepsOne := by
  have hvolume : volumeDatasetPath "zroot" "db-0-data" ∈ Sample.fresh.datasets := by decide
  refine (Sender.keepsOne_iff "db-0" "db-0-data" "zroot" hvolume _).2 (fun turn hturn _ => ?_) _ []
    (List.append_nil _).symm
  rcases List.mem_cons.1 hturn with rfl | hturn
  · exact ⟨rfl, rfl, rfl⟩
  · rw [List.mem_singleton.1 hturn]
    exact ⟨rfl, rfl, rfl⟩

/-- A standby that cannot be reached: every tick's snapshot stays, and goes
on staying when the standby is back. -/
theorem snapshots_accumulate :
    let s := (Sender.spawn "db-0" "db-0-data" "zroot" Sample.fresh).run
      [Sample.unreachable, Sample.unreachable, Sample.confirmed]
    s.loop.lastConfirmedSent = some "keel-repl-3" ∧ s.Left "keel-repl-1" ∧
      s.Left "keel-repl-2" ∧ s.Left "keel-repl-3" ∧ ¬ s.KeepsOne := by
  intro s
  have hlast : s.loop.lastConfirmedSent = some "keel-repl-3" := by decide +kernel
  have hfirst : s.Left "keel-repl-1" := by decide +kernel
  refine ⟨hlast, hfirst, by decide +kernel, by decide +kernel, fun hone => ?_⟩
  exact absurd (Option.some.inj (hlast.symm.trans (hone _ hfirst))) (by decide)

end Agent

end Keel
