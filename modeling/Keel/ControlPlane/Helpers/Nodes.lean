import Mathlib.Data.List.MinMax
import Mathlib.Data.Prod.Lex
import Keel.Common.Result
import Keel.ControlPlane.Model.Worker
/-!
# Which node the scheduler picks

The scheduler picks the alive node with the most headroom (`Foremost`):
among those off the busy ones where there is any, and else among all
(`Preferred`). That is all there is to `pick_node_for_service`
(`pickNodeForService_eq_ok`).
-/

namespace Keel

namespace ControlPlane

/-! ## The choice by headroom -/

/-- What the choice goes by: headroom, and the smaller id on a tie. -/
def rank (c : ℚ × String) : ℚ ×ₗ Stringᵒᵈ := toLex (c.1, OrderDual.toDual c.2)

theorem rank_lt {a b : ℚ × String} : rank a < rank b ↔ b.1 > a.1 ∨ b.1 = a.1 ∧ b.2 < a.2 := by
  rw [rank, rank, Prod.Lex.toLex_lt_toLex, eq_comm]
  exact Iff.rfl

theorem rank_le {a b : ℚ × String} : rank a ≤ rank b ↔ a.1 ≤ b.1 ∧ (a.1 = b.1 → b.2 ≤ a.2) := by
  rw [rank, rank, Prod.Lex.toLex_le_toLex']
  exact Iff.rfl

/-- The fold keeps the first element no other outranks. -/
theorem foldl_better (l : List (ℚ × String)) : l.foldl better none = l.argmax rank := by
  have hbetter : better = List.argAux fun b c => rank c < rank b := by
    funext best candidate
    cases best with
    | none => rfl
    | some current =>
      simp only [better, List.argAux, rank_lt]
  rw [hbetter, List.argmax]

/-- **The node picked** is one of the candidates, and ahead of every
other. -/
theorem pickNode_eq_ok {f64 : ℚ → ℚ} {nodes : List NodeResources} {n : String} :
    pickNode f64 nodes = .ok n ↔ ∃ x ∈ nodes, x.id = n ∧ ∀ y ∈ nodes, y.id ≠ n →
      headroomScore f64 y < headroomScore f64 x ∨
        headroomScore f64 y = headroomScore f64 x ∧ n < y.id := by
  rw [pickNode, foldl_better]
  cases hmax : (nodes.map fun x => (headroomScore f64 x, x.id)).argmax rank with
  | none =>
    have hnil := List.map_eq_nil_iff.1 (List.argmax_eq_none.1 hmax)
    rw [hnil]
    simp
  | some best =>
    obtain ⟨x, hx, rfl⟩ := List.mem_map.1 (List.argmax_mem hmax)
    have hle : ∀ y ∈ nodes, rank (headroomScore f64 y, y.id) ≤ rank (headroomScore f64 x, x.id) :=
      fun y hy => List.le_of_mem_argmax (List.mem_map.2 ⟨y, hy, rfl⟩) hmax
    simp only [Except.ok.injEq]
    constructor
    · rintro rfl
      refine ⟨x, hx, rfl, fun y hy hne => ?_⟩
      have hlt : rank (headroomScore f64 y, y.id) < rank (headroomScore f64 x, x.id) := by
        refine lt_of_le_of_ne (hle y hy) fun heq => hne ?_
        exact congrArg (fun c => OrderDual.ofDual (ofLex c).2) heq
      rcases rank_lt.1 hlt with hlt | ⟨heq, hlt⟩
      · exact Or.inl hlt
      · exact Or.inr ⟨heq.symm, hlt⟩
    · rintro ⟨x', hx', rfl, hahead⟩
      by_contra hne
      -- The one that is ahead would outrank the best.
      have hlt : rank (headroomScore f64 x, x.id) < rank (headroomScore f64 x', x'.id) := by
        rw [rank_lt]
        rcases hahead x hx hne with hlt | ⟨heq, hlt⟩
        · exact Or.inl hlt
        · exact Or.inr ⟨heq.symm, hlt⟩
      exact absurd hlt (not_lt_of_ge (hle x' hx'))

/-! ## The nodes that are alive -/

namespace Worker

variable {w : Worker} {now : Instant}

/-- The node is listed alive. -/
def Alive (w : Worker) (now : Instant) (n : String) : Prop :=
  ∃ s ∈ w.registry.list now, s.id = n ∧ s.status = .alive

theorem alive_iff_mem {n : String} : w.Alive now n ↔ ∃ x ∈ w.aliveNodes now, x.id = n := by
  simp only [Alive, aliveNodes, List.mem_map, List.mem_filter, decide_eq_true_eq]
  constructor
  · rintro ⟨s, hs, rfl, halive⟩
    exact ⟨_, ⟨s, ⟨hs, halive⟩, rfl⟩, rfl⟩
  · rintro ⟨x, ⟨s, ⟨hs, halive⟩, rfl⟩, rfl⟩
    exact ⟨s, hs, rfl, halive⟩

/-- A node is listed alive exactly if it resolves. -/
theorem alive_iff_resolve {n : String} :
    w.Alive now n ↔ (w.registry.resolve n now).isOk = true := by
  simp only [Alive, Registry.list, List.mem_insertionSort, List.mem_map, Registry.resolve]
  constructor
  · rintro ⟨s, ⟨e, he, rfl⟩, rfl, halive⟩
    have hlookup := AList.mem_lookup_iff.2 he
    simp only at halive
    split at halive
    · rename_i hlt
      rw [hlookup]
      simp only [if_neg (not_le_of_gt hlt)]
      rfl
    · cases halive
  · intro hok
    cases hlookup : w.registry.nodes.lookup n with
    | none =>
      rw [hlookup] at hok
      cases hok
    | some record =>
      simp only [hlookup] at hok
      split at hok
      · cases hok
      · rename_i hlt
        refine ⟨_, ⟨⟨n, record⟩, AList.mem_lookup_iff.1 hlookup, rfl⟩, rfl, ?_⟩
        exact if_pos (lt_of_not_ge hlt)

theorem alive_of_resolve {n addr : String} (h : w.registry.resolve n now = .ok addr) :
    w.Alive now n := by
  rw [alive_iff_resolve, h]
  rfl

/-! ## The choice off the busy nodes -/

/-- **The foremost node of `P`**: it is alive, and no other alive node of
`P` has more headroom, nor as much and a smaller id. -/
def Foremost (w : Worker) (now : Instant) (P : Set String) (n : String) : Prop :=
  n ∈ P ∧ ∃ x ∈ w.aliveNodes now, x.id = n ∧ ∀ y ∈ w.aliveNodes now, y.id ∈ P → y.id ≠ n →
    headroomScore Binary64.nearest y < headroomScore Binary64.nearest x ∨
      headroomScore Binary64.nearest y = headroomScore Binary64.nearest x ∧ n < y.id

/-- **The node the scheduler prefers**: the foremost off the busy ones or,
where every alive node is busy, the foremost of all. -/
def Preferred (w : Worker) (now : Instant) (busy : Set String) (n : String) : Prop :=
  w.Foremost now busyᶜ n ∨ (∀ m, w.Alive now m → m ∈ busy) ∧ w.Foremost now Set.univ n

theorem Foremost.alive {P : Set String} {n : String} (h : w.Foremost now P n) :
    w.Alive now n := by
  obtain ⟨-, x, hx, hid, -⟩ := h
  exact alive_iff_mem.2 ⟨x, hx, hid⟩

theorem Preferred.alive {busy : Set String} {n : String} (h : w.Preferred now busy n) :
    w.Alive now n :=
  h.elim Foremost.alive fun h => h.2.alive

/-- **It picks a busy node only if every alive node is busy.** -/
theorem Preferred.spreads {busy : Set String} {n : String} (h : w.Preferred now busy n)
    (hbusy : n ∈ busy) : ∀ m, w.Alive now m → m ∈ busy := by
  rcases h with h | h
  · exact absurd hbusy h.1
  · exact h.1

/-- **What the scheduler picks.** -/
theorem pickNodeForService_eq_ok {busy : Finset String} {n : String} :
    pickNodeForService Binary64.nearest (w.aliveNodes now) busy = .ok n ↔ w.Preferred now ↑busy n := by
  have hfiltered : ∀ x, x ∈ (w.aliveNodes now).filter (fun x => x.id ∉ busy) ↔
      x ∈ w.aliveNodes now ∧ x.id ∉ busy := by
    intro x
    rw [List.mem_filter, decide_eq_true_eq]
  simp only [pickNodeForService]
  split
  · rename_i hsome
    obtain ⟨x, hx⟩ := List.exists_mem_of_ne_nil _ hsome
    have hfree : ¬ ∀ m, w.Alive now m → m ∈ (↑busy : Set String) := by
      intro hall
      obtain ⟨hx, hxbusy⟩ := (hfiltered x).1 hx
      exact hxbusy (hall x.id (alive_iff_mem.2 ⟨x, hx, rfl⟩))
    rw [pickNode_eq_ok, Preferred, or_iff_left fun h => hfree h.1]
    constructor
    · rintro ⟨x, hx, rfl, hahead⟩
      obtain ⟨hx, hxbusy⟩ := (hfiltered x).1 hx
      exact ⟨hxbusy, x, hx, rfl, fun y hy hybusy => hahead y ((hfiltered y).2 ⟨hy, hybusy⟩)⟩
    · rintro ⟨hbusy, x, hx, rfl, hahead⟩
      refine ⟨x, (hfiltered x).2 ⟨hx, hbusy⟩, rfl, fun y hy => ?_⟩
      obtain ⟨hy, hybusy⟩ := (hfiltered y).1 hy
      exact hahead y hy hybusy
  · rename_i hnone
    have hall : ∀ m, w.Alive now m → m ∈ (↑busy : Set String) := by
      intro m hm
      obtain ⟨x, hx, rfl⟩ := alive_iff_mem.1 hm
      by_contra hxbusy
      exact hnone (List.ne_nil_of_mem ((hfiltered x).2 ⟨hx, hxbusy⟩))
    have hnot : ¬ w.Foremost now (↑busy : Set String)ᶜ n := by
      intro h
      exact h.1 (hall n h.alive)
    rw [pickNode_eq_ok, Preferred, or_iff_right hnot, and_iff_right hall]
    constructor
    · rintro ⟨x, hx, hid, hahead⟩
      exact ⟨Set.mem_univ n, x, hx, hid, fun y hy _ => hahead y hy⟩
    · rintro ⟨-, x, hx, hid, hahead⟩
      exact ⟨x, hx, hid, fun y hy => hahead y hy (Set.mem_univ _)⟩

/-- The foremost node off the busy ones is what it picks, unless all are
busy. -/
theorem foremost_compl_iff {busy : Finset String} {n : String} :
    w.Foremost now (↑busy : Set String)ᶜ n ↔
      pickNodeForService Binary64.nearest (w.aliveNodes now) busy = .ok n ∧ n ∉ busy := by
  rw [pickNodeForService_eq_ok]
  constructor
  · intro h
    exact ⟨Or.inl h, h.1⟩
  · rintro ⟨h | h, hbusy⟩
    · exact h
    · exact absurd (h.1 n h.2.alive) hbusy

end Worker

end ControlPlane

end Keel
