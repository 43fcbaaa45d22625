import Mathlib.Data.Finset.Card
import Mathlib.Data.Finset.Dedup
import Mathlib.Data.Finset.Range
import Keel.ControlPlane.Helpers.Plan
/-!
# The indices of a service

Which indices `diff_replicas` picks, in terms of how many there are: the
ones to remove by their rank among those present, the ones to add as the
first that are missing. All of it is right as long as not every index of
32 bits is present, since all of them count as none.
-/

namespace Keel

namespace ControlPlane

/-! ## The greatest indices -/

/-- In an ascending list the elements past the first `m` are those with
more than `m` elements no greater. -/
theorem mem_drop_iff_rank {l : List ℕ} (h : l.Pairwise (· < ·)) {m i : ℕ} :
    i ∈ l.drop m ↔ i ∈ l ∧ m < (l.filter (· ≤ i)).length := by
  induction l generalizing m with
  | nil => simp
  | cons a l ih =>
    obtain ⟨ha, hl⟩ := List.pairwise_cons.1 h
    cases m with
    | zero =>
      rw [List.drop_zero]
      refine ⟨fun hi => ⟨hi, List.length_pos_of_mem (List.mem_filter.2 ⟨hi, by simp⟩)⟩, fun hi => hi.1⟩
    | succ m =>
      rw [List.drop_succ_cons, ih hl, List.mem_cons]
      constructor
      · rintro ⟨hi, hrank⟩
        have hlt := ha i hi
        refine ⟨Or.inr hi, ?_⟩
        rw [List.filter_cons_of_pos (by simpa using hlt.le), List.length_cons]
        omega
      · rintro ⟨rfl | hi, hrank⟩
        · -- Nothing after the first element is as small as it is.
          have hnone : l.filter (· ≤ i) = [] := by
            refine List.filter_eq_nil_iff.2 fun j hj => ?_
            have := ha j hj
            simpa using this
          rw [List.filter_cons_of_pos (by simp), hnone] at hrank
          simp at hrank
        · have hlt := ha i hi
          rw [List.filter_cons_of_pos (by simpa using hlt.le), List.length_cons] at hrank
          exact ⟨hi, by omega⟩

theorem ascending_sorted (h : Finset ℕ) : (ascending h).Pairwise (· < ·) :=
  List.pairwise_lt_range.filter _

theorem toFinset_ascending (h : Finset ℕ) : (ascending h).toFinset = h := by
  ext i
  simp only [ascending, List.mem_toFinset, List.mem_filter, List.mem_range, decide_eq_true_eq,
    and_iff_right_iff_imp]
  intro hi
  exact Nat.lt_succ_of_le (Finset.le_sup (f := id) hi)

theorem length_ascending (h : Finset ℕ) : (ascending h).length = h.card := by
  rw [← List.toFinset_card_of_nodup ((ascending_sorted h).imp Nat.ne_of_lt), toFinset_ascending]

theorem length_filter_ascending (h : Finset ℕ) (i : ℕ) :
    ((ascending h).filter (· ≤ i)).length = (h.filter (· ≤ i)).card := by
  have hnodup : ((ascending h).filter (· ≤ i)).Nodup :=
    ((ascending_sorted h).imp Nat.ne_of_lt).filter _
  rw [← List.toFinset_card_of_nodup hnodup, List.toFinset_filter, toFinset_ascending]
  simp

/-- The count of a set that is not every index there is. -/
theorem diffReplicas_eq {h : Finset ℕ} (hfits : h.card < 2 ^ 32) (desired : ℕ) :
    diffReplicas desired h =
      if h.card < desired then (leastMissing h (2 ^ 32) 0 (desired - h.card), [])
      else if h.card > desired then ([], (ascending h).reverse.take (h.card - desired))
      else ([], []) := by
  rw [diffReplicas, Nat.mod_eq_of_lt hfits]

/-- **What a pass removes**: the present indices that more than `desired`
present ones are no greater than. -/
theorem mem_toRemove_iff {desired : ℕ} {h : Finset ℕ} (hfits : h.card < 2 ^ 32) {i : ℕ} :
    i ∈ (diffReplicas desired h).2 ↔ i ∈ h ∧ desired < (h.filter (· ≤ i)).card := by
  have hbelow := Finset.card_filter_le h (· ≤ i)
  rw [diffReplicas_eq hfits]
  split
  · simp only [List.not_mem_nil, false_iff, not_and, not_lt]
    omega
  split
  · rw [List.take_reverse, List.mem_reverse, mem_drop_iff_rank (ascending_sorted h),
      length_ascending, length_filter_ascending, Nat.sub_sub_self (by omega), ← List.mem_toFinset,
      toFinset_ascending]
  · simp only [List.not_mem_nil, false_iff, not_and, not_lt]
    omega

/-- As many go as are in excess. -/
theorem length_toRemove {h : Finset ℕ} (hfits : h.card < 2 ^ 32) (desired : ℕ) :
    (diffReplicas desired h).2.length = h.card - desired := by
  rw [diffReplicas_eq hfits]
  split
  · simp only [List.length_nil]
    omega
  split
  · rw [List.length_take, List.length_reverse, length_ascending]
    omega
  · simp only [List.length_nil]
    omega

/-! ## The least missing indices -/

theorem leastMissing_eq (h : Finset ℕ) : ∀ left i count : ℕ,
    leastMissing h left i count = ((List.range' i left).filter (· ∉ h)).take count := by
  intro left
  induction left with
  | zero =>
    intro i count
    simp [leastMissing]
  | succ left ih =>
    intro i count
    rw [List.range'_succ]
    cases count with
    | zero => simp [leastMissing]
    | succ count =>
      by_cases hi : i ∈ h
      · rw [leastMissing, if_pos hi, ih, List.filter_cons_of_neg (by simpa using hi)]
      · rw [leastMissing, if_neg hi, ih, List.filter_cons_of_pos (by simpa using hi),
          List.take_succ_cons]

/-- How many of the first `n` indices are missing. -/
theorem length_missing (n : ℕ) (h : Finset ℕ) :
    ((List.range' 0 n).filter (· ∉ h)).length = (Finset.range n \ h).card := by
  have hnodup : ((List.range' 0 n).filter (· ∉ h)).Nodup := (List.nodup_range').filter _
  have hset : ((List.range' 0 n).filter (· ∉ h)).toFinset = Finset.range n \ h := by
    ext i
    simp only [List.mem_toFinset, List.mem_filter, List.mem_range', Finset.mem_sdiff,
      Finset.mem_range, decide_eq_true_eq]
    constructor
    · rintro ⟨⟨k, hk, rfl⟩, hi⟩
      exact ⟨by omega, hi⟩
    · rintro ⟨hlt, hi⟩
      exact ⟨⟨i, hlt, by omega⟩, hi⟩
  rw [← List.toFinset_card_of_nodup hnodup, hset]

/-- As many are added as are missing: there are enough indices. -/
theorem length_toAdd {desired : ℕ} {h : Finset ℕ} (hfits : h.card < 2 ^ 32)
    (hdesired : desired ≤ 2 ^ 32) (hh : ∀ i ∈ h, i < 2 ^ 32) :
    (diffReplicas desired h).1.length = desired - h.card := by
  have hfree : ((List.range' 0 (2 ^ 32)).filter (· ∉ h)).length = 2 ^ 32 - h.card := by
    rw [length_missing, Finset.card_sdiff_of_subset, Finset.card_range]
    exact fun i hi => Finset.mem_range.2 (hh i hi)
  rw [diffReplicas_eq hfits]
  split
  · rw [leastMissing_eq, List.length_take, hfree]
    omega
  split
  · simp only [List.length_nil]
    omega
  · simp only [List.length_nil]
    omega

/-- **Every index there is** counts as none, and nothing can be done
about it. -/
theorem diffReplicas_full {desired : ℕ} {h : Finset ℕ} (hh : ∀ i ∈ h, i < 2 ^ 32)
    (hfull : h.card = 2 ^ 32) : diffReplicas desired h = ([], []) := by
  have hrange : h = Finset.range (2 ^ 32) := by
    refine Finset.eq_of_subset_of_card_le (fun i hi => Finset.mem_range.2 (hh i hi)) ?_
    rw [Finset.card_range, hfull]
  have hnone : leastMissing h (2 ^ 32) 0 (desired - 0) = [] := by
    refine List.eq_nil_iff_forall_not_mem.2 fun i hi => ?_
    obtain ⟨hmissing, hlt⟩ := mem_leastMissing hi
    rw [hrange] at hmissing
    exact hmissing (Finset.mem_range.2 (by omega))
  rw [diffReplicas, hfull, Nat.mod_self]
  simp only [hnone, Nat.not_lt_zero, if_false, gt_iff_lt]
  split <;> rfl

/-! ## Who is present -/

variable {w : Worker} {now : Instant}

theorem lt_of_replicaIndex {s name : String} {i : ℕ} (h : replicaIndex s name = some i) :
    i < 2 ^ 32 := by
  simp only [replicaIndex, bind, Option.bind_eq_some_iff] at h
  obtain ⟨rest, -, suffix, -, index, hparse, hprint⟩ := h
  simp only [parseUnsigned, bind, Option.bind_eq_some_iff] at hparse
  obtain ⟨n, -, hn⟩ := hparse
  split at hn
  · rename_i hlt
    split at hprint
    · cases hn
      cases hprint
      exact hlt
    · cases hprint
  · cases hn

/-- An index is present when its name is placed, for a stateless service
on a node that resolves. -/
theorem mem_presentIndices_iff {s : String} {record : ServiceRecord} {i : ℕ} :
    i ∈ w.presentIndices now s record ↔
      i < 2 ^ 32 ∧ ∃ n, w.placements.lookup (replicaName s i) = some n ∧
        (record.template.volumes = [] → (w.registry.resolve n now).isOk = true) := by
  have hplaced : ∀ {name n : String}, (i, name, n) ∈ w.placed s ↔
      name = replicaName s i ∧ i < 2 ^ 32 ∧ w.placements.lookup (replicaName s i) = some n := by
    intro name n
    rw [mem_placed]
    constructor
    · rintro ⟨hlookup, hidx⟩
      have hname := eq_replicaName_of_replicaIndex hidx
      refine ⟨hname, lt_of_replicaIndex hidx, hname ▸ hlookup⟩
    · rintro ⟨rfl, hlt, hlookup⟩
      exact ⟨hlookup, replicaIndex_replicaName hlt s⟩
  simp only [Worker.presentIndices]
  split
  · rename_i hstateless
    simp only [List.mem_toFinset, List.mem_map, List.mem_filter]
    constructor
    · rintro ⟨⟨_, name, n⟩, ⟨hmem, hresolves⟩, rfl⟩
      obtain ⟨-, hlt, hlookup⟩ := hplaced.1 hmem
      exact ⟨hlt, n, hlookup, fun _ => hresolves⟩
    · rintro ⟨hlt, n, hlookup, hresolves⟩
      exact ⟨(i, replicaName s i, n), ⟨hplaced.2 ⟨rfl, hlt, hlookup⟩, hresolves hstateless⟩, rfl⟩
  · rename_i hstateful
    simp only [List.mem_toFinset, List.mem_map]
    constructor
    · rintro ⟨⟨_, name, n⟩, hmem, rfl⟩
      obtain ⟨-, hlt, hlookup⟩ := hplaced.1 hmem
      exact ⟨hlt, n, hlookup, fun hstateless => absurd hstateless hstateful⟩
    · rintro ⟨hlt, n, hlookup, -⟩
      exact ⟨(i, replicaName s i, n), hplaced.2 ⟨rfl, hlt, hlookup⟩, rfl⟩

theorem card_presentIndices_le {s : String} {record : ServiceRecord} :
    (w.presentIndices now s record).card ≤ 2 ^ 32 := by
  have hsub : w.presentIndices now s record ⊆ Finset.range (2 ^ 32) := fun i hi =>
    Finset.mem_range.2 (mem_presentIndices_iff.1 hi).1
  have hcard := Finset.card_le_card hsub
  rwa [Finset.card_range] at hcard

end ControlPlane

end Keel
