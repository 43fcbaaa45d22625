import Mathlib.Data.String.Basic
import Mathlib.Data.List.Basic
/-!
# Joined names

Names put together with a hyphen, numbers in decimal, and what a text
that is split at a character is made of. A joined name
does not say where its parts meet, as either may have hyphens of its own
(`join_eq_join_iff`); a number has none, so that a name that ends in one
can be taken apart again (`join_toString_inj`).
-/

namespace Keel

/-! ## Numbers -/

theorem toList_toString (i : ℕ) : (toString i).toList = Nat.toDigits 10 i := Nat.toList_repr

theorem toString_inj {i j : ℕ} : toString i = toString j ↔ i = j := by
  refine ⟨fun h => ?_, fun h => by rw [h]⟩
  have hdigits := congrArg String.toList h
  rw [toList_toString, toList_toString] at hdigits
  have hvalue := congrArg (fun ds => Nat.ofDigitChars 10 ds 0) hdigits
  simpa using hvalue

theorem notMem_toDigits {c : Char} (hc : c.isDigit = false) (i : ℕ) : c ∉ Nat.toDigits 10 i := by
  intro h
  rw [Nat.isDigit_of_mem_toDigits (by decide) (by decide) h] at hc
  cases hc

/-! ## Splits -/

theorem mem_intercalate {α : Type} {a c : α} {ls : List (List α)} (h : c ∈ [a].intercalate ls) :
    c = a ∨ ∃ l ∈ ls, c ∈ l := by
  induction ls with
  | nil => exact absurd h List.not_mem_nil
  | cons l ls ih =>
    cases ls with
    | nil =>
      rw [List.intercalate_singleton] at h
      exact Or.inr ⟨l, List.mem_cons_self, h⟩
    | cons l' ls =>
      rw [List.intercalate_cons_cons, List.mem_append, List.mem_append, List.mem_singleton] at h
      rcases h with (h | h) | h
      · exact Or.inr ⟨l, List.mem_cons_self, h⟩
      · exact Or.inl h
      · refine (ih h).imp_right ?_
        rintro ⟨m, hm, hc⟩
        exact ⟨m, List.mem_cons_of_mem l hm, hc⟩

/-- Every character is in a part, or is what the text is split at. -/
theorem forall_of_splitOn {p : Char → Prop} {a : Char} {cs : List Char} (ha : p a)
    (h : ∀ l ∈ cs.splitOn a, ∀ c ∈ l, p c) : ∀ c ∈ cs, p c := by
  intro c hc
  have hjoined : [a].intercalate (cs.splitOn a) = cs := List.intercalate_splitOn a
  rw [← hjoined] at hc
  rcases mem_intercalate hc with rfl | ⟨l, hl, hc⟩
  · exact ha
  · exact h l hl c hc

/-! ## Joins -/

theorem toList_join (a b : String) : (a ++ "-" ++ b).toList = a.toList ++ '-' :: b.toList := by
  simp

/-- **When two joined names are the same one.** The parts are the same, or
the longer first part holds the beginning of the other's second. -/
theorem join_eq_join_iff {a b x y : String} :
    a ++ "-" ++ x = b ++ "-" ++ y ↔
      (a = b ∧ x = y) ∨ (∃ z, b = a ++ "-" ++ z ∧ x = z ++ "-" ++ y) ∨
        ∃ z, a = b ++ "-" ++ z ∧ y = z ++ "-" ++ x := by
  -- The hyphen that is left over is where the longer part goes on.
  have hlonger : ∀ {a b x y : String} {cs : List Char}, b.toList = a.toList ++ cs →
      '-' :: x.toList = cs ++ '-' :: y.toList →
        (a = b ∧ x = y) ∨ ∃ z, b = a ++ "-" ++ z ∧ x = z ++ "-" ++ y := by
    intro a b x y cs hb hx
    rcases cs with _ | ⟨c, cs⟩
    · rw [List.append_nil] at hb
      exact Or.inl ⟨String.toList_injective hb.symm, String.toList_injective (List.cons.inj hx).2⟩
    · obtain ⟨hc, hx⟩ := List.cons.inj hx
      rw [← hc] at hb
      refine Or.inr ⟨String.ofList cs, String.toList_injective ?_, String.toList_injective ?_⟩
      · rw [hb, toList_join, String.toList_ofList]
      · rw [toList_join, String.toList_ofList]
        exact hx
  constructor
  · intro h
    have hlist := congrArg String.toList h
    rw [toList_join, toList_join] at hlist
    rcases List.append_eq_append_iff.1 hlist with ⟨cs, hb, hx⟩ | ⟨cs, ha, hy⟩
    · rcases hlonger hb hx with h | h
      · exact Or.inl h
      · exact Or.inr (Or.inl h)
    · rcases hlonger ha hy with ⟨rfl, rfl⟩ | h
      · exact Or.inl ⟨rfl, rfl⟩
      · exact Or.inr (Or.inr h)
  · rintro (⟨rfl, rfl⟩ | ⟨z, rfl, rfl⟩ | ⟨z, rfl, rfl⟩)
    · rfl
    · simp only [String.append_assoc]
    · simp only [String.append_assoc]

/-- A number is not joined of anything. -/
theorem toString_ne_join (i : ℕ) (a b : String) : toString i ≠ a ++ "-" ++ b := by
  intro h
  have hmem : '-' ∈ (toString i).toList := by
    rw [h, toList_join]
    exact List.mem_append_right _ List.mem_cons_self
  rw [toList_toString] at hmem
  exact notMem_toDigits rfl i hmem

/-- **A name that ends in a number has one beginning.** -/
theorem join_toString_inj {a b : String} {i j : ℕ} :
    a ++ "-" ++ toString i = b ++ "-" ++ toString j ↔ a = b ∧ i = j := by
  rw [join_eq_join_iff, toString_inj]
  refine ⟨?_, Or.inl⟩
  rintro (h | ⟨z, -, h⟩ | ⟨z, -, h⟩)
  · exact h
  · exact absurd h (toString_ne_join _ _ _)
  · exact absurd h (toString_ne_join _ _ _)

end Keel
