import Keel.Common.Text
import Keel.Spec.Validate
/-!
# Valid names

What `validate_name` and `validate_volumes` accept, and when a name put
together from two valid ones is valid: the parts are always well spelt,
so only the length decides.
-/

namespace Keel

/-- Lowercase letters, digits and hyphens, with no hyphen at either end. -/
structure WellSpelt (cs : List Char) : Prop where
  chars : ∀ c ∈ cs, (isAsciiLowercase c || isAsciiDigit c || c == '-') = true
  head : cs.head?.any isAsciiAlphanumeric = true
  last : cs.getLast?.any isAsciiAlphanumeric = true

theorem WellSpelt.ne_nil {cs : List Char} (h : WellSpelt cs) : cs ≠ [] := by
  intro hnil
  have hhead := h.head
  rw [hnil] at hhead
  cases hhead

/-- **What a valid name is.** -/
theorem validateName_ok_iff {name : String} :
    validateName name = .ok () ↔ WellSpelt name.toList ∧ name.utf8ByteSize ≤ 63 := by
  simp only [validateName]
  split
  · rename_i hvalid
    simp only [Bool.and_eq_true, List.all_eq_true, decide_eq_true_eq] at hvalid
    obtain ⟨⟨⟨⟨-, hsize⟩, hchars⟩, hhead⟩, hlast⟩ := hvalid
    exact iff_of_true rfl ⟨⟨hchars, hhead, hlast⟩, hsize⟩
  · rename_i hinvalid
    constructor
    · intro h
      cases h
    · rintro ⟨hspelt, hsize⟩
      refine absurd ?_ hinvalid
      simp only [Bool.and_eq_true, List.all_eq_true, decide_eq_true_eq]
      refine ⟨⟨⟨⟨?_, hsize⟩, hspelt.chars⟩, hspelt.head⟩, hspelt.last⟩
      rintro rfl
      exact hspelt.ne_nil rfl

/-- A hyphen may join two well spelt names. -/
theorem WellSpelt.join {cs ds : List Char} (hcs : WellSpelt cs) (hds : WellSpelt ds) :
    WellSpelt (cs ++ '-' :: ds) := by
  refine ⟨?_, ?_, ?_⟩
  · intro c hc
    rcases List.mem_append.1 hc with hc | hc
    · exact hcs.chars c hc
    · rcases List.mem_cons.1 hc with rfl | hc
      · rfl
      · exact hds.chars c hc
  · have hhead := hcs.head
    obtain ⟨c, cs', rfl⟩ := List.exists_cons_of_ne_nil hcs.ne_nil
    exact hhead
  · have hlast : (cs ++ '-' :: ds).getLast? = ds.getLast? := by
      obtain ⟨d, ds', rfl⟩ := List.exists_cons_of_ne_nil hds.ne_nil
      rw [List.getLast?_append_of_ne_nil _ (List.cons_ne_nil _ _), List.getLast?_cons_cons]
    rw [hlast]
    exact hds.last

/-- Every index is well spelt. -/
theorem wellSpelt_toDigits (i : ℕ) : WellSpelt (Nat.toDigits 10 i) := by
  have hdigit : ∀ c ∈ Nat.toDigits 10 i, isAsciiDigit c = true := by
    intro c hc
    have := Nat.isDigit_of_mem_toDigits (by decide) (by decide) hc
    simpa [Char.isDigit, isAsciiDigit, Char.le_def] using this
  have hany : ∀ c ∈ Nat.toDigits 10 i, isAsciiAlphanumeric c = true := by
    intro c hc
    rw [isAsciiAlphanumeric, hdigit c hc, Bool.or_true]
  refine ⟨?_, ?_, ?_⟩
  · intro c hc
    rw [hdigit c hc, Bool.or_true, Bool.true_or]
  · rw [List.head?_eq_some_head Nat.toDigits_ne_nil]
    exact hany _ (List.head_mem _)
  · rw [List.getLast?_eq_some_getLast Nat.toDigits_ne_nil]
    exact hany _ (List.getLast_mem _)

theorem wellSpelt_toString (i : ℕ) : WellSpelt (toString i).toList := by
  rw [toList_toString]
  exact wellSpelt_toDigits i

/-- **Only the length decides** whether two joined names are a valid one. -/
theorem validateName_join {a b : String} (ha : WellSpelt a.toList) (hb : WellSpelt b.toList) :
    validateName (a ++ "-" ++ b) = .ok () ↔ a.utf8ByteSize + 1 + b.utf8ByteSize ≤ 63 := by
  have hspelt : WellSpelt (a ++ "-" ++ b).toList := by
    rw [toList_join]
    exact ha.join hb
  have hsize : (a ++ "-" ++ b).utf8ByteSize = a.utf8ByteSize + 1 + b.utf8ByteSize := by
    rw [String.utf8ByteSize_append, String.utf8ByteSize_append]
    rfl
  rw [validateName_ok_iff, hsize]
  exact and_iff_right hspelt

/-! ## Volumes -/

/-- **What a valid list of volumes is**, past the names already seen. -/
theorem validateVolumesFrom_ok_iff {volumes : List VolumeMount} :
    ∀ {seen : List String}, validateVolumesFrom seen volumes = .ok () ↔
      (∀ v ∈ volumes, validateName v.name = .ok () ∧ (parseZfsQuota v.size).isOk = true) ∧
        (volumes.map VolumeMount.name).Nodup ∧ ∀ v ∈ volumes, v.name ∉ seen := by
  induction volumes with
  | nil =>
    intro seen
    simp [validateVolumesFrom]
  | cons v vs ih =>
    intro seen
    simp only [validateVolumesFrom, bind, Except.bind, List.forall_mem_cons, List.map_cons,
      List.nodup_cons]
    cases hname : validateName v.name with
    | error e => simp
    | ok u =>
      by_cases hseen : v.name ∈ seen
      · simp [hseen, throw, throwThe, MonadExceptOf.throw]
      · cases hsize : parseZfsQuota v.size with
        | error e => simp [hseen, Except.isOk, Except.toBool]
        | ok n =>
          simp only [hseen, if_false, ih, List.mem_cons, not_or, List.mem_map, not_exists, not_and]
          constructor
          · rintro ⟨hvalid, hnodup, hfresh⟩
            exact ⟨⟨⟨trivial, rfl⟩, hvalid⟩, ⟨fun w hw => (hfresh w hw).1, hnodup⟩, not_false,
              fun w hw => (hfresh w hw).2⟩
          · rintro ⟨⟨-, hvalid⟩, ⟨hother, hnodup⟩, -, hfresh⟩
            exact ⟨hvalid, hnodup, fun w hw => ⟨hother w hw, hfresh w hw⟩⟩

theorem validateVolumes_ok_iff {volumes : List VolumeMount} :
    validateVolumes volumes = .ok () ↔
      (∀ v ∈ volumes, validateName v.name = .ok () ∧ (parseZfsQuota v.size).isOk = true) ∧
        (volumes.map VolumeMount.name).Nodup := by
  rw [validateVolumes, validateVolumesFrom_ok_iff]
  simp

end Keel
