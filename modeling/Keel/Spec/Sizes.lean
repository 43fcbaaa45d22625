import Mathlib.Data.Bool.AllAny
import Keel.Common.Result
import Keel.Spec.Names
/-!
# Sizes

A size is one or more digits with at most one of `K`, `M` and `G` behind
them, in either case: so many bytes, and not none. What reads the digits
is the standard library's parser of integers, which takes a plus sign
before them as well, and so does `parseMemoryBytes`: it reads the sizes,
and the sizes with a plus sign (`parseMemoryBytes_eq_ok_iff`).
-/

namespace Keel

/-! ## What a size is -/

/-- What may follow the digits, and the power of 1024 it stands for. -/
def units : List (List Char × ℕ) :=
  [([], 0), (['K'], 1), (['k'], 1), (['M'], 2), (['m'], 2), (['G'], 3), (['g'], 3)]

/-- The size of `v` bytes. -/
def IsSize (s : String) (v : ℕ) : Prop :=
  ∃ ds suffix k, s.toList = ds ++ suffix ∧ ds ≠ [] ∧ (∀ c ∈ ds, '0' ≤ c ∧ c ≤ '9') ∧
    (suffix, k) ∈ units ∧ Nat.ofDigitChars 10 ds 0 ≠ 0 ∧
    v = Nat.ofDigitChars 10 ds 0 * 1024 ^ k ∧ v < 2 ^ 64

/-- A size with a plus sign. -/
def IsSigned (s : String) : Prop := ∃ t v, s = "+" ++ t ∧ IsSize t v

/-! ## Digits -/

theorem isAsciiDigit_iff {c : Char} : isAsciiDigit c = true ↔ '0' ≤ c ∧ c ≤ '9' := by
  rw [isAsciiDigit, Bool.and_eq_true, decide_eq_true_eq, decide_eq_true_eq]

theorem digits?_eq_some_iff {ds : List Char} {n : ℕ} : digits? ds = some n ↔
    ds ≠ [] ∧ (∀ c ∈ ds, '0' ≤ c ∧ c ≤ '9') ∧ n = Nat.ofDigitChars 10 ds 0 := by
  cases ds with
  | nil => exact iff_of_false (fun h => by cases h) fun h => h.1 rfl
  | cons c ds =>
    have hall : (c :: ds).all isAsciiDigit = true ↔ ∀ d ∈ c :: ds, '0' ≤ d ∧ d ≤ '9' := by
      rw [List.all_eq_true]
      exact forall₂_congr fun d _ => isAsciiDigit_iff
    rw [← hall, digits?.eq_2 _ (List.cons_ne_nil c ds)]
    by_cases hdigits : (c :: ds).all isAsciiDigit = true
    · rw [if_pos hdigits, Option.some.injEq, and_iff_right (List.cons_ne_nil c ds),
        and_iff_right hdigits, eq_comm]
      rfl
    · rw [if_neg hdigits]
      exact iff_of_false (fun h => by cases h) fun h => hdigits h.2.1

/-- A small letter and its capital: neither is a digit or a sign. -/
theorem asciiUpper_of_lower {c : Char} (h : 'a' ≤ c ∧ c ≤ 'z') :
    (isAsciiDigit c = false ∧ isAsciiDigit (asciiUpper c) = false) ∧
      (c ≠ '+' ∧ asciiUpper c ≠ '+') ∧
      ∀ u ∈ ['K', 'M', 'G'], asciiUpper c = u ↔ c = u ∨ c = asciiLower u := by
  have hletters : ∀ n < 123, 97 ≤ n →
      (isAsciiDigit (Char.ofNat n) = false ∧ isAsciiDigit (asciiUpper (Char.ofNat n)) = false) ∧
        (Char.ofNat n ≠ '+' ∧ asciiUpper (Char.ofNat n) ≠ '+') ∧
        ['K', 'M', 'G'].all fun u => decide
          (asciiUpper (Char.ofNat n) = u ↔ Char.ofNat n = u ∨ Char.ofNat n = asciiLower u) := by
    decide +kernel
  have hlow : 97 ≤ c.toNat := h.1
  have hhigh : c.toNat ≤ 122 := h.2
  have hc := hletters c.toNat (by omega) hlow
  rwa [Char.ofNat_toNat, List.all_iff_forall_prop] at hc

theorem asciiUpper_of_not_lower {c : Char} (h : ¬ ('a' ≤ c ∧ c ≤ 'z')) : asciiUpper c = c := by
  rw [asciiUpper, if_neg (by simpa using h)]

theorem asciiUpper_eq_iff {c u : Char} (hu : u ∈ ['K', 'M', 'G']) :
    asciiUpper c = u ↔ c = u ∨ c = asciiLower u := by
  by_cases h : 'a' ≤ c ∧ c ≤ 'z'
  · exact (asciiUpper_of_lower h).2.2 u hu
  · have hlower : ∀ u ∈ ['K', 'M', 'G'], 'a' ≤ asciiLower u ∧ asciiLower u ≤ 'z' :=
      List.all_iff_forall_prop.1 (by decide)
    rw [asciiUpper_of_not_lower h]
    refine (or_iff_left ?_).symm
    rintro rfl
    exact h (hlower u hu)

theorem isAsciiDigit_asciiUpper (c : Char) : isAsciiDigit (asciiUpper c) = isAsciiDigit c := by
  by_cases h : 'a' ≤ c ∧ c ≤ 'z'
  · obtain ⟨⟨hc, hupper⟩, -, -⟩ := asciiUpper_of_lower h
    rw [hc, hupper]
  · rw [asciiUpper_of_not_lower h]

theorem asciiUpper_eq_plus_iff {c : Char} : asciiUpper c = '+' ↔ c = '+' := by
  by_cases h : 'a' ≤ c ∧ c ≤ 'z'
  · obtain ⟨-, ⟨hc, hupper⟩, -⟩ := asciiUpper_of_lower h
    exact iff_of_false hupper hc
  · rw [asciiUpper_of_not_lower h]

/-- The case makes no difference to a number. -/
theorem digits?_map_asciiUpper (cs : List Char) : digits? (cs.map asciiUpper) = digits? cs := by
  have hall : (cs.map asciiUpper).all isAsciiDigit = cs.all isAsciiDigit := by
    rw [List.all_map]
    exact congrArg (cs.all ·) (funext isAsciiDigit_asciiUpper)
  by_cases hdigits : cs.all isAsciiDigit = true
  · have hsame : cs.map asciiUpper = cs := by
      refine (List.map_congr_left fun c hc => ?_).trans (List.map_id cs)
      refine asciiUpper_of_not_lower fun h => ?_
      have hdigit := List.all_eq_true.1 hdigits c hc
      rw [(asciiUpper_of_lower h).1.1] at hdigit
      cases hdigit
    rw [hsame]
  · cases cs with
    | nil => rfl
    | cons c cs =>
      rw [digits?.eq_2 _ (List.cons_ne_nil c cs), if_neg hdigits, List.map_cons, digits?.eq_2 _
        (List.cons_ne_nil _ _), if_neg (by rwa [← List.map_cons, hall])]

/-! ## What is read -/

/-- What stands behind a plus sign, if there is one. -/
def unsigned (cs : List Char) : List Char := if cs.head? = some '+' then cs.tail else cs

theorem parseUnsigned_upper (bits : ℕ) (cs : List Char) :
    parseUnsigned bits (String.ofList (cs.map asciiUpper)) =
      (digits? (unsigned cs)).bind fun n => if n < 2 ^ bits then some n else none := by
  have hhead : (cs.map asciiUpper).head? = some '+' ↔ cs.head? = some '+' := by
    cases cs with
    | nil => rfl
    | cons c cs => simp only [List.map_cons, List.head?_cons, Option.some.injEq,
        asciiUpper_eq_plus_iff]
  rw [parseUnsigned, String.toList_ofList, unsigned]
  by_cases hplus : cs.head? = some '+'
  · rw [if_pos (hhead.2 hplus), if_pos hplus, ← List.map_tail, digits?_map_asciiUpper]
    rfl
  · rw [if_neg (mt hhead.1 hplus), if_neg hplus, digits?_map_asciiUpper]
    rfl

theorem exists_unit {u : Char} (hu : u ∈ ['K', 'M', 'G']) :
    ∃ k, ([u], k) ∈ units ∧ ([asciiLower u], k) ∈ units := by
  simp only [List.mem_cons, List.not_mem_nil, or_false] at hu
  rcases hu with rfl | rfl | rfl
  · exact ⟨1, by decide, by decide⟩
  · exact ⟨2, by decide, by decide⟩
  · exact ⟨3, by decide, by decide⟩

/-- A character that ends a text as a unit does. -/
def IsUnit (c : Char) : Prop := ∃ k, ([c], k) ∈ units

/-- A unit is one of six letters. -/
theorem mem_units_cons {c : Char} {rest : List Char} {k : ℕ} (h : (c :: rest, k) ∈ units) :
    rest = [] ∧ ((asciiUpper c = 'K' ∧ k = 1) ∨ (asciiUpper c = 'M' ∧ k = 2) ∨
      (asciiUpper c = 'G' ∧ k = 3)) := by
  revert h
  simp only [units, List.mem_cons, Prod.mk.injEq, reduceCtorEq, false_and, List.cons.injEq,
    List.not_mem_nil, or_false, false_or]
  rintro (⟨⟨rfl, rfl⟩, rfl⟩ | ⟨⟨rfl, rfl⟩, rfl⟩ | ⟨⟨rfl, rfl⟩, rfl⟩ | ⟨⟨rfl, rfl⟩, rfl⟩ |
    ⟨⟨rfl, rfl⟩, rfl⟩ | ⟨⟨rfl, rfl⟩, rfl⟩)
  · exact ⟨rfl, Or.inl ⟨rfl, rfl⟩⟩
  · exact ⟨rfl, Or.inl ⟨rfl, rfl⟩⟩
  · exact ⟨rfl, Or.inr (Or.inl ⟨rfl, rfl⟩)⟩
  · exact ⟨rfl, Or.inr (Or.inl ⟨rfl, rfl⟩)⟩
  · exact ⟨rfl, Or.inr (Or.inr ⟨rfl, rfl⟩)⟩
  · exact ⟨rfl, Or.inr (Or.inr ⟨rfl, rfl⟩)⟩

/-- A unit stands for one power. -/
theorem units_unique {suffix : List Char} {j k : ℕ} (hj : (suffix, j) ∈ units)
    (hk : (suffix, k) ∈ units) : j = k := by
  have hlookup : ∀ unit ∈ units, units.lookup unit.1 = some unit.2 := by decide
  exact Option.some.inj ((hlookup _ hj).symm.trans (hlookup _ hk))

/-- **How a text is taken apart**: into the part that is read as a number
and what the rest multiplies it with. -/
theorem numPart_eq {body suffix : List Char} {k : ℕ} (hk : (suffix, k) ∈ units)
    (hbare : suffix = [] → ∀ c, body.getLast? = some c → ¬ IsUnit c) :
    (if ((body ++ suffix).map asciiUpper).getLast? = some 'K' then
        (((body ++ suffix).map asciiUpper).dropLast, 1024)
      else if ((body ++ suffix).map asciiUpper).getLast? = some 'M' then
        (((body ++ suffix).map asciiUpper).dropLast, 1024 * 1024)
      else if ((body ++ suffix).map asciiUpper).getLast? = some 'G' then
        (((body ++ suffix).map asciiUpper).dropLast, 1024 * 1024 * 1024)
      else ((body ++ suffix).map asciiUpper, 1)) = (body.map asciiUpper, 1024 ^ k) := by
  cases suffix with
  | nil =>
    have hzero : k = 0 := by
      simpa [units] using hk
    have hnone : ∀ u ∈ ['K', 'M', 'G'], (body.map asciiUpper).getLast? ≠ some u := by
      intro u hu hlast
      rw [List.getLast?_map, Option.map_eq_some_iff] at hlast
      obtain ⟨c, hc, hcu⟩ := hlast
      obtain ⟨j, hupper, hlower⟩ := exists_unit hu
      rcases (asciiUpper_eq_iff hu).1 hcu with rfl | rfl
      · exact hbare rfl _ hc ⟨j, hupper⟩
      · exact hbare rfl _ hc ⟨j, hlower⟩
    rw [List.append_nil, if_neg (hnone 'K' (by decide)), if_neg (hnone 'M' (by decide)),
      if_neg (hnone 'G' (by decide)), hzero]
    rfl
  | cons c rest =>
    obtain ⟨rfl, hunit⟩ := mem_units_cons hk
    rw [List.map_append, List.map_singleton, List.getLast?_concat, List.dropLast_concat]
    rcases hunit with ⟨hc, rfl⟩ | ⟨hc, rfl⟩ | ⟨hc, rfl⟩
    · rw [hc, if_pos rfl]
      rfl
    · rw [hc, if_neg (by decide), if_pos rfl]
      rfl
    · rw [hc, if_neg (by decide), if_neg (by decide), if_pos rfl]
      rfl

variable {s : String} {v : ℕ}

/-- **What is read**, of a text taken apart. -/
theorem parseMemoryBytes_of_parts {body suffix : List Char} {k : ℕ}
    (hs : s.toList = body ++ suffix) (hk : (suffix, k) ∈ units)
    (hbare : suffix = [] → ∀ c, body.getLast? = some c → ¬ IsUnit c) :
    parseMemoryBytes s = .ok v ↔ ∃ n, digits? (unsigned body) = some n ∧ n ≠ 0 ∧
      v = n * 1024 ^ k ∧ v < 2 ^ 64 := by
  unfold parseMemoryBytes
  rw [hs]
  simp only [numPart_eq hk hbare, parseUnsigned_upper]
  cases hn : digits? (unsigned body) with
  | none => simp
  | some n =>
    have hle : n ≤ n * 1024 ^ k := Nat.le_mul_of_pos_right n (Nat.pow_pos (by decide))
    rw [Option.bind_some]
    simp only [Option.some.injEq, exists_eq_left']
    by_cases hlt : n < 2 ^ 64
    · rw [if_pos hlt]
      by_cases hzero : n = 0
      · simp [hzero]
      · by_cases hroom : n * 1024 ^ k < 2 ^ 64
        · simp only [if_neg hzero, if_pos hroom, Except.ok.injEq]
          constructor
          · rintro rfl
            exact ⟨hzero, rfl, hroom⟩
          · exact fun h => h.2.1.symm
        · simp only [if_neg hzero, if_neg hroom]
          refine iff_of_false (fun h => by cases h) ?_
          rintro ⟨-, rfl, h⟩
          exact hroom h
    · rw [if_neg hlt]
      refine iff_of_false (fun h => by cases h) ?_
      rintro ⟨-, rfl, h⟩
      omega

/-- Every text can be taken apart so. -/
theorem exists_parts (cs : List Char) : ∃ body suffix k, cs = body ++ suffix ∧
    (suffix, k) ∈ units ∧ (suffix = [] → ∀ c, body.getLast? = some c → ¬ IsUnit c) := by
  by_cases hunit : ∃ c, cs.getLast? = some c ∧ IsUnit c
  · obtain ⟨c, hlast, k, hk⟩ := hunit
    obtain ⟨body, rfl⟩ := List.getLast?_eq_some_iff.1 hlast
    exact ⟨body, [c], k, rfl, hk, fun h => absurd h (List.cons_ne_nil c [])⟩
  · exact ⟨cs, [], 0, (List.append_nil cs).symm, List.mem_cons_self,
      fun _ c hc h => hunit ⟨c, hc, h⟩⟩

/-- What a size is, of a text taken apart. -/
theorem isSize_of_parts {body suffix : List Char} {k : ℕ} (hs : s.toList = body ++ suffix)
    (hk : (suffix, k) ∈ units) (hbare : suffix = [] → ∀ c, body.getLast? = some c → ¬ IsUnit c) :
    IsSize s v ↔ ∃ n, digits? body = some n ∧ n ≠ 0 ∧ v = n * 1024 ^ k ∧ v < 2 ^ 64 := by
  constructor
  · rintro ⟨ds, unit, j, hds, hne, hdigits, hj, hsize⟩
    have hlast : ∀ c, ds.getLast? = some c → ¬ IsUnit c := by
      rintro c hc ⟨i, hi⟩
      have hdigit := isAsciiDigit_iff.2 (hdigits c (List.mem_of_getLast? hc))
      obtain ⟨-, hunit⟩ := mem_units_cons hi
      rw [← isAsciiDigit_asciiUpper] at hdigit
      rcases hunit with ⟨h, -⟩ | ⟨h, -⟩ | ⟨h, -⟩
      all_goals
        rw [h] at hdigit
        revert hdigit
        decide
    obtain ⟨rfl, rfl⟩ : ds = body ∧ unit = suffix := by
      have heq := hds.symm.trans hs
      cases unit with
      | nil =>
        cases suffix with
        | nil => simpa using heq
        | cons c rest =>
          obtain ⟨rfl, -⟩ := mem_units_cons hk
          rw [List.append_nil] at heq
          exact absurd ⟨k, hk⟩ (hlast c (by rw [heq, List.getLast?_concat]))
      | cons c rest =>
        obtain ⟨rfl, -⟩ := mem_units_cons hj
        cases suffix with
        | nil =>
          rw [List.append_nil] at heq
          exact absurd ⟨j, hj⟩ (hbare rfl c (by rw [← heq, List.getLast?_concat]))
        | cons c' rest =>
          obtain ⟨rfl, -⟩ := mem_units_cons hk
          exact List.append_inj' heq rfl
    obtain rfl := units_unique hj hk
    exact ⟨_, digits?_eq_some_iff.2 ⟨hne, hdigits, rfl⟩, hsize⟩
  · rintro ⟨n, hn, hsize⟩
    obtain ⟨hne, hdigits, rfl⟩ := digits?_eq_some_iff.1 hn
    exact ⟨body, suffix, k, hs, hne, hdigits, hk, hsize⟩

/-! ## The sizes that are read -/

theorem toList_plus (t : String) : ("+" ++ t).toList = '+' :: t.toList := by
  rw [String.toList_append]
  rfl

/-- A size begins with a digit. -/
theorem not_isSize_of_plus (t : String) : ¬ IsSize ("+" ++ t) v := by
  rintro ⟨ds, suffix, k, hs, hne, hdigits, -⟩
  obtain ⟨c, ds, rfl⟩ := List.exists_cons_of_ne_nil hne
  rw [toList_plus] at hs
  obtain rfl : '+' = c := (List.cons.inj hs).1
  exact absurd (hdigits '+' List.mem_cons_self) (by decide)

/-- **`parse_memory_bytes` reads the sizes**, with or without a plus sign. -/
theorem parseMemoryBytes_eq_ok_iff : parseMemoryBytes s = .ok v ↔
    IsSize s v ∨ ∃ t, s = "+" ++ t ∧ IsSize t v := by
  obtain ⟨body, suffix, k, hs, hk, hbare⟩ := exists_parts s.toList
  rw [parseMemoryBytes_of_parts hs hk hbare]
  by_cases hplus : body.head? = some '+'
  · obtain ⟨rest, rfl⟩ := List.head?_eq_some_iff.1 hplus
    have ht : s = "+" ++ String.ofList (rest ++ suffix) := by
      refine String.toList_injective ?_
      rw [hs, toList_plus, String.toList_ofList, List.cons_append]
    have hrest : IsSize (String.ofList (rest ++ suffix)) v ↔
        ∃ n, digits? rest = some n ∧ n ≠ 0 ∧ v = n * 1024 ^ k ∧ v < 2 ^ 64 := by
      refine isSize_of_parts (String.toList_ofList) hk fun hnil c hc => hbare hnil c ?_
      cases rest with
      | nil => cases hc
      | cons d rest => rw [List.getLast?_cons_cons, hc]
    rw [unsigned, if_pos hplus, List.tail_cons, ← hrest, ht]
    rw [or_iff_right (not_isSize_of_plus _)]
    constructor
    · exact fun h => ⟨_, rfl, h⟩
    · rintro ⟨t, heq, hsize⟩
      rwa [(String.append_right_inj "+").1 heq]
  · rw [unsigned, if_neg hplus, isSize_of_parts hs hk hbare]
    refine (or_iff_left ?_).symm
    rintro ⟨t, rfl, -⟩
    rw [toList_plus] at hs
    cases body with
    | nil =>
      rw [List.nil_append] at hs
      rw [← hs] at hk
      obtain ⟨-, hunit⟩ := mem_units_cons hk
      rcases hunit with ⟨h, -⟩ | ⟨h, -⟩ | ⟨h, -⟩
      all_goals exact absurd h (by decide)
    | cons c rest => exact hplus (by rw [List.head?_cons, (List.cons.inj hs).1])

/-- It reads the sizes and nothing else exactly where no sign stands before
one. -/
theorem parseMemoryBytes_exact_iff (s : String) :
    (∀ v, parseMemoryBytes s = .ok v ↔ IsSize s v) ↔ ¬ IsSigned s := by
  constructor
  · rintro h ⟨t, v, rfl, hsize⟩
    exact not_isSize_of_plus t ((h v).1 (parseMemoryBytes_eq_ok_iff.2 (Or.inr ⟨t, rfl, hsize⟩)))
  · intro h v
    rw [parseMemoryBytes_eq_ok_iff]
    exact or_iff_left fun ⟨t, ht, hsize⟩ => h ⟨t, v, ht, hsize⟩

/-- The sizes of valid volumes are sizes exactly where none has a sign. -/
theorem sizes_of_validateVolumes {volumes : List VolumeMount}
    (h : validateVolumes volumes = .ok ()) :
    (∀ v ∈ volumes, ∃ n, IsSize v.size n) ↔ ∀ v ∈ volumes, ¬ IsSigned v.size := by
  have hread : ∀ v ∈ volumes, ∃ n, parseMemoryBytes v.size = .ok n := fun v hv =>
    isOk_iff_exists.1 ((validateVolumes_ok_iff.1 h).1 v hv).2
  refine forall₂_congr fun v hv => ?_
  obtain ⟨n, hn⟩ := hread v hv
  constructor
  · rintro ⟨m, hm⟩ ⟨t, k, ht, -⟩
    rw [ht] at hm
    exact not_isSize_of_plus t hm
  · exact fun hunsigned => ⟨n, ((parseMemoryBytes_exact_iff v.size).2 hunsigned n).1 hn⟩

end Keel
