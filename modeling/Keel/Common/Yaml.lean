import Mathlib.Data.List.DropRight
import Mathlib.Data.Rat.Defs
import Mathlib.Algebra.Field.Rat
import Mathlib.Algebra.Order.Ring.Rat
import Keel.Common.Codec
import Keel.Common.Text
/-!
# Plain scalars

A value in YAML 1.2 that is written without quotes, as what stands on a
line behind a key: the text up to a comment, less the white space around
it, and what the core schema resolves it to. A text that is read back as
the string it is (`SelfPlain`) can be put behind a key as it is, and no
other one that does not start with an indicator can
(`plain?_eq_str_iff`).
-/

namespace Keel

namespace Yaml

/-- A scalar, by the core schema. -/
inductive Scalar
  | null
  | bool (b : Bool)
  | int (n : ℤ)
  | float (v : ℚ)
  /-- `.inf` with a sign, or `.nan`. -/
  | special (text : String)
  | str (s : String)
deriving DecidableEq

/-! ## Resolution -/

def isDigit (c : Char) : Bool := '0' ≤ c && c ≤ '9'

/-- The number that digits spell in a base. -/
def ofDigits (base : ℕ) (ds : List Char) : ℕ :=
  ds.foldl (fun n c => base * n + if isDigit c then c.toNat - 48 else c.toLower.toNat - 87) 0

def negate (negative : Bool) {α : Type} [Neg α] (a : α) : α := if negative then -a else a

/-- A sign in front, if there is one, and what is behind it. -/
def sign : List Char → Bool × List Char
  | '-' :: cs => (true, cs)
  | '+' :: cs => (false, cs)
  | cs => (false, cs)

def isHex (c : Char) : Bool := isDigit c || ('a' ≤ c && c ≤ 'f') || ('A' ≤ c && c ≤ 'F')

/-- `[-+]? [0-9]+`, `0o [0-7]+` or `0x [0-9a-fA-F]+`. -/
def int? (cs : List Char) : Option ℤ :=
  match cs with
  | '0' :: 'o' :: ds =>
    if ds ≠ [] && ds.all fun c => '0' ≤ c && c ≤ '7' then some (ofDigits 8 ds) else none
  | '0' :: 'x' :: ds => if ds ≠ [] && ds.all isHex then some (ofDigits 16 ds) else none
  | cs =>
    let (negative, ds) := sign cs
    if ds ≠ [] && ds.all isDigit then some (negate negative (ofDigits 10 ds : ℤ)) else none

/-- `( [eE] [-+]? [0-9]+ )?` -/
def exponent? : List Char → Option ℤ
  | [] => some 0
  | e :: cs =>
    let (negative, ds) := sign cs
    if (e = 'e' || e = 'E') && ds ≠ [] && ds.all isDigit then
      some (negate negative (ofDigits 10 ds : ℤ)) else none

/-- `( \. [0-9]+ | [0-9]+ ( \. [0-9]* )? ) ( [eE] [-+]? [0-9]+ )?` -/
def unsignedFloat? (cs : List Char) : Option ℚ :=
  let whole := cs.takeWhile isDigit
  let rest := cs.dropWhile isDigit
  let point := rest.head? = some '.'
  let fraction := if point then rest.tail.takeWhile isDigit else []
  if whole = [] && fraction = [] then none
  else
    (exponent? (if point then rest.tail.dropWhile isDigit else rest)).map fun e : ℤ =>
      (ofDigits 10 (whole ++ fraction) : ℚ) * (10 : ℚ) ^ (e - fraction.length)

/-- A float without a sign, or behind one. -/
def float? (cs : List Char) : Option ℚ := (unsignedFloat? (sign cs).2).map (negate (sign cs).1)

/-- `[-+]? ( \.inf | \.Inf | \.INF ) | \.nan | \.NaN | \.NAN` -/
def isSpecial (s : String) : Bool :=
  String.ofList (sign s.toList).2 ∈ [".inf", ".Inf", ".INF"] || s ∈ [".nan", ".NaN", ".NAN"]

/-- The number a scalar is, if it is a finite one. -/
def Scalar.number? : Scalar → Option ℚ
  | .int n => some n
  | .float v => some v
  | _ => none

/-- What the core schema takes a text for. -/
def resolve (s : String) : Scalar :=
  if s ∈ ["", "~", "null", "Null", "NULL"] then .null
  else if s ∈ ["true", "True", "TRUE"] then .bool true
  else if s ∈ ["false", "False", "FALSE"] then .bool false
  else match int? s.toList with
    | some n => .int n
    | none => match float? s.toList with
      | some v => .float v
      | none => if isSpecial s then .special s else .str s

/-! ## Presentation -/

def isWhite (c : Char) : Bool := c = ' ' || c = '\t'

/-- A character that may stand on a line. -/
def isNb (c : Char) : Bool :=
  let n := c.toNat
  n == 0x9 || (0x20 ≤ n && n ≤ 0x7E) || n == 0x85 || (0xA0 ≤ n && n ≤ 0xD7FF) ||
    (0xE000 ≤ n && n ≤ 0xFFFD && n != 0xFEFF) || 0x10000 ≤ n

/-- Without the comment, which starts with a `#` that has white space in
front of it. -/
def cutComment : Bool → List Char → List Char
  | _, [] => []
  | white, c :: cs => if white && c = '#' then [] else c :: cutComment (isWhite c) cs

def trim (cs : List Char) : List Char :=
  ((cs.dropWhile isWhite).reverse.dropWhile isWhite).reverse

/-- What is presented, behind a key and the white space after it. -/
def content (cs : List Char) : List Char := trim (cutComment true cs)

/-- A key of its own: a `:` with white space behind it, or nothing. -/
def hasKey : List Char → Bool
  | [] => false
  | c :: cs => (c = ':' && cs.head?.all isWhite) || hasKey cs

/-- What no plain scalar starts with. -/
def isIndicator (c : Char) : Bool := c ∈ ",[]\x7b\x7d&*!|>'\"%@\x60".toList

/-- What one starts with only where it goes on at once. -/
def isJoint (c : Char) : Bool := c ∈ "-?:".toList

def startsStyled : List Char → Bool
  | [] => false
  | c :: cs => isIndicator c || (isJoint c && cs.head?.all isWhite)

/-- The value behind a key is not a plain one: it starts with an
indicator. -/
def isStyled (s : String) : Bool := startsStyled (s.toList.dropWhile isWhite)

/-- A text that may stand on a line. -/
def OneLine (s : String) : Prop := '\n' ∉ s.toList ∧ '\r' ∉ s.toList

instance (s : String) : Decidable (OneLine s) :=
  inferInstanceAs (Decidable (_ ∧ _))

/-- The scalar that a plain value is. -/
def plain? (s : String) : Option Scalar :=
  if !isStyled s && s.toList.all isNb && !hasKey (content s.toList) then
    some (resolve (String.ofList (content s.toList)))
  else none

/-! ## Texts that are the strings they present -/

/-- A `#` that starts a comment. -/
def hasComment : Bool → List Char → Bool
  | _, [] => false
  | white, c :: cs => (white && c = '#') || hasComment (isWhite c) cs

/-- **A text that is read back as the string it is**, behind a key. -/
structure SelfPlain (s : String) : Prop where
  plain : isStyled s = false
  printable : ∀ c ∈ s.toList, isNb c = true
  comment : hasComment true s.toList = false
  first : ∀ c, s.toList.head? = some c → isWhite c = false
  last : ∀ c, s.toList.getLast? = some c → isWhite c = false
  key : hasKey s.toList = false
  string : resolve s = .str s

theorem begins_cutComment (white : Bool) (cs : List Char) : cutComment white cs <+: cs := by
  induction cs generalizing white with
  | nil => exact List.prefix_rfl
  | cons c cs ih =>
    unfold cutComment
    split
    · exact List.nil_prefix
    · exact (List.prefix_cons_inj c).2 (ih _)

theorem cutComment_eq_self_iff {white : Bool} {cs : List Char} :
    cutComment white cs = cs ↔ hasComment white cs = false := by
  induction cs generalizing white with
  | nil => exact iff_of_true rfl rfl
  | cons c cs ih =>
    unfold cutComment hasComment
    by_cases h : (white && c = '#') = true
    · rw [if_pos h, h]
      exact iff_of_false (by simp) (by simp)
    · rw [if_neg h, Bool.eq_false_iff.2 h, Bool.false_or, List.cons.injEq, ih]
      exact and_iff_right rfl

theorem length_trim_le (cs : List Char) : (trim cs).length ≤ cs.length :=
  (List.rdropWhile_prefix isWhite _).length_le.trans (List.dropWhile_suffix isWhite).length_le

/-- No white space is taken off where there is none at either end. -/
theorem trim_eq_self_iff {cs : List Char} : trim cs = cs ↔
    (∀ c, cs.head? = some c → isWhite c = false) ∧
      ∀ c, cs.getLast? = some c → isWhite c = false := by
  have hfirst : cs.dropWhile isWhite = cs ↔ ∀ c, cs.head? = some c → isWhite c = false := by
    rw [List.dropWhile_eq_self_iff]
    cases cs <;> simp
  have hlast : cs.rdropWhile isWhite = cs ↔ ∀ c, cs.getLast? = some c → isWhite c = false := by
    rw [List.rdropWhile_eq_self_iff]
    cases cs <;> simp [List.getLast?_eq_some_getLast]
  rw [← hfirst, ← hlast]
  change (cs.dropWhile isWhite).rdropWhile isWhite = cs ↔ _
  constructor
  · intro h
    -- What is left at the end is a beginning of what was left at the start.
    have hlen := (List.rdropWhile_prefix isWhite (cs.dropWhile isWhite)).length_le
    rw [h] at hlen
    have hwhole : cs.dropWhile isWhite = cs := (List.dropWhile_suffix isWhite).eq_of_length_le hlen
    exact ⟨hwhole, by rwa [hwhole] at h⟩
  · rintro ⟨hwhole, hend⟩
    rw [hwhole, hend]

/-- **What is presented is the whole text** where there is no comment and
no white space at either end. -/
theorem content_eq_self_iff {cs : List Char} : content cs = cs ↔
    hasComment true cs = false ∧ (∀ c, cs.head? = some c → isWhite c = false) ∧
      ∀ c, cs.getLast? = some c → isWhite c = false := by
  unfold content
  rw [← cutComment_eq_self_iff, ← trim_eq_self_iff]
  constructor
  · intro h
    have hcut : cutComment true cs = cs := by
      refine (begins_cutComment true cs).eq_of_length_le ?_
      exact (congrArg List.length h).symm.le.trans (length_trim_le _)
    rw [hcut] at h
    exact ⟨hcut, h⟩
  · rintro ⟨hcut, htrim⟩
    rw [hcut, htrim]

/-- What is taken for a string is that string. -/
theorem eq_of_resolve {s t : String} (h : resolve s = .str t) : s = t := by
  unfold resolve at h
  split at h
  · cases h
  · split at h
    · cases h
    · split at h
      · cases h
      · split at h
        · cases h
        · split at h
          · cases h
          · split at h <;> cases h
            rfl

/-- **A value is the string that its text is** if, and only if, the text
is one that presents itself. -/
theorem plain?_eq_str_iff {s : String} : plain? s = some (.str s) ↔ SelfPlain s := by
  unfold plain?
  constructor
  · intro h
    split at h
    · rename_i hplain
      obtain ⟨hplain, hkey⟩ := Bool.and_eq_true_iff.1 hplain
      obtain ⟨hstyled, hnb⟩ := Bool.and_eq_true_iff.1 hplain
      have hresolve := Option.some.inj h
      have hcontent : content s.toList = s.toList := by
        have heq := congrArg String.toList (eq_of_resolve hresolve)
        rwa [String.toList_ofList] at heq
      rw [hcontent, String.ofList_toList] at hresolve
      rw [hcontent] at hkey
      obtain ⟨hcomment, hfirst, hlast⟩ := content_eq_self_iff.1 hcontent
      exact ⟨by simpa using hstyled, List.all_eq_true.1 hnb, hcomment, hfirst, hlast,
        by simpa using hkey, hresolve⟩
    · cases h
  · intro h
    have hcontent := content_eq_self_iff.2 ⟨h.comment, h.first, h.last⟩
    rw [hcontent, h.plain, h.key, List.all_eq_true.2 h.printable, String.ofList_toList, h.string]
    rfl

/-- A plain value is none that starts with an indicator. -/
theorem isStyled_of_plain? {s : String} {v : Scalar} (h : plain? s = some v) :
    isStyled s = false := by
  unfold plain? at h
  split at h
  · rename_i hplain
    have hstyled := (Bool.and_eq_true_iff.1 (Bool.and_eq_true_iff.1 hplain).1).1
    simpa using hstyled
  · cases h

/-- It stands on one line. -/
theorem oneLine_of_plain? {s : String} {v : Scalar} (h : plain? s = some v) : OneLine s := by
  unfold plain? at h
  split at h
  · rename_i hplain
    have hnb := List.all_eq_true.1
      (Bool.and_eq_true_iff.1 (Bool.and_eq_true_iff.1 hplain).1).2
    exact ⟨fun hmem => absurd (hnb _ hmem) (by decide), fun hmem => absurd (hnb _ hmem) (by decide)⟩
  · cases h

/-! ## Numbers -/

/-- A number in decimal. -/
def decimal (negative : Bool) (whole : ℕ) (fraction : List (Fin 10)) : String :=
  (if negative then "-" else "") ++ toString whole ++
    if fraction = [] then ""
    else "." ++ String.ofList (fraction.map fun d => Nat.digitChar d.val)

theorem toList_decimal (negative : Bool) (whole : ℕ) (fraction : List (Fin 10)) :
    (decimal negative whole fraction).toList = (if negative then ['-'] else []) ++
      (Nat.toDigits 10 whole ++ if fraction = [] then []
        else '.' :: fraction.map fun d => Nat.digitChar d.val) := by
  unfold decimal
  rw [String.toList_append, String.toList_append, toList_toString, List.append_assoc]
  congr 1
  · cases negative <;> rfl
  · congr 1
    split
    · rfl
    · simp

theorem isDigit_toDigits {n : ℕ} {c : Char} (h : c ∈ Nat.toDigits 10 n) : isDigit c = true := by
  have hdigit := Nat.isDigit_of_mem_toDigits (by decide) (by decide) h
  simpa [Char.isDigit, isDigit, Char.le_def] using hdigit

/-- A number has a first digit. -/
theorem exists_digits (n : ℕ) : ∃ c ds, Nat.toDigits 10 n = c :: ds ∧ isDigit c = true := by
  obtain ⟨c, ds, hds⟩ := List.exists_cons_of_ne_nil (Nat.toDigits_ne_nil (b := 10) (n := n))
  exact ⟨c, ds, hds, isDigit_toDigits (by rw [hds]; exact List.mem_cons_self)⟩

theorem isDigit_digitChar (d : Fin 10) : isDigit (Nat.digitChar d.val) = true := by
  revert d
  decide

theorem takeWhile_digits {ds rest : List Char} (h : ∀ c ∈ ds, isDigit c = true)
    (hrest : ∀ c, rest.head? = some c → isDigit c = false) :
    (ds ++ rest).takeWhile isDigit = ds ∧ (ds ++ rest).dropWhile isDigit = rest := by
  rw [List.takeWhile_append_of_pos h, List.dropWhile_append_of_pos h]
  cases rest with
  | nil => exact ⟨List.append_nil ds, rfl⟩
  | cons c rest =>
    have hc := hrest c rfl
    rw [List.takeWhile_cons, List.dropWhile_cons, hc]
    exact ⟨List.append_nil ds, rfl⟩

/-- Digits, and more digits behind a point. -/
theorem unsignedFloat?_decimal (whole : ℕ) (fraction : List (Fin 10)) :
    (unsignedFloat? (Nat.toDigits 10 whole ++ if fraction = [] then []
      else '.' :: fraction.map fun d => Nat.digitChar d.val)).isSome = true := by
  have hwhole : ∀ c ∈ Nat.toDigits 10 whole, isDigit c = true := fun c hc => isDigit_toDigits hc
  have hne : Nat.toDigits 10 whole ≠ [] := Nat.toDigits_ne_nil
  unfold unsignedFloat?
  by_cases hfraction : fraction = []
  · obtain ⟨htake, hdrop⟩ := @takeWhile_digits _ [] hwhole fun c hc => by cases hc
    rw [if_pos hfraction, htake, hdrop]
    simp [hne, exponent?]
  · have hdigits : ∀ c ∈ fraction.map (fun d => Nat.digitChar d.val), isDigit c = true := by
      intro c hc
      obtain ⟨d, -, rfl⟩ := List.mem_map.1 hc
      exact isDigit_digitChar d
    obtain ⟨htake, hdrop⟩ := @takeWhile_digits _ ('.' :: fraction.map fun d => Nat.digitChar d.val)
      hwhole fun c hc => by cases hc; rfl
    obtain ⟨htake', hdrop'⟩ := @takeWhile_digits _ [] hdigits fun c hc => by cases hc
    rw [List.append_nil] at htake' hdrop'
    rw [if_neg hfraction, htake, hdrop]
    simp [hne, htake', hdrop', exponent?]

theorem sign_of_isDigit {cs : List Char} {c : Char} (hc : isDigit c = true)
    (h : cs.head? = some c) : sign cs = (false, cs) := by
  unfold sign
  split
  · cases h
    exact absurd hc (by decide)
  · cases h
    exact absurd hc (by decide)
  · rfl

theorem float?_decimal (negative : Bool) (whole : ℕ) (fraction : List (Fin 10)) :
    (float? (decimal negative whole fraction).toList).isSome = true := by
  have hunsigned := unsignedFloat?_decimal whole fraction
  obtain ⟨c, ds, hds, hc⟩ := exists_digits whole
  rw [toList_decimal]
  unfold float?
  rw [Option.isSome_map]
  cases negative with
  | true => exact hunsigned
  | false =>
    rw [if_neg (by decide), List.nil_append, sign_of_isDigit hc (by rw [hds]; rfl)]
    exact hunsigned

/-- A text that starts like a number is no other word. -/
theorem resolve_of_head {s : String} {c : Char} (h : s.toList.head? = some c)
    (hc : isDigit c = true ∨ c = '-') : resolve s = match int? s.toList with
      | some n => .int n
      | none => match float? s.toList with
        | some v => .float v
        | none => if isSpecial s then .special s else .str s := by
  have hword : ∀ words : List String,
      (words.all fun w => w.toList.head?.all fun c => !isDigit c && c != '-') = true →
        s ∉ words := by
    intro words hwords hmem
    have hhead := List.all_eq_true.1 hwords s hmem
    rw [h] at hhead
    rcases hc with hc | rfl
    · simp [hc] at hhead
    · exact absurd hhead (by decide)
  unfold resolve
  rw [if_neg (hword _ (by decide +kernel)), if_neg (hword _ (by decide +kernel)),
    if_neg (hword _ (by decide +kernel))]

/-- **A decimal is a number.** -/
theorem number?_resolve_decimal (negative : Bool) (whole : ℕ) (fraction : List (Fin 10)) :
    ((resolve (decimal negative whole fraction)).number?).isSome = true := by
  obtain ⟨v, hv⟩ := Option.isSome_iff_exists.1 (float?_decimal negative whole fraction)
  obtain ⟨c, ds, hds, hc⟩ := exists_digits whole
  have hresolve : resolve (decimal negative whole fraction) =
      match int? (decimal negative whole fraction).toList with
      | some n => .int n
      | none => .float v := by
    cases negative with
    | true =>
      have hhead : (decimal true whole fraction).toList.head? = some '-' := by
        rw [toList_decimal]
        rfl
      rw [resolve_of_head hhead (.inr rfl), hv]
    | false =>
      have hhead : (decimal false whole fraction).toList.head? = some c := by
        rw [toList_decimal, hds]
        rfl
      rw [resolve_of_head hhead (.inl hc), hv]
  rw [hresolve]
  cases int? (decimal negative whole fraction).toList <;> rfl

theorem ofDigits_toDigits (n : ℕ) : ofDigits 10 (Nat.toDigits 10 n) = n := by
  have hvalue : (Nat.toDigits 10 n).foldl (fun n c => 10 * n + (c.toNat - '0'.toNat)) 0 = n :=
    Nat.ofDigitChars_toDigits (by decide) (by decide)
  conv_rhs => rw [← hvalue]
  refine List.foldl_ext _ _ _ fun m c hc => ?_
  rw [if_pos (isDigit_toDigits hc)]
  rfl

/-- **A natural number is the integer it is.** -/
theorem resolve_toString (n : ℕ) : resolve (toString n) = .int n := by
  obtain ⟨c, ds, hds, hc⟩ := exists_digits n
  have hall : ∀ c ∈ Nat.toDigits 10 n, isDigit c = true := fun c hc => isDigit_toDigits hc
  have hint : int? (Nat.toDigits 10 n) = some (n : ℤ) := by
    unfold int?
    split
    · rename_i ds hbase
      exact absurd (hall 'o' (by rw [hbase]; simp)) (by decide)
    · rename_i ds hbase
      exact absurd (hall 'x' (by rw [hbase]; simp)) (by decide)
    · rw [sign_of_isDigit hc (by rw [hds]; rfl)]
      simp only [ofDigits_toDigits, List.all_eq_true.2 hall, negate]
      rw [if_pos (by simp [Nat.toDigits_ne_nil])]
      rfl
  rw [resolve_of_head (by rw [toList_toString, hds]; rfl) (.inl hc), toList_toString, hint]

/-- A character that presents itself wherever it stands. -/
def isSimple (c : Char) : Bool := isNb c && !isWhite c && c != '#' && c != ':'

theorem isSimple_of_isDigit {c : Char} (h : isDigit c = true) : isSimple c = true := by
  obtain ⟨hlow, hhigh⟩ := Bool.and_eq_true_iff.1 h
  have hle : 48 ≤ c.toNat ∧ c.toNat ≤ 57 :=
    ⟨UInt32.le_iff_toNat_le.1 (Char.le_def.1 (of_decide_eq_true hlow)),
      UInt32.le_iff_toNat_le.1 (Char.le_def.1 (of_decide_eq_true hhigh))⟩
  have hne : ∀ d : Char, isDigit d = false → c ≠ d := by
    rintro d hd rfl
    rw [h] at hd
    cases hd
  have hnb : isNb c = true := by
    simp only [isNb, Bool.or_eq_true, Bool.and_eq_true, decide_eq_true_eq]
    omega
  simp [isSimple, isWhite, hnb, hne ' ' rfl, hne '\t' rfl, hne '#' rfl, hne ':' rfl]

theorem hasComment_of_forall {cs : List Char} (h : ∀ c ∈ cs, c ≠ '#') (white : Bool) :
    hasComment white cs = false := by
  induction cs generalizing white with
  | nil => rfl
  | cons c cs ih =>
    unfold hasComment
    rw [ih (fun d hd => h d (List.mem_cons_of_mem c hd)),
      decide_eq_false (h c List.mem_cons_self), Bool.and_false, Bool.false_or]

theorem hasKey_of_forall {cs : List Char} (h : ∀ c ∈ cs, c ≠ ':') : hasKey cs = false := by
  induction cs with
  | nil => rfl
  | cons c cs ih =>
    unfold hasKey
    rw [ih (fun d hd => h d (List.mem_cons_of_mem c hd)),
      decide_eq_false (h c List.mem_cons_self), Bool.false_and, Bool.false_or]

/-- What has only such characters is presented as it is. -/
theorem plain?_of_simple {s : String} (hplain : isStyled s = false)
    (hs : ∀ c ∈ s.toList, isSimple c = true) : plain? s = some (resolve s) := by
  have h : ∀ c ∈ s.toList, isNb c = true ∧ isWhite c = false ∧ c ≠ '#' ∧ c ≠ ':' := by
    intro c hc
    have hsimple := hs c hc
    simp only [isSimple, Bool.and_eq_true, Bool.not_eq_true', bne_iff_ne] at hsimple
    exact ⟨hsimple.1.1.1, hsimple.1.1.2, hsimple.1.2, hsimple.2⟩
  have hcontent : content s.toList = s.toList :=
    content_eq_self_iff.2 ⟨hasComment_of_forall (fun c hc => (h c hc).2.2.1) true,
      fun c hc => (h c (List.mem_of_head? hc)).2.1,
      fun c hc => (h c (List.mem_of_getLast? hc)).2.1⟩
  unfold plain?
  rw [hplain, hcontent, hasKey_of_forall fun c hc => (h c hc).2.2.2,
    List.all_eq_true.2 fun c hc => (h c hc).1, String.ofList_toList]
  rfl

theorem isWhite_of_isDigit {c : Char} (h : isDigit c = true) : isWhite c = false := by
  have hsimple := isSimple_of_isDigit h
  simp only [isSimple, Bool.and_eq_true, Bool.not_eq_true'] at hsimple
  exact hsimple.1.1.2

theorem startsStyled_of_isDigit {c : Char} (h : isDigit c = true) (cs : List Char) :
    startsStyled (c :: cs) = false := by
  have hnone : ∀ ds : List Char, (ds.all fun d => !isDigit d) = true → c ∉ ds := by
    intro ds hds hmem
    have hc := List.all_eq_true.1 hds c hmem
    rw [h] at hc
    cases hc
  have hindicator : isIndicator c = false := decide_eq_false (hnone _ (by decide +kernel))
  have hjoint : isJoint c = false := decide_eq_false (hnone _ (by decide +kernel))
  rw [startsStyled, hindicator, hjoint, Bool.false_and, Bool.or_self]

/-- A decimal starts with no indicator. -/
theorem isStyled_decimal (negative : Bool) (whole : ℕ) (fraction : List (Fin 10)) :
    isStyled (decimal negative whole fraction) = false := by
  obtain ⟨c, ds, hds, hc⟩ := exists_digits whole
  unfold isStyled
  rw [toList_decimal, hds, List.cons_append]
  cases negative with
  | true =>
    have hminus : isIndicator '-' = false := by decide +kernel
    change startsStyled ('-' :: c :: _) = false
    rw [startsStyled, hminus, List.head?_cons, Option.all_some, isWhite_of_isDigit hc,
      Bool.and_false, Bool.or_self]
  | false =>
    rw [if_neg (by decide), List.nil_append, List.dropWhile_cons,
      if_neg (by rw [isWhite_of_isDigit hc]; decide)]
    exact startsStyled_of_isDigit hc _

theorem toString_eq_decimal (n : ℕ) : toString n = decimal false n [] := by
  rw [← String.toList_inj, toList_decimal, toList_toString]
  simp

theorem plain?_decimal (negative : Bool) (whole : ℕ) (fraction : List (Fin 10)) :
    plain? (decimal negative whole fraction) =
      some (resolve (decimal negative whole fraction)) := by
  refine plain?_of_simple (isStyled_decimal negative whole fraction) fun c hc => ?_
  rw [toList_decimal] at hc
  rcases List.mem_append.1 hc with hc | hc
  · cases negative <;> simp at hc
    rw [hc]
    decide
  · rcases List.mem_append.1 hc with hc | hc
    · exact isSimple_of_isDigit (isDigit_toDigits hc)
    · split at hc
      · cases hc
      · rcases List.mem_cons.1 hc with rfl | hc
        · decide
        · obtain ⟨d, -, rfl⟩ := List.mem_map.1 hc
          exact isSimple_of_isDigit (isDigit_digitChar d)

theorem plain?_toString (n : ℕ) : plain? (toString n) = some (.int n) := by
  have hplain := plain?_decimal false n []
  rwa [← toString_eq_decimal, resolve_toString] at hplain

/-! ## Mappings of one line each -/

def line (entry : String × String) : List Char :=
  entry.1.toList ++ ':' :: ' ' :: entry.2.toList

/-- A mapping, as a block of lines. -/
def render (entries : List (String × String)) : String :=
  String.ofList (entries.flatMap fun entry => line entry ++ ['\n'])

/-- The lines of a text that ends with one. -/
def lines (s : String) : List (List Char) := (s.toList.splitOn '\n').dropLast

/-- A key, and what is behind it. -/
def entry? (cs : List Char) : Option (String × String) :=
  match cs.dropWhile (· ≠ ':') with
  | ':' :: ' ' :: value => some (String.ofList (cs.takeWhile (· ≠ ':')), String.ofList value)
  | _ => none

def entries? (s : String) : Option (List (String × String)) := (lines s).mapM entry?

/-- **The entries of a mapping** are found again, where each is on one
line. -/
theorem entries?_render {entries : List (String × String)}
    (h : ∀ e ∈ entries, '\n' ∉ e.1.toList ∧ ':' ∉ e.1.toList ∧ '\n' ∉ e.2.toList) :
    entries? (render entries) = some entries := by
  have hentry : ∀ e ∈ entries, entry? (line e) = some e := by
    intro e he
    have hkey : ∀ c ∈ e.1.toList, decide (c ≠ ':') = true := fun c hc =>
      decide_eq_true fun heq => (h e he).2.1 (heq ▸ hc)
    unfold entry? line
    rw [List.dropWhile_append_of_pos hkey, List.takeWhile_append_of_pos hkey]
    simp
  have hline : ∀ e ∈ entries, '\n' ∉ line e := by
    intro e he
    simp [line, (h e he).1, (h e he).2.2]
  have hsplit : ∀ es : List (String × String), (∀ e ∈ es, '\n' ∉ line e) →
      (es.flatMap fun e => line e ++ ['\n']).splitOn '\n' = es.map line ++ [[]] := by
    intro es hes
    induction es with
    | nil => rfl
    | cons e es ih =>
      rw [List.flatMap_cons, List.append_assoc, List.singleton_append,
        List.splitOn_append_cons_self_of_not_mem (hes e List.mem_cons_self),
        ih fun e' he' => hes e' (List.mem_cons_of_mem e he')]
      rfl
  unfold entries? lines render
  rw [String.toList_ofList, hsplit entries hline, List.dropLast_concat]
  exact mapM_map_of_forall hentry

end Yaml

end Keel
