import Mathlib.Data.List.Basic
/-!
# Parsers of the head of a message

A parser that is shown what has arrived of a message so far, again each
time more has arrived: it finds the head complete, incomplete as yet, or
malformed. What it has once found it finds again whatever arrives after
(`Incremental`), so the head is found in the same place wherever the
message was cut in between.

`blankLine` is such a parser for heads of lines, which end at the first
blank one, whatever it is that is read from the lines.
-/

namespace Keel

/-- What a parser finds. -/
inductive Parsed (α : Type)
  /-- A head, of some length. -/
  | complete (len : ℕ) (head : α)
  | incomplete
  | malformed (message : String)
deriving DecidableEq

variable {β α : Type}

/-- A complete head is found wherever it is followed by anything, and what
is malformed stays so. -/
structure Incremental (parse : List β → Parsed α) : Prop where
  le : ∀ b len a, parse b = .complete len a → len ≤ b.length
  complete : ∀ b len a, parse b = .complete len a → ∀ c, parse (b.take len ++ c) = .complete len a
  malformed : ∀ b e, parse b = .malformed e → ∀ c, ∃ e', parse (b ++ c) = .malformed e'

namespace Incremental

variable {parse : List β → Parsed α} {b c : List β} {len : ℕ} {a : α}

/-- More does not take a head away. -/
theorem append (h : Incremental parse) (hb : parse b = .complete len a) (c : List β) :
    parse (b ++ c) = .complete len a := by
  have hsplit : b ++ c = b.take len ++ (b.drop len ++ c) := by
    rw [← List.append_assoc, List.take_append_drop]
  rw [hsplit]
  exact h.complete b len a hb _

/-- A head is there once all of it is. -/
theorem of_append (h : Incremental parse) (hbc : parse (b ++ c) = .complete len a)
    (hlen : len ≤ b.length) : parse b = .complete len a := by
  have htake := h.complete _ _ _ hbc (b.drop len)
  rwa [List.take_append_of_le_length hlen, List.take_append_drop] at htake

/-- **And not before**: a head that is cut short is incomplete. -/
theorem incomplete_of_append (h : Incremental parse) (hbc : parse (b ++ c) = .complete len a)
    (hlen : b.length < len) : parse b = .incomplete := by
  cases hb : parse b with
  | complete len' a' =>
    have hsame := (h.append hb c).symm.trans hbc
    cases hsame
    exact absurd (h.le _ _ _ hb) (by omega)
  | incomplete => rfl
  | malformed e =>
    obtain ⟨e', he'⟩ := h.malformed b e hb c
    cases he'.symm.trans hbc

theorem incomplete_of_incomplete (h : Incremental parse) (hbc : parse (b ++ c) = .incomplete) :
    parse b = .incomplete := by
  cases hb : parse b with
  | complete len a => cases (h.append hb c).symm.trans hbc
  | incomplete => rfl
  | malformed e =>
    obtain ⟨e', he'⟩ := h.malformed b e hb c
    cases he'.symm.trans hbc

end Incremental

/-! ## Heads of lines -/

/-- A line less the carriage return in front of its end. -/
def dropCr (line : List UInt8) : List UInt8 :=
  if line.getLast? = some 13 then line.dropLast else line

/-- The lines up to the first blank one, and what follows that; `lines`
were read before, and `cur` of the line in progress. -/
def scanLines (lines : List (List UInt8)) (cur : List UInt8) :
    List UInt8 → Option (List (List UInt8) × List UInt8)
  | [] => none
  | b :: rest =>
    if b ≠ 10 then scanLines lines (cur ++ [b]) rest
    else if dropCr cur = [] then some (lines, rest)
    else scanLines (lines ++ [dropCr cur]) [] rest

/-- What was scanned is scanned again, whatever follows. -/
theorem scanLines_append {b rest : List UInt8} {read : List (List UInt8)} :
    ∀ {lines : List (List UInt8)} {cur : List UInt8}, scanLines lines cur b = some (read, rest) →
      ∃ w, b = w ++ rest ∧ ∀ c, scanLines lines cur (w ++ c) = some (read, c) := by
  induction b with
  | nil =>
    intro lines cur h
    cases h
  | cons x b ih =>
    intro lines cur h
    rw [scanLines] at h
    split at h
    · rename_i hx
      obtain ⟨w, rfl, hw⟩ := ih h
      exact ⟨x :: w, rfl, fun c => by rw [List.cons_append, scanLines, if_pos hx, hw]⟩
    · rename_i hx
      split at h
      · rename_i hblank
        cases h
        exact ⟨[x], rfl, fun c => by
          rw [List.singleton_append, scanLines, if_neg hx, if_pos hblank]⟩
      · rename_i hblank
        obtain ⟨w, rfl, hw⟩ := ih h
        exact ⟨x :: w, rfl, fun c => by
          rw [List.cons_append, scanLines, if_neg hx, if_neg hblank, hw]⟩

/-- A parser of heads that end at a blank line, by what is read from the
lines. -/
def blankLine (read : List (List UInt8) → Option α) (b : List UInt8) : Parsed α :=
  match scanLines [] [] b with
  | none => .incomplete
  | some (lines, rest) =>
    match read lines with
    | some a => .complete (b.length - rest.length) a
    | none => .malformed "invalid head"

/-- What `blankLine` finds in a head, it finds wherever that is followed by
anything. -/
theorem blankLine_eq {read : List (List UInt8) → Option α} {w : List UInt8}
    {lines : List (List UInt8)} (h : ∀ c, scanLines [] [] (w ++ c) = some (lines, c))
    (c : List UInt8) : blankLine read (w ++ c) = match read lines with
      | some a => .complete w.length a
      | none => .malformed "invalid head" := by
  unfold blankLine
  rw [h c]
  simp only [List.length_append, Nat.add_sub_cancel]

theorem blankLine_cases (read : List (List UInt8) → Option α) (b : List UInt8) :
    blankLine read b = .incomplete ∨ ∃ w c lines, b = w ++ c ∧
      ∀ c, blankLine read (w ++ c) = match read lines with
        | some a => .complete w.length a
        | none => .malformed "invalid head" := by
  cases hscan : scanLines [] [] b with
  | none =>
    left
    unfold blankLine
    rw [hscan]
  | some found =>
    obtain ⟨lines, rest⟩ := found
    obtain ⟨w, hb, hw⟩ := scanLines_append hscan
    exact .inr ⟨w, rest, lines, hb, blankLine_eq hw⟩

/-- **Heads that end at a blank line** are found as they arrive. -/
theorem incremental_blankLine (read : List (List UInt8) → Option α) :
    Incremental (blankLine read) := by
  refine ⟨fun b len a h => ?_, fun b len a h c => ?_, fun b e h c => ?_⟩
  · rcases blankLine_cases read b with hb | ⟨w, c, lines, rfl, hw⟩
    · cases hb.symm.trans h
    · rw [hw] at h
      cases hread : read lines <;> rw [hread] at h <;> cases h
      rw [List.length_append]
      omega
  · rcases blankLine_cases read b with hb | ⟨w, d, lines, rfl, hw⟩
    · cases hb.symm.trans h
    · rw [hw] at h
      cases hread : read lines <;> rw [hread] at h <;> cases h
      rw [List.take_left, hw, hread]
  · rcases blankLine_cases read b with hb | ⟨w, d, lines, rfl, hw⟩
    · cases hb.symm.trans h
    · rw [hw] at h
      cases hread : read lines <;> rw [hread] at h <;> cases h
      exact ⟨_, by rw [List.append_assoc, hw, hread]⟩

/-! ## Lines as they are written -/

/-- A line, and its end. -/
def crlf (line : List UInt8) : List UInt8 := line ++ [13, 10]

/-- A head of lines, and the blank line that ends it. -/
def headOf (lines : List (List UInt8)) : List UInt8 := (lines.map crlf).flatten ++ crlf []

/-- A line that is read as it is written: one that is not blank and has no
end of a line in it. -/
structure IsLine (line : List UInt8) : Prop where
  ne_nil : line ≠ []
  no_lf : (10 : UInt8) ∉ line

theorem scanLines_of_no_lf {line : List UInt8} (h : (10 : UInt8) ∉ line)
    (lines : List (List UInt8)) (c : List UInt8) : ∀ cur,
    scanLines lines cur (line ++ c) = scanLines lines (cur ++ line) c := by
  induction line with
  | nil => intro cur; rw [List.nil_append, List.append_nil]
  | cons b line ih =>
    intro cur
    obtain ⟨hb, hline⟩ := not_or.1 (mt List.mem_cons.2 h)
    rw [List.cons_append, scanLines, if_pos (Ne.symm hb), ih hline, List.append_assoc]
    rfl

theorem dropCr_concat (line : List UInt8) : dropCr (line ++ [13]) = line := by
  unfold dropCr
  rw [if_pos (by rw [List.getLast?_concat]), List.dropLast_concat]

theorem scanLines_crlf {line : List UInt8} (h : (10 : UInt8) ∉ line) (lines : List (List UInt8))
    (c : List UInt8) : scanLines lines [] (crlf line ++ c) =
      if line = [] then some (lines, c) else scanLines (lines ++ [line]) [] c := by
  have hcr : (10 : UInt8) ∉ line ++ [13] := by
    rw [List.mem_append, List.mem_singleton]
    exact not_or.2 ⟨h, by decide⟩
  have hsplit : crlf line ++ c = (line ++ [13]) ++ 10 :: c := by
    unfold crlf
    rw [List.append_assoc, List.append_assoc]
    rfl
  rw [hsplit, scanLines_of_no_lf hcr, List.nil_append, scanLines, if_neg (not_not.2 rfl),
    dropCr_concat]

/-- **Lines are scanned as they are written.** -/
theorem scanLines_headOf {lines : List (List UInt8)} (h : ∀ line ∈ lines, IsLine line)
    (c : List UInt8) : ∀ before,
    scanLines before [] (headOf lines ++ c) = some (before ++ lines, c) := by
  induction lines with
  | nil =>
    intro before
    change scanLines before [] (crlf [] ++ c) = _
    rw [scanLines_crlf List.not_mem_nil, if_pos rfl, List.append_nil]
  | cons line lines ih =>
    intro before
    have hline := h line List.mem_cons_self
    have hsplit : headOf (line :: lines) ++ c = crlf line ++ (headOf lines ++ c) := by
      unfold headOf
      rw [List.map_cons, List.flatten_cons, List.append_assoc, List.append_assoc, List.append_assoc]
    rw [hsplit, scanLines_crlf hline.no_lf, if_neg hline.ne_nil,
      ih (fun l hl => h l (List.mem_cons_of_mem line hl)), List.append_assoc]
    rfl

/-- **A head of lines**, with what is read from them. -/
theorem blankLine_headOf {read : List (List UInt8) → Option α} {lines : List (List UInt8)} {a : α}
    (h : ∀ line ∈ lines, IsLine line) (hread : read lines = some a) (c : List UInt8) :
    blankLine read (headOf lines ++ c) = .complete (headOf lines).length a := by
  rw [blankLine_eq (fun c => scanLines_headOf h c []), List.nil_append, hread]

end Keel
