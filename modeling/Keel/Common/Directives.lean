import Mathlib.Data.List.Basic
/-!
# Directives

Texts made of words, where a semicolon ends a directive and braces hold
the directives of a block. Blanks keep words apart and mean nothing else.
Quotes, escapes and comments are not read: a text that has any is
refused, and so is one whose braces do not match.

Reading goes by way of tokens. `scan` takes a text apart from where a word
may have begun, so that what it makes of a text comes from what it makes
of its pieces (`scan_append`); a word of plain characters is scanned as
that word, whatever it is (`scan_word`). `parse` undoes `tokens`
(`parse_tokensAll`), so a text whose tokens are those of some directives
is read as these and no others.
-/

namespace Keel

namespace Directives

/-! ## Tokens -/

inductive Token
  | word (w : String)
  | semicolon
  | openBrace
  | closeBrace
deriving DecidableEq

def isBlank (c : Char) : Bool := c == ' ' || c == '\t' || c == '\r' || c == '\n'

/-- What begins a quote, an escape or a comment. -/
def isQuoting (c : Char) : Bool := c == '\x22' || c == '\x27' || c == '\x5c' || c == '#'

/-- A character that ends a word, and the tokens it stands for. -/
def mark (c : Char) : Option (List Token) :=
  if isBlank c then some []
  else if c = ';' then some [.semicolon]
  else if c = '\x7b' then some [.openBrace]
  else if c = '\x7d' then some [.closeBrace]
  else none

/-- A character of a word. -/
def isPlain (c : Char) : Bool := (mark c).isNone && !isQuoting c

/-- The word that is over. -/
def flush (cur : List Char) : List Token :=
  if cur = [] then [] else [.word (String.ofList cur)]

/-- The tokens of a text that begins within a word, and the word it ends
within. -/
def scan (cur : List Char) : List Char → Option (List Token × List Char)
  | [] => some ([], cur)
  | c :: cs =>
    match mark c with
    | some ts => (scan [] cs).map fun r => (flush cur ++ ts ++ r.1, r.2)
    | none => if isQuoting c then none else scan (cur ++ [c]) cs

/-- The characters that are not. -/
def special : List Char :=
  [' ', '\t', '\r', '\n', ';', '\x7b', '\x7d', '\x22', '\x27', '\x5c', '#']

theorem isPlain_of_notMem {c : Char} (h : c ∉ special) : isPlain c = true := by
  simp only [special, List.mem_cons, List.not_mem_nil, or_false, not_or] at h
  simp [isPlain, mark, isBlank, isQuoting, h]

/-! ## What is scanned -/

section Scan

variable {cur cs w : List Char} {ts : List Token} {c : Char}

theorem scan_mark (h : mark c = some ts) :
    scan cur (c :: cs) = (scan [] cs).map fun r => (flush cur ++ ts ++ r.1, r.2) := by
  rw [scan, h]

theorem scan_plain (h : isPlain c = true) : scan cur (c :: cs) = scan (cur ++ [c]) cs := by
  obtain ⟨hmark, hquote⟩ := Bool.and_eq_true_iff.1 h
  have hnone : mark c = none := Option.isNone_iff_eq_none.1 hmark
  have hplain : isQuoting c = false := by simpa using hquote
  rw [scan, hnone]
  simp only [hplain]
  rfl

/-- Plain characters go to the word that has begun. -/
theorem scan_plains (hw : ∀ c ∈ w, isPlain c = true) :
    scan cur (w ++ cs) = scan (cur ++ w) cs := by
  induction w generalizing cur with
  | nil => rw [List.nil_append, List.append_nil]
  | cons c w ih =>
    have hrest : ∀ c ∈ w, isPlain c = true := fun d hd => hw d (List.mem_cons_of_mem c hd)
    rw [List.cons_append, scan_plain (hw c List.mem_cons_self), ih hrest, List.append_assoc]
    rfl

/-- **A word is scanned as itself.** -/
theorem scan_word (hw : ∀ c ∈ w, isPlain c = true) (hne : w ≠ []) (hc : mark c = some ts) :
    scan [] (w ++ c :: cs) =
      (scan [] cs).map fun r => (.word (String.ofList w) :: ts ++ r.1, r.2) := by
  rw [scan_plains hw, List.nil_append, scan_mark hc, flush, if_neg hne]
  rfl

/-- A text is scanned piece by piece. -/
theorem scan_append {a b : List Char} :
    scan cur (a ++ b) = (scan cur a).bind fun r =>
      (scan r.2 b).map fun r' => (r.1 ++ r'.1, r'.2) := by
  induction a generalizing cur with
  | nil => simp [scan]
  | cons c a ih =>
    rw [List.cons_append, scan, scan]
    cases mark c with
    | some ts =>
      dsimp only
      rw [ih]
      cases scan [] a with
      | none => rfl
      | some r =>
        cases h : scan r.2 b with
        | none => simp [h]
        | some r' => simp [h]
    | none =>
      dsimp only
      split
      · rfl
      · exact ih

/-- A piece that ends no word half way. -/
theorem scan_piece {a b : List Char} (ha : scan [] a = some (ts, [])) :
    scan [] (a ++ b) = (scan [] b).map fun r => (ts ++ r.1, r.2) := by
  rw [scan_append, ha]
  rfl

end Scan

/-! ## Directives -/

inductive Directive
  | simple (words : List String)
  | block (words : List String) (body : List Directive)

mutual

def Directive.tokens : Directive → List Token
  | .simple ws => ws.map Token.word ++ [.semicolon]
  | .block ws body => ws.map Token.word ++ .openBrace :: (tokensAll body ++ [.closeBrace])

def tokensAll : List Directive → List Token
  | [] => []
  | d :: ds => d.tokens ++ tokensAll ds

end

/-- The directives some tokens make up, within the words and the
directives read so far and the blocks that are open. -/
def parse : List Token → List String → List Directive → List (List String × List Directive) →
    Option (List Directive)
  | [], [], ds, [] => some ds
  | .word w :: ts, ws, ds, stack => parse ts (ws ++ [w]) ds stack
  | .semicolon :: ts, ws, ds, stack => parse ts [] (ds ++ [.simple ws]) stack
  | .openBrace :: ts, ws, ds, stack => parse ts [] [] ((ws, ds) :: stack)
  | .closeBrace :: ts, [], ds, (ws, outer) :: stack => parse ts [] (outer ++ [.block ws ds]) stack
  | _, _, _, _ => none

/-- Read a text. -/
def read (cs : List Char) : Option (List Directive) :=
  (scan [] cs).bind fun r => parse (r.1 ++ flush r.2) [] [] []

theorem parse_words (ws vs : List String) (rest : List Token) (ds : List Directive)
    (stack : List (List String × List Directive)) :
    parse (ws.map Token.word ++ rest) vs ds stack = parse rest (vs ++ ws) ds stack := by
  induction ws generalizing vs with
  | nil => rw [List.map_nil, List.nil_append, List.append_nil]
  | cons w ws ih => rw [List.map_cons, List.cons_append, parse, ih, List.append_assoc]; rfl

mutual

/-- One directive is parsed as itself. -/
theorem parse_tokens_append (d : Directive) (rest : List Token) (ds : List Directive)
    (stack : List (List String × List Directive)) :
    parse (d.tokens ++ rest) [] ds stack = parse rest [] (ds ++ [d]) stack := by
  match d with
  | .simple ws =>
    rw [Directive.tokens, List.append_assoc, parse_words, List.nil_append]
    rfl
  | .block ws body =>
    rw [Directive.tokens, List.append_assoc, parse_words, List.nil_append, List.cons_append,
      List.append_assoc, parse, parse_tokensAll_append body]
    rfl

/-- And so are several. -/
theorem parse_tokensAll_append (es : List Directive) (rest : List Token) (ds : List Directive)
    (stack : List (List String × List Directive)) :
    parse (tokensAll es ++ rest) [] ds stack = parse rest [] (ds ++ es) stack := by
  match es with
  | [] => rw [tokensAll, List.nil_append, List.append_nil]
  | e :: es =>
    rw [tokensAll, List.append_assoc, parse_tokens_append e, parse_tokensAll_append es,
      List.append_assoc]
    rfl

end

/-- **Directives are parsed as themselves.** -/
theorem parse_tokensAll (ds : List Directive) : parse (tokensAll ds) [] [] [] = some ds := by
  have happend := parse_tokensAll_append ds [] [] []
  rw [List.append_nil, List.nil_append] at happend
  rw [happend]
  rfl

/-- A text whose tokens are those of some directives is read as these. -/
theorem read_of_scan {cs : List Char} {ds : List Directive}
    (h : scan [] cs = some (tokensAll ds, [])) : read cs = some ds := by
  rw [read, h]
  show parse (tokensAll ds ++ flush []) [] [] [] = some ds
  rw [flush, if_pos rfl, List.append_nil, parse_tokensAll]

end Directives

end Keel
