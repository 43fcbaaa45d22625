import Mathlib.Data.List.DropRight
import Keel.Common.Codec
import Keel.Common.Text
import Keel.Common.Utf8
import Keel.Http.Model
/-!
# Heads in HTTP/1.1

What a client relies on of `httparse`: it finds a head as it arrives
(`Incremental`), and the head of a response as it was written
(`ReadsResponses`). A parser that does both is at hand, for heads of a
first line and headers, each on a line of its own.
-/

namespace Keel

namespace Http

/-- The bytes in front of the first `sep`, and those behind it. -/
def splitOnce (sep : UInt8) (s : List UInt8) : Option (List UInt8 × List UInt8) :=
  match s.dropWhile (· ≠ sep) with
  | [] => none
  | _ :: rest => some (s.takeWhile (· ≠ sep), rest)

/-- A space or a tab. -/
def isOws (b : UInt8) : Bool := b == 32 || b == 9

def trimOws (s : List UInt8) : List UInt8 :=
  ((s.dropWhile isOws).reverse.dropWhile isOws).reverse

def readHeader (line : List UInt8) : Option Header := do
  let (name, value) ← splitOnce 58 line
  let name ← fromUtf8 name
  return ⟨name, trimOws value⟩

/-- As many headers as there is room for. -/
def readHeaders (lines : List (List UInt8)) : Option (List Header) :=
  if lines.length ≤ 16 then lines.mapM readHeader else none

def readRequestHead : List (List UInt8) → Option RequestHead
  | [] => none
  | first :: lines => do
    let (method, rest) ← splitOnce 32 first
    let (path, version) ← splitOnce 32 rest
    let method ← fromUtf8 method
    let path ← fromUtf8 path
    let headers ← readHeaders lines
    if version = "HTTP/1.1".toUTF8.data.toList then some ⟨some method, some path, headers⟩ else none

def findRequest : List UInt8 → Parsed RequestHead := blankLine readRequestHead

theorem incremental_findRequest : Incremental findRequest := incremental_blankLine _

example : findRequest "GET / HTTP/1.1\r\nContent-Length: 2\r\n\r\nhi".toUTF8.data.toList =
  .complete 37 ⟨some "GET", some "/", [⟨"Content-Length", [50]⟩]⟩ := by decide +kernel

/-! ## The head of a response -/

/-- The bytes of a string. -/
abbrev ascii (s : String) : List UInt8 := s.toUTF8.data.toList

def statusLine (code : ℕ) (reason : List UInt8) : List UInt8 :=
  ascii "HTTP/1.1" ++ 32 :: (ascii (toString code) ++ 32 :: reason)

def headerLine (h : Header) : List UInt8 := ascii h.name ++ 58 :: 32 :: h.value

def responseLines (code : ℕ) (reason : List UInt8) (headers : List Header) : List (List UInt8) :=
  statusLine code reason :: headers.map headerLine

/-- A head that is written as the standard has it, with no more headers
than there is room for. -/
structure WellFormed (code : ℕ) (reason : List UInt8) (headers : List Header) : Prop where
  code : 100 ≤ code ∧ code < 1000
  reason : ∀ b ∈ reason, 32 ≤ b.toNat ∧ b.toNat < 127
  count : headers.length ≤ 16
  name_ne : ∀ h ∈ headers, h.name ≠ ""
  name : ∀ h ∈ headers, ∀ c ∈ h.name.toList, c.isAlphanum = true ∨ c = '-'
  value_ne : ∀ h ∈ headers, h.value ≠ []
  value : ∀ h ∈ headers, ∀ b ∈ h.value, 33 ≤ b.toNat ∧ b.toNat < 127

/-- A parser that finds the heads of responses, as they were written. -/
structure ReadsResponses (parse : List UInt8 → Parsed ResponseHead) : Prop where
  incremental : Incremental parse
  complete : ∀ code reason headers, WellFormed code reason headers → ∀ rest,
    parse (headOf (responseLines code reason headers) ++ rest) =
      .complete (headOf (responseLines code reason headers)).length ⟨some code, headers⟩

def readResponseHead : List (List UInt8) → Option ResponseHead
  | [] => none
  | first :: lines => do
    let (version, rest) ← splitOnce 32 first
    let (code, _) ← splitOnce 32 rest
    let code ← parseUnsigned 16 (← fromUtf8 code)
    let headers ← readHeaders lines
    if version = ascii "HTTP/1.1" then some ⟨some code, headers⟩ else none

def findResponse : List UInt8 → Parsed ResponseHead := blankLine readResponseHead

/-! ## Lines, taken apart -/

theorem splitOnce_append {sep : UInt8} {s : List UInt8} (h : sep ∉ s) (rest : List UInt8) :
    splitOnce sep (s ++ sep :: rest) = some (s, rest) := by
  have hne : ∀ b ∈ s, decide (b ≠ sep) = true := fun b hb =>
    decide_eq_true fun heq => h (heq ▸ hb)
  unfold splitOnce
  rw [List.dropWhile_append_of_pos hne, List.takeWhile_append_of_pos hne]
  simp

/-- Nothing is dropped at either end where there is nothing to drop. -/
theorem dropWhile_reverse_of_none {α : Type} {p : α → Bool} {l : List α}
    (h : ∀ x ∈ l, p x = false) : ((l.dropWhile p).reverse.dropWhile p).reverse = l := by
  have hfirst : l.dropWhile p = l :=
    List.dropWhile_eq_self_iff.2 fun hl => by simp [h _ (List.getElem_mem hl)]
  have hlast : l.rdropWhile p = l :=
    List.rdropWhile_eq_self_iff.2 fun hl => by simp [h _ (List.getLast_mem hl)]
  rw [hfirst]
  exact hlast

theorem trimOws_eq {s : List UInt8} (h : ∀ b ∈ s, isOws b = false) : trimOws (32 :: s) = s :=
  dropWhile_reverse_of_none h

theorem fromUtf8_ascii (s : String) : fromUtf8 (ascii s) = some s := fromUTF8?_toUTF8 s

theorem isOws_eq_false {b : UInt8} (h : 33 ≤ b.toNat) : isOws b = false := by
  have hspace : b ≠ 32 := fun heq => absurd (heq ▸ h) (by decide)
  have htab : b ≠ 9 := fun heq => absurd (heq ▸ h) (by decide)
  unfold isOws
  simp [hspace, htab]

theorem token_bounds {c : Char} (h : c.isAlphanum = true ∨ c = '-') :
    33 ≤ c.toNat ∧ c.toNat < 127 ∧ c.toNat ≠ 58 := by
  rcases h with h | rfl
  · delta Char.isAlphanum Char.isAlpha Char.isUpper Char.isLower Char.isDigit at h
    simp only [Bool.or_eq_true, Bool.and_eq_true, decide_eq_true_eq, UInt32.le_iff_toNat_le] at h
    change (((65 ≤ c.toNat ∧ c.toNat ≤ 90) ∨ (97 ≤ c.toNat ∧ c.toNat ≤ 122)) ∨
      (48 ≤ c.toNat ∧ c.toNat ≤ 57)) at h
    omega
  · decide

/-- The bytes of a number are digits. -/
theorem mem_ascii_toString {n : ℕ} {b : UInt8} (h : b ∈ ascii (toString n)) :
    48 ≤ b.toNat ∧ b.toNat < 58 := by
  have hdigits : ∀ c ∈ (toString n).toList, 48 ≤ c.toNat ∧ c.toNat ≤ 57 := by
    intro c hc
    rw [toList_toString] at hc
    exact Char.isDigit_iff_toNat.1 (Nat.isDigit_of_mem_toDigits (by decide) (by decide) hc)
  obtain ⟨c, hc, hb⟩ := mem_toUTF8_of_ascii (fun c hc => (hdigits c hc).2.trans_lt (by decide)) h
  have := hdigits c hc
  omega

theorem mem_ascii_name {name : String} (h : ∀ c ∈ name.toList, c.isAlphanum = true ∨ c = '-')
    {b : UInt8} (hb : b ∈ ascii name) : 33 ≤ b.toNat ∧ b.toNat < 127 ∧ b.toNat ≠ 58 := by
  obtain ⟨c, hc, heq⟩ :=
    mem_toUTF8_of_ascii (fun c hc => (token_bounds (h c hc)).2.1.trans (by decide)) hb
  have := token_bounds (h c hc)
  omega

/-! ## Heads as they are written -/

section Written

variable {code : ℕ} {reason : List UInt8} {headers : List Header} {h : Header}

theorem not_mem_of_toNat {s : List UInt8} {sep : UInt8} (h : ∀ b ∈ s, b.toNat ≠ sep.toNat) :
    sep ∉ s :=
  fun hmem => h sep hmem rfl

/-- A header is read as it is written. -/
theorem readHeader_headerLine (hname : ∀ c ∈ h.name.toList, c.isAlphanum = true ∨ c = '-')
    (hvalue : ∀ b ∈ h.value, 33 ≤ b.toNat) : readHeader (headerLine h) = some h := by
  have hcolon : (58 : UInt8) ∉ ascii h.name :=
    not_mem_of_toNat fun b hb => (mem_ascii_name hname hb).2.2
  have htrim : trimOws (32 :: h.value) = h.value :=
    trimOws_eq fun b hb => isOws_eq_false (hvalue b hb)
  unfold readHeader headerLine
  simp only [splitOnce_append hcolon, Option.bind_eq_bind, Option.bind_some, fromUtf8_ascii, htrim]
  rfl

theorem readHeaders_headerLines (hwf : WellFormed code reason headers) :
    readHeaders (headers.map headerLine) = some headers := by
  unfold readHeaders
  rw [List.length_map, if_pos hwf.count]
  exact mapM_map_of_forall fun h hh =>
    readHeader_headerLine (hwf.name h hh) fun b hb => (hwf.value h hh b hb).1

/-- A first line is read as it is written, with the headers after it. -/
theorem readResponseHead_responseLines (hwf : WellFormed code reason headers) :
    readResponseHead (responseLines code reason headers) = some ⟨some code, headers⟩ := by
  have hversion : (32 : UInt8) ∉ ascii "HTTP/1.1" := by decide +kernel
  have hspace : (32 : UInt8) ∉ ascii (toString code) := by
    refine not_mem_of_toNat fun b hb heq => ?_
    have := (mem_ascii_toString hb).1
    have : (32 : UInt8).toNat = 32 := rfl
    omega
  have hcode : parseUnsigned 16 (toString code) = some code :=
    parseUnsigned_toString (hwf.code.2.trans (by decide))
  unfold readResponseHead responseLines statusLine
  simp only [splitOnce_append hversion, splitOnce_append hspace, Option.bind_eq_bind,
    Option.bind_some, fromUtf8_ascii, hcode, readHeaders_headerLines hwf, if_true]

/-- No byte of its lines ends a line. -/
theorem toNat_of_mem_statusLine (hwf : WellFormed code reason headers) {b : UInt8}
    (hb : b ∈ statusLine code reason) : 32 ≤ b.toNat := by
  have hversion : ∀ b ∈ ascii "HTTP/1.1", 32 ≤ b.toNat := by decide +kernel
  rcases List.mem_append.1 hb with hb | hb
  · exact hversion b hb
  · rcases List.mem_cons.1 hb with rfl | hb
    · decide
    · rcases List.mem_append.1 hb with hb | hb
      · exact (by decide : 32 ≤ 48).trans (mem_ascii_toString hb).1
      · rcases List.mem_cons.1 hb with rfl | hb
        · decide
        · exact (hwf.reason b hb).1

theorem toNat_of_mem_headerLine (hwf : WellFormed code reason headers) (hh : h ∈ headers)
    {b : UInt8} (hb : b ∈ headerLine h) : 32 ≤ b.toNat := by
  rcases List.mem_append.1 hb with hb | hb
  · have := (mem_ascii_name (hwf.name h hh) hb).1
    omega
  · rcases List.mem_cons.1 hb with rfl | hb
    · decide
    · rcases List.mem_cons.1 hb with rfl | hb
      · decide
      · have := (hwf.value h hh b hb).1
        omega

theorem isLine_of_toNat {line : List UInt8} (hne : line ≠ []) (h : ∀ b ∈ line, 32 ≤ b.toNat) :
    IsLine line := by
  refine ⟨hne, not_mem_of_toNat fun b hb heq => ?_⟩
  have hge := h b hb
  rw [heq] at hge
  exact absurd hge (by decide)

theorem isLine_responseLines (hwf : WellFormed code reason headers) :
    ∀ line ∈ responseLines code reason headers, IsLine line := by
  intro line hline
  rcases List.mem_cons.1 hline with rfl | hline
  · exact isLine_of_toNat (by simp [statusLine]) fun b hb => toNat_of_mem_statusLine hwf hb
  · obtain ⟨h, hh, rfl⟩ := List.mem_map.1 hline
    exact isLine_of_toNat (by simp [headerLine]) fun b hb => toNat_of_mem_headerLine hwf hh hb

/-- **A parser that finds heads as they were written.** -/
theorem readsResponses_findResponse : ReadsResponses findResponse where
  incremental := incremental_blankLine _
  complete _ _ _ hwf := blankLine_headOf (isLine_responseLines hwf)
    (readResponseHead_responseLines hwf)

end Written

end Http

end Keel
