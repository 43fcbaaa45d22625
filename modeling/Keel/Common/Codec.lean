import Mathlib.Data.List.Basic
/-!
# Readers that know where to stop

A reader takes a value off the front of a stream and leaves what follows.
It reads a piece of the stream as a value (`Reads`) if it does so whatever
follows the piece, and fails where the piece is cut short. Such pieces put
one after the other are read one after the other (`Reads.andThen`), and no
piece is the beginning of another (`Reads.eq_of_begins`).
-/

namespace Keel

/-- **One by one**: what is written piece by piece is read piece by piece. -/
theorem mapM_map_of_forall {α β : Type} {write : α → β} {read : β → Option α} {l : List α}
    (h : ∀ a ∈ l, read (write a) = some a) : (l.map write).mapM read = some l := by
  induction l with
  | nil => rfl
  | cons a l ih =>
    rw [List.map_cons, List.mapM_cons, h a List.mem_cons_self,
      ih fun b hb => h b (List.mem_cons_of_mem a hb)]
    rfl

/-- A reader of values, off streams of symbols. -/
abbrev Reader (ε β α : Type) := List β → Except ε (α × List β)

namespace Reader

variable {ε β α γ : Type} {read : Reader ε β α} {w w' : List β} {a a' : α}

/-- Nothing is read. -/
def ret (a : α) : Reader ε β α := fun stream => .ok (a, stream)

/-- What follows is read by what was read. -/
def andThen (read : Reader ε β α) (next : α → Reader ε β γ) : Reader ε β γ := fun stream =>
  match read stream with
  | .ok (a, rest) => next a rest
  | .error e => .error e

/-- One after the other, as a monad has it. -/
theorem andThen_apply (read : Reader ε β α) (next : α → Reader ε β γ) (stream : List β) :
    andThen read next stream = read stream >>= fun r => next r.1 r.2 := by
  unfold andThen
  cases read stream <;> rfl

/-- A piece is read as a value, whatever follows it, and not before its
end. -/
structure Reads (read : Reader ε β α) (w : List β) (a : α) : Prop where
  append : ∀ rest, read (w ++ rest) = .ok (a, rest)
  cut : ∀ p, p <+: w → p ≠ w → ∃ e, read p = .error e

namespace Reads

theorem ret (a : α) : Reads (Reader.ret a : Reader ε β α) [] a where
  append _ := rfl
  cut _ hp hne := absurd (List.prefix_nil.1 hp) hne

/-- **One piece after another**, read one after the other. -/
theorem andThen {next : α → Reader ε β γ} {c : γ} (h : Reads read w a)
    (h' : Reads (next a) w' c) : Reads (read.andThen next) (w ++ w') c where
  append rest := by
    unfold Reader.andThen
    rw [List.append_assoc, h.append]
    exact h'.append rest
  cut p hp hne := by
    unfold Reader.andThen
    rcases List.prefix_or_prefix_of_prefix hp (List.prefix_append w w') with hshort | ⟨q, rfl⟩
    · by_cases hw : p = w
      · obtain ⟨e, he⟩ := h'.cut [] List.nil_prefix fun hnil => hne (by rw [hw, ← hnil,
          List.append_nil])
        have hread := h.append []
        rw [List.append_nil] at hread
        exact ⟨e, by rw [hw, hread]; exact he⟩
      · obtain ⟨e, he⟩ := h.cut p hshort hw
        exact ⟨e, by rw [he]⟩
    · obtain ⟨e, he⟩ := h'.cut q ((List.prefix_append_right_inj w).1 hp) fun hq => hne (by rw [hq])
      exact ⟨e, by rw [h.append]; exact he⟩

/-- The piece alone is read. -/
theorem read_eq (h : Reads read w a) : read w = .ok (a, []) := by
  rw [← h.append [], List.append_nil]

/-- **No piece is the beginning of another**, unless they are the same
piece, of the same value. -/
theorem eq_of_begins (h : Reads read w a) (h' : Reads read w' a') (hp : w <+: w') :
    w = w' ∧ a = a' := by
  have hw : w = w' := by
    by_contra hne
    obtain ⟨e, he⟩ := h'.cut w hp hne
    cases he.symm.trans h.read_eq
  subst hw
  exact ⟨rfl, (Prod.mk.inj (Except.ok.inj (h.read_eq.symm.trans h'.read_eq))).1⟩

end Reads

end Reader

end Keel
