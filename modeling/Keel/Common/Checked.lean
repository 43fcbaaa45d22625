import Mathlib.Algebra.Group.Nat.Defs
import Mathlib.Algebra.Ring.Int.Defs
import Mathlib.Data.Nat.Basic
/-!
# Computations that may panic

Arithmetic as a checked build does it: every operation that would leave
its range stops the thread instead. A `Checked` computation comes to a
value or to a panic; the rules say when each operation comes to a value,
and to which.
-/

namespace Keel

/-- Why a thread stops. -/
inductive Panic
  /-- A failing `assert!`, with its message. -/
  | assertion (message : String)
  /-- An operation past its type's range. -/
  | overflow
  /-- A failing `expect` or `unwrap`, with its message. -/
  | expectation (message : String)
deriving DecidableEq

abbrev Checked (α : Type) := Except Panic α

namespace Checked

/-- `assert!(p, message)`. -/
def ensure (p : Prop) [Decidable p] (message : String) : Checked Unit :=
  if p then .ok () else .error (.assertion message)

/-- `x.expect(message)`. -/
def expect {α : Type} (message : String) : Option α → Checked α
  | some a => .ok a
  | none => .error (.expectation message)

/-- `a + b` on `bits` bits. -/
def add (bits a b : ℕ) : Checked ℕ := if a + b < 2 ^ bits then .ok (a + b) else .error .overflow

/-- `a - b` on unsigned integers. -/
def sub (a b : ℕ) : Checked ℕ := if b ≤ a then .ok (a - b) else .error .overflow

/-- `a * b` on `bits` bits. -/
def mul (bits a b : ℕ) : Checked ℕ := if a * b < 2 ^ bits then .ok (a * b) else .error .overflow

/-- A signed integer of `bits` bits, if it is one. -/
def signed (bits : ℕ) (a : ℤ) : Checked ℤ :=
  if -2 ^ (bits - 1) ≤ a ∧ a < 2 ^ (bits - 1) then .ok a else .error .overflow

/-- `1 << n` on `bits` bits. -/
def shl (bits n : ℕ) : Checked ℕ := if n < bits then .ok (2 ^ n) else .error .overflow

/-- `a % b`. -/
def rem (a b : ℕ) : Checked ℕ := if b = 0 then .error .overflow else .ok (a % b)

variable {bits a b n : ℕ}

theorem ensure_of {p : Prop} [Decidable p] (hp : p) (message : String) :
    ensure p message = .ok () := if_pos hp

theorem add_of_lt (h : a + b < 2 ^ bits) : add bits a b = .ok (a + b) := if_pos h

theorem sub_of_le (h : b ≤ a) : sub a b = .ok (a - b) := if_pos h

theorem mul_of_lt (h : a * b < 2 ^ bits) : mul bits a b = .ok (a * b) := if_pos h

theorem shl_of_lt (h : n < bits) : shl bits n = .ok (2 ^ n) := if_pos h

theorem rem_of_pos (h : 0 < b) : rem a b = .ok (a % b) := if_neg (Nat.ne_of_gt h)

end Checked

end Keel
