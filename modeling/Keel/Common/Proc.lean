import Mathlib.Data.List.Basic
import Keel.Common.Checked
/-!
# Procedures

A process with a memory of its own (`σ`) that calls on the machine it
runs on (`C`). A procedure ends in a value or in an error, as a function
that returns a `Result` does; it may also stop without returning, by a
panic of its own or because the machine went down at a call. The memory
is lost then, the world is not.

What a call answers is the outside's (`Outside`), at every call by a
choice of its own. `run` executes a procedure against a stream of
choices and keeps the calls made; `wp` is the weakest precondition over
every choice, with a postcondition for a return and one for a stop, so
that it speaks of every point a run can be cut off at. `wp_run` carries
it into every run. `Makes` is about a procedure by itself: which calls it
can make and whether it can panic, given what it is answered.
-/

namespace Keel

/-- A procedure over a memory `σ` and calls `C`. -/
inductive Proc (σ : Type) (C : Type → Type) (ε α : Type) : Type 1
  /-- It returns a value. -/
  | ret (a : α) : Proc σ C ε α
  /-- It returns an error. -/
  | fail (e : ε) : Proc σ C ε α
  | panic (p : Panic) : Proc σ C ε α
  /-- It reads and updates its memory. -/
  | memory {ρ : Type} (f : σ → ρ × σ) (k : ρ → Proc σ C ε α) : Proc σ C ε α
  /-- It calls on the machine; the answer has the call's own type. -/
  | call {ρ : Type} (c : C ρ) (k : ρ → Proc σ C ε α) : Proc σ C ε α

/-- Why a procedure does not return. -/
inductive Stop
  | panicked (p : Panic)
  /-- The machine went down at a call, before the call was made. -/
  | crashed
deriving DecidableEq

/-- How a procedure comes to an end. -/
inductive Ended (σ ε α : Type)
  | returned (r : Except ε α) (s : σ)
  | stopped (x : Stop)

def Ended.isPanic {σ ε α : Type} : Ended σ ε α → Bool
  | .stopped (.panicked _) => true
  | _ => false

theorem Ended.exists_of_isPanic {σ ε α : Type} {e : Ended σ ε α} (h : e.isPanic = true) :
    ∃ p, e = .stopped (.panicked p) := by
  cases e with
  | returned result s => cases h
  | stopped x =>
    cases x with
    | panicked p => exact ⟨p, rfl⟩
    | crashed => cases h

/-- What ends in a value. -/
def Ended.value {σ ε α : Type} : Ended σ ε α → Option (α × σ)
  | .returned (.ok a) s => some (a, s)
  | _ => none

theorem Ended.eq_of_value {σ ε α : Type} {e : Ended σ ε α} {a : α} {s : σ}
    (h : Ended.value e = some (a, s)) : e = .returned (.ok a) s := by
  cases e with
  | returned result s' =>
    cases result with
    | error e => cases h
    | ok b =>
      cases h
      rfl
  | stopped x => cases h

/-- A world, and the calls made so far, the last one last. -/
structure Trace (C : Type → Type) (W : Type) where
  world : W
  calls : List (Σ ρ : Type, C ρ)

/-- A call was made, and left a world. -/
def Trace.push {C : Type → Type} {W : Type} (t : Trace C W) {ρ : Type} (c : C ρ) (w : W) :
    Trace C W :=
  ⟨w, t.calls ++ [⟨ρ, c⟩]⟩

@[simp] theorem Trace.push_world {C : Type → Type} {W : Type} (t : Trace C W) {ρ : Type} (c : C ρ)
    (w : W) : (t.push c w).world = w := rfl

/-- What calls answer and do to a world, given the outside's choice, and
which choices are considered. -/
structure Outside (C : Type → Type) (O σ W : Type) where
  call : {ρ : Type} → O → C ρ → W → ρ × W
  allows : {ρ : Type} → O → C ρ → σ → W → Prop

/-- The world after a call. -/
def Outside.after {C : Type → Type} {O σ W : Type} (out : Outside C O σ W) {ρ : Type} (x : O)
    (c : C ρ) (t : Trace C W) : Trace C W :=
  t.push c (out.call x c t.world).2

/-- Every call after those of `before` is one of `P`. -/
def Trace.Since {C : Type → Type} {W : Type} (t : Trace C W) (before : List (Σ ρ : Type, C ρ))
    (P : {ρ : Type} → C ρ → Prop) : Prop :=
  ∃ l, t.calls = before ++ l ∧ ∀ c ∈ l, P c.2

theorem Trace.since_self {C : Type → Type} {W : Type} {P : {ρ : Type} → C ρ → Prop}
    (t : Trace C W) : t.Since t.calls P :=
  ⟨[], (List.append_nil _).symm, fun _ hc => absurd hc List.not_mem_nil⟩

theorem Trace.since_nil {C : Type → Type} {W : Type} {P : {ρ : Type} → C ρ → Prop}
    {t : Trace C W} : t.Since [] P ↔ ∀ c ∈ t.calls, P c.2 := by
  constructor
  · rintro ⟨l, hl, hP⟩ c hc
    rw [hl] at hc
    exact hP c hc
  · intro h
    exact ⟨t.calls, rfl, h⟩

theorem Trace.Since.push {C : Type → Type} {W : Type} {P : {ρ : Type} → C ρ → Prop}
    {t : Trace C W} {before : List (Σ ρ : Type, C ρ)} (h : t.Since before P) {ρ : Type} {c : C ρ}
    {w : W} (hc : P c) : (t.push c w).Since before P := by
  obtain ⟨l, hl, hP⟩ := h
  refine ⟨l ++ [⟨ρ, c⟩], by rw [Trace.push, hl, List.append_assoc], ?_⟩
  intro d hd
  rcases List.mem_append.1 hd with hd | hd
  · exact hP d hd
  · rw [List.mem_singleton.1 hd]
    exact hc

theorem Trace.Since.imp {C : Type → Type} {W : Type} {P P' : {ρ : Type} → C ρ → Prop}
    {t : Trace C W} {before : List (Σ ρ : Type, C ρ)} (h : t.Since before P)
    (hP : ∀ {ρ : Type} (c : C ρ), P c → P' c) : t.Since before P' := by
  obtain ⟨l, hl, hcalls⟩ := h
  exact ⟨l, hl, fun c hc => hP c.2 (hcalls c hc)⟩

theorem Trace.Since.trans {C : Type → Type} {W : Type} {P : {ρ : Type} → C ρ → Prop}
    {t t' : Trace C W} {before : List (Σ ρ : Type, C ρ)} (h : t.Since before P)
    (h' : t'.Since t.calls P) : t'.Since before P := by
  obtain ⟨l, hl, hP⟩ := h
  obtain ⟨l', hl', hP'⟩ := h'
  refine ⟨l ++ l', by rw [hl', hl, List.append_assoc], fun c hc => ?_⟩
  rcases List.mem_append.1 hc with hc | hc
  · exact hP c hc
  · exact hP' c hc

theorem Trace.Since.after {C : Type → Type} {O σ W : Type} {P : {ρ : Type} → C ρ → Prop}
    {out : Outside C O σ W} {t : Trace C W} {before : List (Σ ρ : Type, C ρ)}
    (h : t.Since before P) {ρ : Type} {x : O} {c : C ρ} (hc : P c) :
    (out.after x c t).Since before P :=
  h.push hc

namespace Proc

variable {σ W O ε δ : Type} {C : Type → Type} {α β : Type}

/-- Sequencing: an error ends it, as `?` does. -/
def bind : Proc σ C ε α → (α → Proc σ C ε β) → Proc σ C ε β
  | ret a, f => f a
  | fail e, _ => fail e
  | panic p, _ => panic p
  | memory g k, f => memory g fun r => (k r).bind f
  | call c k, f => call c fun r => (k r).bind f

instance : Monad (Proc σ C ε) where
  pure := ret
  bind := bind

/-- The error in hand instead of an end. -/
def attempt : Proc σ C ε α → Proc σ C δ (Except ε α)
  | ret a => ret (.ok a)
  | fail e => ret (.error e)
  | panic p => panic p
  | memory g k => memory g fun r => (k r).attempt
  | call c k => call c fun r => (k r).attempt

def get : Proc σ C ε σ := memory (fun s => (s, s)) ret

def modify (f : σ → σ) : Proc σ C ε Unit := memory (fun s => ((), f s)) ret

/-- One call, whatever it answers. -/
def ask {ρ : Type} (c : C ρ) : Proc σ C ε ρ := call c ret

def ofExcept (f : δ → ε) : Except δ α → Proc σ C ε α
  | .ok a => ret a
  | .error e => fail (f e)

def ofChecked : Checked α → Proc σ C ε α
  | .ok a => ret a
  | .error p => panic p

/-- A call whose error is the procedure's own: `c.map_err(f)?`. -/
def tryCall (f : δ → ε) (c : C (Except δ α)) : Proc σ C ε α := call c (ofExcept f)

/-- `for x in xs { body }`. -/
def forEach (body : β → Proc σ C ε Unit) : List β → Proc σ C ε Unit
  | [] => ret ()
  | x :: xs => (body x).bind fun _ => forEach body xs

/-- Run a procedure; the `i`-th call ever made is answered by the `i`-th
choice, and never made where there is none. -/
def run (out : Outside C O σ W) (o : ℕ → Option O) :
    Proc σ C ε α → σ → Trace C W → Ended σ ε α × Trace C W
  | ret a, s, t => (.returned (.ok a) s, t)
  | fail e, s, t => (.returned (.error e) s, t)
  | panic p, _, t => (.stopped (.panicked p), t)
  | memory g k, s, t => (k (g s).1).run out o (g s).2 t
  | call c k, s, t =>
    match o t.calls.length with
    | none => (.stopped .crashed, t)
    | some x => (k (out.call x c t.world).1).run out o s (out.after x c t)

/-- Every choice a run meets is one of those considered. -/
def Allowed (out : Outside C O σ W) (o : ℕ → Option O) : Proc σ C ε α → σ → Trace C W → Prop
  | ret _, _, _ => True
  | fail _, _, _ => True
  | panic _, _, _ => True
  | memory g k, s, t => (k (g s).1).Allowed out o (g s).2 t
  | call c k, s, t => ∀ x, o t.calls.length = some x →
      out.allows x c s t.world ∧ (k (out.call x c t.world).1).Allowed out o s (out.after x c t)

/-- `Q` holds when the procedure returns and `X` when it stops, whatever
the outside chooses on the way. -/
def wp (out : Outside C O σ W) (Q : Except ε α → σ → Trace C W → Prop)
    (X : Stop → Trace C W → Prop) : Proc σ C ε α → σ → Trace C W → Prop
  | ret a, s, t => Q (.ok a) s t
  | fail e, s, t => Q (.error e) s t
  | panic p, _, t => X (.panicked p) t
  | memory g k, s, t => (k (g s).1).wp out Q X (g s).2 t
  | call c k, s, t => X .crashed t ∧ ∀ x, out.allows x c s t.world →
      (k (out.call x c t.world).1).wp out Q X s (out.after x c t)

variable {out : Outside C O σ W} {Q : Except ε α → σ → Trace C W → Prop}
variable {X : Stop → Trace C W → Prop} {s : σ} {t : Trace C W}

@[simp] theorem pure_eq (a : α) : (pure a : Proc σ C ε α) = ret a := rfl

@[simp] theorem bind_eq (p : Proc σ C ε α) (f : α → Proc σ C ε β) : p >>= f = p.bind f := rfl

@[simp] theorem ret_bind (a : α) (f : α → Proc σ C ε β) : (ret a).bind f = f a := rfl

@[simp] theorem fail_bind (e : ε) (f : α → Proc σ C ε β) : (fail e).bind f = fail e := rfl

theorem bind_assoc {γ : Type} (p : Proc σ C ε α) (f : α → Proc σ C ε β) (g : β → Proc σ C ε γ) :
    (p.bind f).bind g = p.bind fun a => (f a).bind g := by
  induction p with
  | ret a => rfl
  | fail e => rfl
  | panic p => rfl
  | memory k f ih => exact congrArg (memory k) (funext ih)
  | call c k ih => exact congrArg (call c) (funext ih)

theorem bind_ret (p : Proc σ C ε α) : p.bind ret = p := by
  induction p with
  | ret a => rfl
  | fail e => rfl
  | panic p => rfl
  | memory k f ih => exact congrArg (memory k) (funext ih)
  | call c k ih => exact congrArg (call c) (funext ih)

/-- A run of a sequence, by how its first part ends. -/
theorem run_bind_eq {o : ℕ → Option O} {p : Proc σ C ε α} {f : α → Proc σ C ε β} :
    ∀ {s : σ} {t : Trace C W}, (p.bind f).run out o s t =
      match p.run out o s t with
      | (.returned (.ok a) s', t') => (f a).run out o s' t'
      | (.returned (.error e) s', t') => (.returned (.error e) s', t')
      | (.stopped x, t') => (.stopped x, t') := by
  induction p with
  | ret a => intro s t; rfl
  | fail e => intro s t; rfl
  | panic p => intro s t; rfl
  | memory g k ih => intro s t; exact ih _
  | call c k ih =>
    intro s t
    rw [bind, run, run]
    cases o t.calls.length with
    | none => rfl
    | some x => exact ih _

/-- A run goes on where the run of a first part returned. -/
theorem run_bind {o : ℕ → Option O} {p : Proc σ C ε α} {f : α → Proc σ C ε β} {a : α} {s' : σ}
    {t' : Trace C W} {s : σ} {t : Trace C W} (h : p.run out o s t = (.returned (.ok a) s', t')) :
    (p.bind f).run out o s t = (f a).run out o s' t' := by
  rw [run_bind_eq, h]

/-- A run goes on from what its next call answers. -/
theorem run_ask_bind {o : ℕ → Option O} {ρ : Type} {c : C ρ} {f : ρ → Proc σ C ε α} {x : O} {s : σ}
    {t : Trace C W} (hx : o t.calls.length = some x) :
    ((ask c).bind f).run out o s t =
      (f (out.call x c t.world).1).run out o s (out.after x c t) := by
  rw [ask, bind, run, hx]
  rfl

/-- And ends where it fails, if its error is the run's own. -/
theorem run_tryCall_bind {o : ℕ → Option O} {f : δ → ε} {c : C (Except δ α)}
    {k : α → Proc σ C ε β} {x : O} {s : σ} {t : Trace C W} (hx : o t.calls.length = some x) :
    ((tryCall f c).bind k).run out o s t =
      match (out.call x c t.world).1 with
      | .ok a => (k a).run out o s (out.after x c t)
      | .error e => (.returned (.error (f e)) s, out.after x c t) := by
  rw [tryCall, bind, run, hx]
  show ((ofExcept f (out.call x c t.world).1).bind k).run out o s (out.after x c t) = _
  cases (out.call x c t.world).1 with
  | ok a => rfl
  | error e => rfl

/-- An attempt returns what it comes to. -/
theorem run_attempt {o : ℕ → Option O} {p : Proc σ C ε α} :
    ∀ {s : σ} {t : Trace C W}, (p.attempt : Proc σ C δ (Except ε α)).run out o s t =
      match p.run out o s t with
      | (.returned r s', t') => (.returned (.ok r) s', t')
      | (.stopped x, t') => (.stopped x, t') := by
  induction p with
  | ret a => intro s t; rfl
  | fail e => intro s t; rfl
  | panic p => intro s t; rfl
  | memory g k ih => intro s t; exact ih _
  | call c k ih =>
    intro s t
    rw [attempt, run, run]
    cases o t.calls.length with
    | none => rfl
    | some x => exact ih _

/-! ## The rules -/

@[simp] theorem wp_ret {a : α} :
    (ret a : Proc σ C ε α).wp out Q X s t ↔ Q (.ok a) s t := Iff.rfl

@[simp] theorem wp_fail {e : ε} :
    (fail e : Proc σ C ε α).wp out Q X s t ↔ Q (.error e) s t := Iff.rfl

@[simp] theorem wp_panic {p : Panic} :
    (panic p : Proc σ C ε α).wp out Q X s t ↔ X (.panicked p) t := Iff.rfl

@[simp] theorem wp_get {Q : Except ε σ → σ → Trace C W → Prop} :
    (get : Proc σ C ε σ).wp out Q X s t ↔ Q (.ok s) s t := Iff.rfl

@[simp] theorem wp_modify {f : σ → σ} {Q : Except ε Unit → σ → Trace C W → Prop} :
    (modify f : Proc σ C ε Unit).wp out Q X s t ↔ Q (.ok ()) (f s) t := Iff.rfl

theorem wp_get_bind {f : σ → Proc σ C ε α} :
    ((get : Proc σ C ε σ).bind f).wp out Q X s t ↔ (f s).wp out Q X s t := Iff.rfl

theorem wp_ask_bind {ρ : Type} {c : C ρ} {f : ρ → Proc σ C ε α} :
    ((ask c : Proc σ C ε ρ).bind f).wp out Q X s t ↔ X .crashed t ∧ ∀ x, out.allows x c s t.world →
      (f (out.call x c t.world).1).wp out Q X s (out.after x c t) := Iff.rfl

/-- Weaker postconditions are easier to meet. -/
theorem wp_mono {p : Proc σ C ε α} {Q' : Except ε α → σ → Trace C W → Prop}
    {X' : Stop → Trace C W → Prop} (hQ : ∀ r s t, Q r s t → Q' r s t)
    (hX : ∀ x t, X x t → X' x t) :
    ∀ {s : σ} {t : Trace C W}, p.wp out Q X s t → p.wp out Q' X' s t := by
  induction p with
  | ret a => intro s t h; exact hQ _ _ _ h
  | fail e => intro s t h; exact hQ _ _ _ h
  | panic p => intro s t h; exact hX _ _ h
  | memory g k ih => intro s t h; exact ih _ h
  | call c k ih => intro s t h; exact ⟨hX _ _ h.1, fun x hx => ih _ (h.2 x hx)⟩

/-- What holds one by one holds together. -/
theorem wp_and {p : Proc σ C ε α} {Q' : Except ε α → σ → Trace C W → Prop}
    {X' : Stop → Trace C W → Prop} : ∀ {s : σ} {t : Trace C W}, p.wp out Q X s t →
      p.wp out Q' X' s t →
      p.wp out (fun r s t => Q r s t ∧ Q' r s t) (fun x t => X x t ∧ X' x t) s t := by
  induction p with
  | ret a => intro s t h h'; exact ⟨h, h'⟩
  | fail e => intro s t h h'; exact ⟨h, h'⟩
  | panic p => intro s t h h'; exact ⟨h, h'⟩
  | memory g k ih => intro s t h h'; exact ih _ h h'
  | call c k ih =>
    intro s t h h'
    exact ⟨⟨h.1, h'.1⟩, fun x hx => ih _ (h.2 x hx) (h'.2 x hx)⟩

/-- **Sequencing.** The second procedure runs from whatever the first
leaves, unless that is an error. -/
theorem wp_bind {p : Proc σ C ε α} {f : α → Proc σ C ε β}
    {Q : Except ε β → σ → Trace C W → Prop} :
    ∀ {s : σ} {t : Trace C W}, (p.bind f).wp out Q X s t ↔
      p.wp out (fun r s t => match r with
        | .ok a => (f a).wp out Q X s t
        | .error e => Q (.error e) s t) X s t := by
  induction p with
  | ret a => intro s t; exact Iff.rfl
  | fail e => intro s t; exact Iff.rfl
  | panic p => intro s t; exact Iff.rfl
  | memory g k ih => intro s t; exact ih _
  | call c k ih =>
    intro s t
    exact and_congr_right fun _ => forall_congr' fun x => imp_congr_right fun _ => ih _

/-- Sequencing, from what is known of the first procedure. -/
theorem wp_seq {p : Proc σ C ε α} {f : α → Proc σ C ε β} {Q : Except ε α → σ → Trace C W → Prop}
    {Q' : Except ε β → σ → Trace C W → Prop} {X X' : Stop → Trace C W → Prop} {s : σ}
    {t : Trace C W} (hp : p.wp out Q X s t)
    (hok : ∀ a s t, Q (.ok a) s t → (f a).wp out Q' X' s t)
    (herror : ∀ e s t, Q (.error e) s t → Q' (.error e) s t) (hX : ∀ x t, X x t → X' x t) :
    (p.bind f).wp out Q' X' s t := by
  rw [wp_bind]
  refine wp_mono ?_ hX hp
  intro r s t hr
  cases r with
  | ok a => exact hok a s t hr
  | error e => exact herror e s t hr

theorem wp_attempt {p : Proc σ C ε α} {Q : Except δ (Except ε α) → σ → Trace C W → Prop} :
    ∀ {s : σ} {t : Trace C W}, (p.attempt : Proc σ C δ (Except ε α)).wp out Q X s t ↔
      p.wp out (fun r s t => Q (.ok r) s t) X s t := by
  induction p with
  | ret a => intro s t; exact Iff.rfl
  | fail e => intro s t; exact Iff.rfl
  | panic p => intro s t; exact Iff.rfl
  | memory g k ih => intro s t; exact ih _
  | call c k ih =>
    intro s t
    exact and_congr_right fun _ => forall_congr' fun x => imp_congr_right fun _ => ih _

theorem wp_tryCall {c : C (Except δ α)} {f : δ → ε} :
    (tryCall f c : Proc σ C ε α).wp out Q X s t ↔ X .crashed t ∧ ∀ x, out.allows x c s t.world →
      match (out.call x c t.world).1 with
      | .ok a => Q (.ok a) s (out.after x c t)
      | .error e => Q (.error (f e)) s (out.after x c t) := by
  refine and_congr_right fun _ => forall_congr' fun x => imp_congr_right fun _ => ?_
  cases (out.call x c t.world).1 with
  | ok a => exact Iff.rfl
  | error e => exact Iff.rfl

/-- **The loop rule.** An invariant indexed by what is still to be done,
kept by each turn that does not end the loop. -/
theorem wp_forEach {body : β → Proc σ C ε Unit} {E : ε → σ → Trace C W → Prop}
    (I : List β → σ → Trace C W → Prop)
    (hbody : ∀ x xs s t, I (x :: xs) s t → (body x).wp out (fun r s t => match r with
      | .ok () => I xs s t
      | .error e => E e s t) X s t) :
    ∀ (xs : List β) {s : σ} {t : Trace C W}, I xs s t →
      (forEach body xs).wp out (fun r s t => match r with
        | .ok () => I [] s t
        | .error e => E e s t) X s t := by
  intro xs
  induction xs with
  | nil => intro s t h; exact h
  | cons x xs ih =>
    intro s t h
    rw [forEach, wp_bind]
    refine wp_mono ?_ (fun _ _ hx => hx) (hbody x xs s t h)
    intro r s t hr
    cases r with
    | error e => exact hr
    | ok u => exact ih hr

end Proc

/-- What the two postconditions say of an end. -/
def Ended.Meets {σ ε α W : Type} {C : Type → Type} (Q : Except ε α → σ → Trace C W → Prop)
    (X : Stop → Trace C W → Prop) : Ended σ ε α × Trace C W → Prop
  | (.returned r s, t) => Q r s t
  | (.stopped x, t) => X x t

/-- What both say of the trace holds of it. -/
theorem Ended.Meets.trace {σ ε α W : Type} {C : Type → Type}
    {Q : Except ε α → σ → Trace C W → Prop} {X : Stop → Trace C W → Prop}
    {e : Ended σ ε α × Trace C W} {P : Trace C W → Prop} (he : Ended.Meets Q X e)
    (hQ : ∀ r s t, Q r s t → P t) (hX : ∀ x t, X x t → P t) : P e.2 := by
  obtain ⟨ending, t⟩ := e
  cases ending with
  | returned r s => exact hQ r s t he
  | stopped x => exact hX x t he

namespace Proc

variable {σ W O ε δ : Type} {C : Type → Type} {α β : Type}
variable {out : Outside C O σ W} {Q : Except ε α → σ → Trace C W → Prop}
variable {X : Stop → Trace C W → Prop} {s : σ} {t : Trace C W}

/-- **Soundness.** What `wp` promises, every allowed run delivers. -/
theorem wp_run {p : Proc σ C ε α} {o : ℕ → Option O} :
    ∀ {s : σ} {t : Trace C W}, p.wp out Q X s t → p.Allowed out o s t →
      Ended.Meets Q X (p.run out o s t) := by
  induction p with
  | ret a => intro s t h _; exact h
  | fail e => intro s t h _; exact h
  | panic p => intro s t h _; exact h
  | memory g k ih => intro s t h ha; exact ih _ h ha
  | call c k ih =>
    intro s t h ha
    rw [run]
    cases ho : o t.calls.length with
    | none => exact h.1
    | some x => exact ih _ (h.2 x (ha x ho).1) (ha x ho).2

/-- Where every choice is considered, every run is allowed. -/
theorem allowed_of_allows {o : ℕ → Option O} (hall : ∀ i x, o i = some x →
      ∀ {ρ : Type} (c : C ρ) (s : σ) (w : W), out.allows x c s w) {p : Proc σ C ε α} :
    ∀ {s : σ} {t : Trace C W}, p.Allowed out o s t := by
  induction p with
  | ret a => intro s t; trivial
  | fail e => intro s t; trivial
  | panic p => intro s t; trivial
  | memory g k ih => intro s t; exact ih _
  | call c k ih => intro s t x hx; exact ⟨hall _ x hx c s t.world, ih _⟩

/-- A run adds calls to those made before. -/
theorem run_calls {o : ℕ → Option O} {p : Proc σ C ε α} :
    ∀ {s : σ} {t : Trace C W}, ∃ l, (p.run out o s t).2.calls = t.calls ++ l := by
  induction p with
  | ret a => intro s t; exact ⟨[], (List.append_nil _).symm⟩
  | fail e => intro s t; exact ⟨[], (List.append_nil _).symm⟩
  | panic p => intro s t; exact ⟨[], (List.append_nil _).symm⟩
  | memory g k ih => intro s t; exact ih _
  | call c k ih =>
    intro s t
    rw [run]
    cases o t.calls.length with
    | none => exact ⟨[], (List.append_nil _).symm⟩
    | some x =>
      obtain ⟨l, hl⟩ := ih (out.call x c t.world).1 (s := s) (t := out.after x c t)
      exact ⟨[⟨_, c⟩] ++ l, by rw [hl, Outside.after, Trace.push, List.append_assoc]⟩

/-- A run goes by the choices at the calls it makes, and no others; one
that is cut off meets the missing one as well. -/
theorem run_congr_choices {o o' : ℕ → Option O} {p : Proc σ C ε α} :
    ∀ {s : σ} {t : Trace C W}, (∀ i, t.calls.length ≤ i →
      i < (p.run out o s t).2.calls.length → o' i = o i) →
      (p.run out o s t).1 ≠ .stopped .crashed → p.run out o' s t = p.run out o s t := by
  induction p with
  | ret a => intro s t _ _; rfl
  | fail e => intro s t _ _; rfl
  | panic p => intro s t _ _; rfl
  | memory g k ih => intro s t h hend; exact ih _ h hend
  | call c k ih =>
    intro s t h hend
    rw [run] at h hend ⊢
    cases hx : o t.calls.length with
    | none =>
      rw [hx] at hend
      exact absurd rfl hend
    | some x =>
      rw [hx] at h hend
      obtain ⟨l, hl⟩ : ∃ l, ((k (out.call x c t.world).1).run out o s (out.after x c t)).2.calls =
          (out.after x c t).calls ++ l := run_calls
      have hmade : (out.after x c t).calls.length = t.calls.length + 1 := by
        rw [Outside.after, Trace.push, List.length_append, List.length_singleton]
      have hlength := congrArg List.length hl
      rw [List.length_append, hmade] at hlength
      have hhere : o' t.calls.length = some x := by
        rw [h t.calls.length le_rfl (by dsimp only; omega), hx]
      rw [run, hhere, hx]
      exact ih _ (fun i hi hlt => h i (by omega) hlt) hend

/-- A run whose every call is answered is not cut off. -/
theorem run_ne_crashed {o : ℕ → Option O} (ho : ∀ i, o i ≠ none) {p : Proc σ C ε α} :
    ∀ {s : σ} {t : Trace C W}, (p.run out o s t).1 ≠ .stopped .crashed := by
  induction p with
  | ret a =>
    intro s t he
    cases he
  | fail e =>
    intro s t he
    cases he
  | panic p =>
    intro s t he
    cases he
  | memory g k ih => intro s t; exact ih _
  | call c k ih =>
    intro s t
    rw [run]
    cases hx : o t.calls.length with
    | none => exact absurd hx (ho _)
    | some x => exact ih _

/-- A run that makes only calls of `P` makes one first, and such a run
after it. -/
theorem since_call {P : {ρ : Type} → C ρ → Prop} {o : ℕ → Option O} {x : O} {ρ : Type} {c : C ρ}
    {k : ρ → Proc σ C ε α} {s : σ} {t : Trace C W} (ho : o t.calls.length = some x)
    (h : ((call c k).run out o s t).2.Since t.calls P) :
    P c ∧ ((k (out.call x c t.world).1).run out o s (out.after x c t)).2.Since
      (out.after x c t).calls P := by
  rw [run, ho] at h
  obtain ⟨l, hl⟩ : ∃ l, ((k (out.call x c t.world).1).run out o s (out.after x c t)).2.calls =
      (out.after x c t).calls ++ l := run_calls
  obtain ⟨l', hl', hP⟩ := h
  have hcons : l' = ⟨_, c⟩ :: l := by
    have hcalls := hl'.symm.trans hl
    rw [Outside.after, Trace.push, List.append_assoc] at hcalls
    exact List.append_cancel_left hcalls
  subst hcons
  exact ⟨hP _ List.mem_cons_self, l, hl, fun d hd => hP d (List.mem_cons_of_mem _ hd)⟩

/-- A run that makes only calls whose every choice is considered is
allowed. -/
theorem allowed_of_since {P : {ρ : Type} → C ρ → Prop} {o : ℕ → Option O}
    (hP : ∀ {ρ : Type} (x : O) (c : C ρ) (s : σ) (w : W), P c → out.allows x c s w)
    {p : Proc σ C ε α} : ∀ {s : σ} {t : Trace C W}, (p.run out o s t).2.Since t.calls P →
      p.Allowed out o s t := by
  induction p with
  | ret a => intro s t _; trivial
  | fail e => intro s t _; trivial
  | panic p => intro s t _; trivial
  | memory g k ih => intro s t h; exact ih _ h
  | call c k ih =>
    intro s t h x hx
    obtain ⟨hc, hrest⟩ := since_call hx h
    exact ⟨hP x c s t.world hc, ih _ hrest⟩

theorem allowed_of_calls {P : {ρ : Type} → C ρ → Prop} {o : ℕ → Option O}
    (hP : ∀ {ρ : Type} (x : O) (c : C ρ) (s : σ) (w : W), P c → out.allows x c s w)
    {p : Proc σ C ε α} (h : ∀ c ∈ (p.run out o s t).2.calls, P c.2) : p.Allowed out o s t := by
  obtain ⟨l, hl⟩ := run_calls (p := p) (s := s) (t := t)
  refine allowed_of_since hP ⟨l, hl, fun c hc => h c ?_⟩
  rw [hl]
  exact List.mem_append_right _ hc

/-- A run is allowed when every call it makes is one of those considered
as it is answered. -/
theorem allowed_of_answered {o : ℕ → Option O} {p : Proc σ C ε α} :
    ∀ {s : σ} {t : Trace C W}, (∀ i c x, t.calls.length ≤ i →
      (p.run out o s t).2.calls[i]? = some c → o i = some x →
        ∀ s w, out.allows x c.2 s w) → p.Allowed out o s t := by
  induction p with
  | ret a => intro s t _; trivial
  | fail e => intro s t _; trivial
  | panic p => intro s t _; trivial
  | memory g k ih => intro s t h; exact ih _ h
  | call c k ih =>
    intro s t h x hx
    rw [run, hx] at h
    obtain ⟨l, hl⟩ : ∃ l, ((k (out.call x c t.world).1).run out o s (out.after x c t)).2.calls =
        (out.after x c t).calls ++ l := run_calls
    have hcalls : (out.after x c t).calls = t.calls ++ [⟨_, c⟩] := rfl
    have hthis : ((k (out.call x c t.world).1).run out o s (out.after x c t)).2.calls[
        t.calls.length]? = some ⟨_, c⟩ := by
      rw [hl, hcalls]
      simp
    refine ⟨h t.calls.length ⟨_, c⟩ x le_rfl hthis hx s t.world, ih _ fun i d y hi => ?_⟩
    rw [hcalls, List.length_append] at hi
    exact h i d y (by omega)

/-- What every call keeps, a procedure leaves. -/
theorem wp_of_invariant {I : W → Prop} (hcall : ∀ {ρ : Type} (x : O) (c : C ρ) (w : W), I w →
    I (out.call x c w).2) {p : Proc σ C ε α} : ∀ {s : σ} {t : Trace C W}, I t.world →
      p.wp out (fun _ _ t => I t.world) (fun _ t => I t.world) s t := by
  induction p with
  | ret a => intro s t h; exact h
  | fail e => intro s t h; exact h
  | panic p => intro s t h; exact h
  | memory g k ih => intro s t h; exact ih _ h
  | call c k ih => intro s t h; exact ⟨h, fun x _ => ih _ (hcall x c t.world h)⟩

/-- **Total runs.** What does not panic, and is answered at every call,
returns. -/
theorem run_returns {o : ℕ → Option O} (ho : ∀ i, o i ≠ none) {p : Proc σ C ε α} :
    ∀ {s : σ} {t : Trace C W}, p.wp out Q (fun x _ => x = .crashed) s t → p.Allowed out o s t →
      ∃ r s' t', p.run out o s t = (.returned r s', t') ∧ Q r s' t' := by
  induction p with
  | ret a => intro s t h _; exact ⟨_, _, _, rfl, h⟩
  | fail e => intro s t h _; exact ⟨_, _, _, rfl, h⟩
  | panic p => intro s t h _; cases h
  | memory g k ih => intro s t h ha; exact ih _ h ha
  | call c k ih =>
    intro s t h ha
    rw [run]
    cases hx : o t.calls.length with
    | none => exact absurd hx (ho _)
    | some x => exact ih _ (h.2 x (ha x hx).1) (ha x hx).2

/-- A run does not depend on which choices are considered. -/
theorem run_congr {out' : Outside C O σ W}
    (hcall : ∀ {ρ : Type} (x : O) (c : C ρ) (w : W), out'.call x c w = out.call x c w)
    {o : ℕ → Option O} {p : Proc σ C ε α} :
    ∀ {s : σ} {t : Trace C W}, p.run out' o s t = p.run out o s t := by
  induction p with
  | ret a => intro s t; rfl
  | fail e => intro s t; rfl
  | panic p => intro s t; rfl
  | memory g k ih => intro s t; exact ih _
  | call c k ih =>
    intro s t
    rw [run, run]
    cases o t.calls.length with
    | none => rfl
    | some x =>
      simp only [Outside.after, hcall]
      exact ih _

/-! ## Procedures that return no error -/

section NeverFails

def NeverFails : Proc σ C ε α → Prop
  | ret _ => True
  | fail _ => False
  | panic _ => True
  | memory _ k => ∀ r, (k r).NeverFails
  | call _ k => ∀ r, (k r).NeverFails

theorem neverFails_get : (get : Proc σ C ε σ).NeverFails := fun _ => trivial

theorem neverFails_modify (f : σ → σ) : (modify f : Proc σ C ε Unit).NeverFails := fun _ => trivial

theorem neverFails_ask {ρ : Type} (c : C ρ) : (ask c : Proc σ C ε ρ).NeverFails := fun _ => trivial

theorem neverFails_ofChecked (x : Checked α) : (ofChecked x : Proc σ C ε α).NeverFails := by
  cases x with
  | ok a => trivial
  | error p => trivial

theorem neverFails_bind {p : Proc σ C ε α} {f : α → Proc σ C ε β} (hp : p.NeverFails)
    (hf : ∀ a, (f a).NeverFails) : (p.bind f).NeverFails := by
  induction p with
  | ret a => exact hf a
  | fail e => exact hp.elim
  | panic p => trivial
  | memory g k ih => exact fun r => ih r (hp r)
  | call c k ih => exact fun r => ih r (hp r)

theorem neverFails_attempt (p : Proc σ C ε α) :
    (p.attempt : Proc σ C δ (Except ε α)).NeverFails := by
  induction p with
  | ret a => trivial
  | fail e => trivial
  | panic p => trivial
  | memory g k ih => exact ih
  | call c k ih => exact ih

theorem neverFails_ite {q : Prop} [Decidable q] {p p' : Proc σ C ε α} (hp : p.NeverFails)
    (hp' : p'.NeverFails) : (if q then p else p').NeverFails := by
  split
  · exact hp
  · exact hp'

theorem neverFails_forEach {body : β → Proc σ C ε Unit} (h : ∀ x, (body x).NeverFails)
    (xs : List β) : (forEach body xs).NeverFails := by
  induction xs with
  | nil => trivial
  | cons x xs ih => exact neverFails_bind (h x) fun _ => ih

theorem run_of_neverFails {o : ℕ → Option O} {p : Proc σ C ε α} (hp : p.NeverFails) :
    ∀ {s : σ} {t : Trace C W} {e : ε} {s' : σ}, (p.run out o s t).1 ≠ .returned (.error e) s' := by
  induction p with
  | ret a =>
    intro s t e s' h
    cases h
  | fail e => exact hp.elim
  | panic p =>
    intro s t e s' h
    cases h
  | memory g k ih => exact ih _ (hp _)
  | call c k ih =>
    intro s t e s' h
    rw [run] at h
    cases ho : o t.calls.length with
    | none =>
      rw [ho] at h
      cases h
    | some x =>
      rw [ho] at h
      exact ih _ (hp _) h

theorem wp_of_neverFails {p : Proc σ C ε α} (hp : p.NeverFails) :
    ∀ {s : σ} {t : Trace C W}, p.wp out Q X s t →
      p.wp out (fun r s t => ∃ a, r = .ok a ∧ Q (.ok a) s t) X s t := by
  induction p with
  | ret a => intro s t h; exact ⟨a, rfl, h⟩
  | fail e => exact hp.elim
  | panic p => intro s t h; exact h
  | memory g k ih => intro s t h; exact ih _ (hp _) h
  | call c k ih => intro s t h; exact ⟨h.1, fun x hx => ih _ (hp _) (h.2 x hx)⟩

end NeverFails

/-! ## What a procedure can call -/

section Makes

/-- From a memory, every call the procedure makes is one of `P`, as long
as every answer it gets is one of `R`; it panics only where `N` lets it,
and it returns with `K`. -/
def Makes (P : {ρ : Type} → C ρ → Prop) (R : {ρ : Type} → C ρ → ρ → Prop) (N : Prop)
    (K : Except ε α → σ → Prop) : Proc σ C ε α → σ → Prop
  | ret a, s => K (.ok a) s
  | fail e, s => K (.error e) s
  | panic _, _ => N
  | memory g k, s => (k (g s).1).Makes P R N K (g s).2
  | call c k, s => P c ∧ ∀ r, R c r → (k r).Makes P R N K s

variable {P : {ρ : Type} → C ρ → Prop} {R : {ρ : Type} → C ρ → ρ → Prop} {N : Prop}
variable {K : Except ε α → σ → Prop}

@[simp] theorem makes_ret {a : α} : (ret a : Proc σ C ε α).Makes P R N K s ↔ K (.ok a) s := Iff.rfl

@[simp] theorem makes_fail {e : ε} :
    (fail e : Proc σ C ε α).Makes P R N K s ↔ K (.error e) s := Iff.rfl

@[simp] theorem makes_panic {p : Panic} : (panic p : Proc σ C ε α).Makes P R N K s ↔ N := Iff.rfl

@[simp] theorem makes_get {K : Except ε σ → σ → Prop} :
    (get : Proc σ C ε σ).Makes P R N K s ↔ K (.ok s) s := Iff.rfl

@[simp] theorem makes_modify {f : σ → σ} {K : Except ε Unit → σ → Prop} :
    (modify f : Proc σ C ε Unit).Makes P R N K s ↔ K (.ok ()) (f s) := Iff.rfl

@[simp] theorem makes_ask {c : C α} :
    (ask c : Proc σ C ε α).Makes P R N K s ↔ P c ∧ ∀ a, R c a → K (.ok a) s := Iff.rfl

theorem makes_tryCall {c : C (Except δ α)} {f : δ → ε} :
    (tryCall f c : Proc σ C ε α).Makes P R N K s ↔
      P c ∧ (∀ a, R c (.ok a) → K (.ok a) s) ∧ ∀ e, R c (.error e) → K (.error (f e)) s := by
  constructor
  · intro h
    exact ⟨h.1, fun a ha => h.2 _ ha, fun e he => h.2 _ he⟩
  · rintro ⟨hc, hok, herr⟩
    refine ⟨hc, fun r hr => ?_⟩
    cases r with
    | ok a => exact hok a hr
    | error e => exact herr e hr

theorem makes_mono {p : Proc σ C ε α} {K' : Except ε α → σ → Prop}
    (hK : ∀ r s, K r s → K' r s) : ∀ {s : σ}, p.Makes P R N K s → p.Makes P R N K' s := by
  induction p with
  | ret a => intro s h; exact hK _ _ h
  | fail e => intro s h; exact hK _ _ h
  | panic p => intro s h; exact h
  | memory g k ih => intro s h; exact ih _ h
  | call c k ih => intro s h; exact ⟨h.1, fun r hr => ih r (h.2 r hr)⟩

/-- What holds one by one holds together. -/
theorem makes_and {p : Proc σ C ε α} {K' : Except ε α → σ → Prop} :
    ∀ {s : σ}, p.Makes P R N K s → p.Makes P R N K' s →
      p.Makes P R N (fun r s => K r s ∧ K' r s) s := by
  induction p with
  | ret a => intro s h h'; exact ⟨h, h'⟩
  | fail e => intro s h h'; exact ⟨h, h'⟩
  | panic p => intro s h _; exact h
  | memory g k ih => intro s h h'; exact ih _ h h'
  | call c k ih => intro s h h'; exact ⟨h.1, fun r hr => ih r (h.2 r hr) (h'.2 r hr)⟩

theorem makes_bind {p : Proc σ C ε α} {f : α → Proc σ C ε β} {K : Except ε β → σ → Prop} :
    ∀ {s : σ}, (p.bind f).Makes P R N K s ↔ p.Makes P R N (fun r s => match r with
      | .ok a => (f a).Makes P R N K s
      | .error e => K (.error e) s) s := by
  induction p with
  | ret a => intro s; exact Iff.rfl
  | fail e => intro s; exact Iff.rfl
  | panic p => intro s; exact Iff.rfl
  | memory g k ih => intro s; exact ih _
  | call c k ih =>
    intro s
    exact and_congr_right fun _ => forall_congr' fun r => imp_congr_right fun _ => ih r

theorem makes_tryCall_bind {c : C (Except δ α)} {f : δ → ε} {k : α → Proc σ C ε β}
    {K : Except ε β → σ → Prop} :
    ((tryCall f c).bind k).Makes P R N K s ↔
      P c ∧ (∀ a, R c (.ok a) → (k a).Makes P R N K s) ∧
        ∀ e, R c (.error e) → K (.error (f e)) s := by
  rw [makes_bind, makes_tryCall]

theorem makes_attempt {p : Proc σ C ε α} {K : Except δ (Except ε α) → σ → Prop} :
    ∀ {s : σ}, (p.attempt : Proc σ C δ (Except ε α)).Makes P R N K s ↔
      p.Makes P R N (fun r s => K (.ok r) s) s := by
  induction p with
  | ret a => intro s; exact Iff.rfl
  | fail e => intro s; exact Iff.rfl
  | panic p => intro s; exact Iff.rfl
  | memory g k ih => intro s; exact ih _
  | call c k ih =>
    intro s
    exact and_congr_right fun _ => forall_congr' fun r => imp_congr_right fun _ => ih r

/-- Fewer calls, from more answers. -/
theorem makes_imp {P' : {ρ : Type} → C ρ → Prop} {R' : {ρ : Type} → C ρ → ρ → Prop}
    (hP : ∀ {ρ : Type} (c : C ρ), P c → P' c)
    (hR : ∀ {ρ : Type} (c : C ρ) (r : ρ), P c → R' c r → R c r) {p : Proc σ C ε α} :
    ∀ {s : σ}, p.Makes P R N K s → p.Makes P' R' N K s := by
  induction p with
  | ret a => intro s h; exact h
  | fail e => intro s h; exact h
  | panic p => intro s h; exact h
  | memory g k ih => intro s h; exact ih _ h
  | call c k ih => intro s h; exact ⟨hP c h.1, fun r hr => ih r (h.2 r (hR c r h.1 hr))⟩

/-- **What the calls keep.** If the calls of `P` keep an invariant of the
world, and under it answer as in `R`, then the calls a run makes are all
of `P`, wherever it is cut off. -/
theorem wp_of_makes {I : W → Prop} (hcall : ∀ {ρ : Type} (x : O) (c : C ρ) (s : σ) (w : W), P c →
      I w → out.allows x c s w → R c (out.call x c w).1 ∧ I (out.call x c w).2)
    {p : Proc σ C ε α} {before : List (Σ ρ : Type, C ρ)} :
    ∀ {s : σ} {t : Trace C W}, p.Makes P R N K s → I t.world → t.Since before P →
      p.wp out (fun r s t => K r s ∧ I t.world ∧ t.Since before P)
        (fun x t => (x = .crashed ∨ N) ∧ I t.world ∧ t.Since before P) s t := by
  induction p with
  | ret a => intro s t h hI hl; exact ⟨h, hI, hl⟩
  | fail e => intro s t h hI hl; exact ⟨h, hI, hl⟩
  | panic p => intro s t h hI hl; exact ⟨Or.inr h, hI, hl⟩
  | memory g k ih => intro s t h hI hl; exact ih _ h hI hl
  | call c k ih =>
    intro s t h hI hl
    refine ⟨⟨Or.inl rfl, hI, hl⟩, fun x hx => ?_⟩
    obtain ⟨hr, hI'⟩ := hcall x c s t.world h.1 hI hx
    exact ih _ (h.2 _ hr) hI' (hl.after h.1)

/-- The same for every run, whichever choices are considered. -/
theorem run_of_makes (hR : ∀ {ρ : Type} (c : C ρ) (r : ρ), R c r) {p : Proc σ C ε α}
    {o : ℕ → Option O} {before : List (Σ ρ : Type, C ρ)} :
    ∀ {s : σ} {t : Trace C W}, p.Makes P R N K s → t.Since before P →
      Ended.Meets (fun r s t => K r s ∧ t.Since before P) (fun _ t => t.Since before P)
        (p.run out o s t) := by
  induction p with
  | ret a => intro s t h hl; exact ⟨h, hl⟩
  | fail e => intro s t h hl; exact ⟨h, hl⟩
  | panic p => intro s t _ hl; exact hl
  | memory g k ih => intro s t h hl; exact ih _ h hl
  | call c k ih =>
    intro s t h hl
    rw [run]
    cases ho : o t.calls.length with
    | none => exact hl
    | some x => exact ih _ (h.2 _ (hR c _)) (hl.after h.1)

end Makes

/-! ## What a procedure keeps -/

section Keeps

/-- From every memory of `K` the procedure makes calls of `P` only, panics
where `N` lets it, and returns with a memory of `K`. -/
def Keeps (P : {ρ : Type} → C ρ → Prop) (R : {ρ : Type} → C ρ → ρ → Prop) (N : Prop) (K : σ → Prop)
    (p : Proc σ C ε α) : Prop :=
  ∀ s, K s → p.Makes P R N (fun _ s => K s) s

variable {P : {ρ : Type} → C ρ → Prop} {R : {ρ : Type} → C ρ → ρ → Prop} {N : Prop}
variable {K : σ → Prop}

theorem keeps_ret {a : α} : (ret a : Proc σ C ε α).Keeps P R N K := fun _ hs => hs

theorem keeps_fail {e : ε} : (fail e : Proc σ C ε α).Keeps P R N K := fun _ hs => hs

theorem keeps_panic {p : Panic} (hN : N) : (panic p : Proc σ C ε α).Keeps P R N K := fun _ _ => hN

theorem keeps_modify {f : σ → σ} (h : ∀ s, K s → K (f s)) :
    (modify f : Proc σ C ε Unit).Keeps P R N K := h

theorem keeps_ask {c : C α} (h : P c) : (ask c : Proc σ C ε α).Keeps P R N K :=
  fun _ hs => ⟨h, fun _ _ => hs⟩

theorem keeps_ofExcept {f : δ → ε} {x : Except δ α} :
    (ofExcept f x : Proc σ C ε α).Keeps P R N K := by
  cases x with
  | ok a => exact keeps_ret
  | error e => exact keeps_fail

theorem keeps_ofChecked {x : Checked α} (hN : ∀ p, x = .error p → N) :
    (ofChecked x : Proc σ C ε α).Keeps P R N K := by
  cases x with
  | ok a => exact keeps_ret
  | error p => exact keeps_panic (hN p rfl)

theorem keeps_tryCall {f : δ → ε} {c : C (Except δ α)} (h : P c) :
    (tryCall f c : Proc σ C ε α).Keeps P R N K :=
  fun s hs => ⟨h, fun _ _ => keeps_ofExcept s hs⟩

theorem keeps_bind {p : Proc σ C ε α} {f : α → Proc σ C ε β} (hp : p.Keeps P R N K)
    (hf : ∀ a, (f a).Keeps P R N K) : (p.bind f).Keeps P R N K := by
  intro s hs
  rw [makes_bind]
  refine makes_mono ?_ (hp s hs)
  intro r s hr
  cases r with
  | ok a => exact hf a s hr
  | error e => exact hr

theorem keeps_ask_bind {c : C α} {f : α → Proc σ C ε β} (h : P c)
    (hf : ∀ a, R c a → (f a).Keeps P R N K) : ((ask c : Proc σ C ε α).bind f).Keeps P R N K :=
  fun s hs => ⟨h, fun a ha => hf a ha s hs⟩

/-- What comes after a call knows its answer. -/
theorem keeps_tryCall_bind {g : δ → ε} {c : C (Except δ α)} {f : α → Proc σ C ε β} (h : P c)
    (hf : ∀ a, R c (.ok a) → (f a).Keeps P R N K) :
    ((tryCall g c : Proc σ C ε α).bind f).Keeps P R N K := by
  intro s hs
  rw [makes_bind, makes_tryCall]
  exact ⟨h, fun a ha => hf a ha s hs, fun _ _ => hs⟩

/-- A read memory is one of `K`. -/
theorem keeps_get_bind {f : σ → Proc σ C ε β} (hf : ∀ s, K s → (f s).Keeps P R N K) :
    ((get : Proc σ C ε σ).bind f).Keeps P R N K :=
  fun s hs => hf s hs s hs

/-- What is there for an `expect` to find. -/
theorem keeps_expect_bind {message : String} {x : Option α} {f : α → Proc σ C ε β}
    (hN : x = none → N) (hf : ∀ a, x = some a → (f a).Keeps P R N K) :
    ((ofChecked (Checked.expect message x) : Proc σ C ε α).bind f).Keeps P R N K := by
  cases x with
  | none => exact keeps_panic (hN rfl)
  | some a => exact hf a rfl

theorem keeps_memory {g : σ → α × σ} (hg : ∀ s, K s → K (g s).2) :
    (memory g ret : Proc σ C ε α).Keeps P R N K :=
  fun s hs => hg s hs

theorem keeps_attempt {p : Proc σ C ε α} (hp : p.Keeps P R N K) :
    (p.attempt : Proc σ C δ (Except ε α)).Keeps P R N K :=
  fun s hs => makes_attempt.2 (hp s hs)

theorem keeps_ite {q : Prop} [Decidable q] {p p' : Proc σ C ε α} (hp : p.Keeps P R N K)
    (hp' : p'.Keeps P R N K) : (if q then p else p').Keeps P R N K := by
  split
  · exact hp
  · exact hp'

theorem keeps_forEach {body : β → Proc σ C ε Unit} {xs : List β}
    (h : ∀ x ∈ xs, (body x).Keeps P R N K) : (forEach body xs).Keeps P R N K := by
  induction xs with
  | nil => exact keeps_ret
  | cons x xs ih =>
    refine keeps_bind (h x List.mem_cons_self) fun _ => ih fun y hy => ?_
    exact h y (List.mem_cons_of_mem x hy)

theorem Keeps.imp {P' : {ρ : Type} → C ρ → Prop} {R' : {ρ : Type} → C ρ → ρ → Prop}
    (hP : ∀ {ρ : Type} (c : C ρ), P c → P' c)
    (hR : ∀ {ρ : Type} (c : C ρ) (r : ρ), P c → R' c r → R c r) {p : Proc σ C ε α}
    (h : p.Keeps P R N K) : p.Keeps P' R' N K :=
  fun s hs => makes_imp hP hR (h s hs)

end Keeps

end Proc

end Keel
