import Mathlib.Data.List.Basic
/-!
# Request programs

A server whose state belongs to one worker thread, and whose handlers
talk to that worker by commands and to other machines by forwards. A
handler is a `Prog`: a tree of commands and forwards ending in an answer.
`Semantics` says what a command and a forward do to a world, the outside
choosing (`O`) whatever the program does not decide — the clock, the
iteration order of a hash map, what a peer answers.

`run` executes a program against a stream of choices; `wp` is the demonic
weakest precondition, over every choice. `wp_run` carries a `wp` into
every run, and `wp_bind` and `wp_forEach` are the two rules the handlers
are verified with. `Sends` is about a program by itself, wherever it is
interrupted: which commands it can send, given what it is replied;
`After` is which forwards it can make, given what the one before was
answered; `Answers` is which answers it can give.
-/

namespace Keel

universe u v

/-- A request handler over commands `C`, forwards `F` answered by `R`. -/
inductive Prog (C : Type → Type) (F R : Type) (α : Type) : Type 1
  /-- The handler answers. -/
  | ret (a : α) : Prog C F R α
  /-- A command to the worker; its reply has the command's own type. -/
  | command {ρ : Type} (c : C ρ) (k : ρ → Prog C F R α) : Prog C F R α
  /-- A request forwarded to another machine. -/
  | forward (f : F) (k : R → Prog C F R α) : Prog C F R α

/-- What commands and forwards do to a world `W`, given the outside's
choice at that point. -/
structure Semantics (C : Type → Type) (F R O : Type) (W : Type u) where
  command : {ρ : Type} → O → C ρ → W → ρ × W
  forward : O → F → W → R × W

namespace Prog

variable {C : Type → Type} {F R O : Type} {W : Type u} {α β : Type}

/-- Sequencing. -/
def bind : Prog C F R α → (α → Prog C F R β) → Prog C F R β
  | ret a, f => f a
  | command c k, f => command c fun r => (k r).bind f
  | forward x k, f => forward x fun r => (k r).bind f

instance : Monad (Prog C F R) where
  pure := ret
  bind := bind

/-- One command, answering its reply. -/
def send {ρ : Type} (c : C ρ) : Prog C F R ρ := command c ret

/-- One forward, answering what came back. -/
def call (f : F) : Prog C F R R := forward f ret

/-- `for x in xs { body }`. -/
def forEach (body : β → Prog C F R Unit) : List β → Prog C F R Unit
  | [] => ret ()
  | x :: xs => (body x).bind fun _ => forEach body xs

/-- Run a program from position `i` of a stream of choices. -/
def run (sem : Semantics C F R O W) (o : ℕ → O) : Prog C F R α → ℕ → W → α × W
  | ret a, _, w => (a, w)
  | command c k, i, w =>
    match sem.command (o i) c w with
    | (r, w') => (k r).run sem o (i + 1) w'
  | forward f k, i, w =>
    match sem.forward (o i) f w with
    | (r, w') => (k r).run sem o (i + 1) w'

/-- `Q` holds of the answer and the final world, whatever the outside
chooses on the way. -/
def wp (sem : Semantics C F R O W) : Prog C F R α → W → (α → W → Prop) → Prop
  | ret a, w, Q => Q a w
  | command c k, w, Q => ∀ o, (k (sem.command o c w).1).wp sem (sem.command o c w).2 Q
  | forward f k, w, Q => ∀ o, (k (sem.forward o f w).1).wp sem (sem.forward o f w).2 Q

variable {sem : Semantics C F R O W}

@[simp] theorem pure_eq (a : α) : (pure a : Prog C F R α) = ret a := rfl

@[simp] theorem bind_eq (p : Prog C F R α) (f : α → Prog C F R β) : p >>= f = p.bind f := rfl

@[simp] theorem ret_bind (a : α) (f : α → Prog C F R β) : (ret a).bind f = f a := rfl

@[simp] theorem send_bind {ρ : Type} (c : C ρ) (f : ρ → Prog C F R β) :
    (send c).bind f = command c f := rfl

@[simp] theorem call_bind (x : F) (f : R → Prog C F R β) :
    (call x).bind f = forward x f := rfl

/-! ## The rules -/

@[simp] theorem wp_ret {a : α} {w : W} {Q : α → W → Prop} :
    (ret a : Prog C F R α).wp sem w Q ↔ Q a w := Iff.rfl

@[simp] theorem wp_command {ρ : Type} {c : C ρ} {k : ρ → Prog C F R α} {w : W}
    {Q : α → W → Prop} :
    (command c k).wp sem w Q ↔
      ∀ o, (k (sem.command o c w).1).wp sem (sem.command o c w).2 Q := Iff.rfl

@[simp] theorem wp_forward {f : F} {k : R → Prog C F R α} {w : W} {Q : α → W → Prop} :
    (forward f k).wp sem w Q ↔
      ∀ o, (k (sem.forward o f w).1).wp sem (sem.forward o f w).2 Q := Iff.rfl

@[simp] theorem wp_send {ρ : Type} {c : C ρ} {w : W} {Q : ρ → W → Prop} :
    (send c : Prog C F R ρ).wp sem w Q ↔
      ∀ o, Q (sem.command o c w).1 (sem.command o c w).2 := Iff.rfl

/-- A weaker postcondition is easier to meet. -/
theorem wp_mono {p : Prog C F R α} {Q Q' : α → W → Prop} (h : ∀ a w, Q a w → Q' a w) :
    ∀ {w : W}, p.wp sem w Q → p.wp sem w Q' := by
  induction p with
  | ret a => intro w hw; exact h a w hw
  | command c k ih => intro w hw o; exact ih _ (hw o)
  | forward f k ih => intro w hw o; exact ih _ (hw o)

/-- **Sequencing.** The second program runs from whatever the first
leaves. -/
theorem wp_bind {p : Prog C F R α} {f : α → Prog C F R β} {Q : β → W → Prop} :
    ∀ {w : W}, (p.bind f).wp sem w Q ↔ p.wp sem w fun a w' => (f a).wp sem w' Q := by
  induction p with
  | ret a => intro w; exact Iff.rfl
  | command c k ih => intro w; exact forall_congr' fun o => ih _
  | forward x k ih => intro w; exact forall_congr' fun o => ih _

/-- **The loop rule.** An invariant indexed by what is still to be done,
kept by each pass through the body, holds with nothing left at the end. -/
theorem wp_forEach {body : β → Prog C F R Unit} (I : List β → W → Prop)
    (hbody : ∀ x xs w, I (x :: xs) w → (body x).wp sem w fun _ w' => I xs w') :
    ∀ (xs : List β) {w : W}, I xs w → (forEach body xs).wp sem w fun _ w' => I [] w' := by
  intro xs
  induction xs with
  | nil => intro w h; exact h
  | cons x xs ih =>
    intro w h
    rw [forEach, wp_bind]
    exact wp_mono (fun _ w' h' => ih h') (hbody x xs w h)

/-- **Soundness.** What `wp` promises, every run delivers. -/
theorem wp_run {p : Prog C F R α} {Q : α → W → Prop} {o : ℕ → O} :
    ∀ {w : W} {i : ℕ}, p.wp sem w Q → Q (p.run sem o i w).1 (p.run sem o i w).2 := by
  induction p with
  | ret a => intro w i h; exact h
  | command c k ih => intro w i h; exact ih _ (h (o i))
  | forward f k ih => intro w i h; exact ih _ (h (o i))

/-! ## Simulation -/

/-- **A finer world.** Under an invariant, every step of the second
semantics is, seen through `π`, a step of the first. -/
structure Simulates {O' : Type} {W' : Type v} (sem : Semantics C F R O W)
    (sem' : Semantics C F R O' W') (π : W' → W) (I : W' → Prop) : Prop where
  command : ∀ {ρ : Type} (o' : O') (c : C ρ) (w : W'), I w → I (sem'.command o' c w).2 ∧
    ∃ o, sem.command o c (π w) = ((sem'.command o' c w).1, π (sem'.command o' c w).2)
  forward : ∀ (o' : O') (f : F) (w : W'), I w → I (sem'.forward o' f w).2 ∧
    ∃ o, sem.forward o f (π w) = ((sem'.forward o' f w).1, π (sem'.forward o' f w).2)

/-- What holds of every run in the coarser world holds in the finer. -/
theorem wp_of_simulates {O' : Type} {W' : Type v} {sem' : Semantics C F R O' W'} {π : W' → W}
    {I : W' → Prop} (h : Simulates sem sem' π I) {p : Prog C F R α} {Q : α → W → Prop} :
    ∀ {w : W'}, I w → p.wp sem (π w) Q → p.wp sem' w fun a w' => Q a (π w') ∧ I w' := by
  induction p with
  | ret a => intro w hw hp; exact ⟨hp, hw⟩
  | command c k ih =>
    intro w hw hp o'
    obtain ⟨hI, o, ho⟩ := h.command o' c w hw
    have hnext := hp o
    rw [ho] at hnext
    exact ih _ hI hnext
  | forward f k ih =>
    intro w hw hp o'
    obtain ⟨hI, o, ho⟩ := h.forward o' f w hw
    have hnext := hp o
    rw [ho] at hnext
    exact ih _ hI hnext

/-! ## What a program can send -/

section Sends

variable {P : {ρ : Type} → C ρ → Prop} {Q : {ρ : Type} → C ρ → ρ → Prop}

/-- Every command the program sends is one of `P`, as long as every reply
it gets is one of `Q`. -/
def Sends (P : {ρ : Type} → C ρ → Prop) (Q : {ρ : Type} → C ρ → ρ → Prop) : Prog C F R α → Prop
  | ret _ => True
  | command c k => P c ∧ ∀ r, Q c r → (k r).Sends P Q
  | forward _ k => ∀ r, (k r).Sends P Q

@[simp] theorem sends_ret {a : α} : (ret a : Prog C F R α).Sends P Q := trivial

@[simp] theorem sends_command {ρ : Type} {c : C ρ} {k : ρ → Prog C F R α} :
    (command c k).Sends P Q ↔ P c ∧ ∀ r, Q c r → (k r).Sends P Q := Iff.rfl

@[simp] theorem sends_forward {f : F} {k : R → Prog C F R α} :
    (forward f k).Sends P Q ↔ ∀ r, (k r).Sends P Q := Iff.rfl

@[simp] theorem sends_send {ρ : Type} {c : C ρ} : (send c : Prog C F R ρ).Sends P Q ↔ P c :=
  ⟨fun h => h.1, fun h => ⟨h, fun _ _ => trivial⟩⟩

theorem sends_bind {p : Prog C F R α} {f : α → Prog C F R β} (hp : p.Sends P Q)
    (hf : ∀ a, (f a).Sends P Q) : (p.bind f).Sends P Q := by
  induction p with
  | ret a => exact hf a
  | command c k ih => exact ⟨hp.1, fun r hr => ih r (hp.2 r hr)⟩
  | forward x k ih => exact fun r => ih r (hp r)

theorem sends_forEach {body : β → Prog C F R Unit} {xs : List β}
    (h : ∀ x ∈ xs, (body x).Sends P Q) : (forEach body xs).Sends P Q := by
  induction xs with
  | nil => trivial
  | cons x xs ih =>
    refine sends_bind (h x List.mem_cons_self) fun _ => ih fun y hy => ?_
    exact h y (List.mem_cons_of_mem _ hy)

end Sends

/-! ## What a program can forward -/

section After

variable {P : Option (F × R) → F → Prop} {last : Option (F × R)}

/-- Every forward the program makes is one of `P`, given the forward it
made just before, if it did, and what that was answered. -/
def After (P : Option (F × R) → F → Prop) : Option (F × R) → Prog C F R α → Prop
  | _, ret _ => True
  | _, command _ k => ∀ r, (k r).After P none
  | last, forward f k => P last f ∧ ∀ r, (k r).After P (some (f, r))

@[simp] theorem after_ret {a : α} : (ret a : Prog C F R α).After P last := trivial

@[simp] theorem after_command {ρ : Type} {c : C ρ} {k : ρ → Prog C F R α} :
    (command c k).After P last ↔ ∀ r, (k r).After P none := Iff.rfl

@[simp] theorem after_forward {f : F} {k : R → Prog C F R α} :
    (forward f k).After P last ↔ P last f ∧ ∀ r, (k r).After P (some (f, r)) := Iff.rfl

theorem after_bind {p : Prog C F R α} {f : α → Prog C F R β} (hp : p.After P last)
    (hf : ∀ a last, (f a).After P last) : (p.bind f).After P last := by
  induction p generalizing last with
  | ret a => exact hf a last
  | command c k ih => exact fun r => ih r (hp r)
  | forward x k ih => exact ⟨hp.1, fun r => ih r (hp.2 r)⟩

theorem after_forEach {body : β → Prog C F R Unit} {xs : List β}
    (h : ∀ x ∈ xs, ∀ last, (body x).After P last) : (forEach body xs).After P last := by
  induction xs generalizing last with
  | nil => trivial
  | cons x xs ih =>
    refine after_bind (h x List.mem_cons_self last) fun _ last => ih fun y hy => ?_
    exact h y (List.mem_cons_of_mem _ hy)

end After

/-! ## What a program can answer -/

section Answers

variable {P : α → Prop} {Q : β → Prop}

/-- Every answer the program gives is one of `P`, whatever it is
replied. -/
def Answers (P : α → Prop) : Prog C F R α → Prop
  | ret a => P a
  | command _ k => ∀ r, (k r).Answers P
  | forward _ k => ∀ r, (k r).Answers P

@[simp] theorem answers_ret {a : α} : (ret a : Prog C F R α).Answers P ↔ P a := Iff.rfl

@[simp] theorem answers_command {ρ : Type} {c : C ρ} {k : ρ → Prog C F R α} :
    (command c k).Answers P ↔ ∀ r, (k r).Answers P := Iff.rfl

@[simp] theorem answers_forward {f : F} {k : R → Prog C F R α} :
    (forward f k).Answers P ↔ ∀ r, (k r).Answers P := Iff.rfl

/-- A program answers what its last part does. -/
theorem answers_bind {p : Prog C F R α} {f : α → Prog C F R β} (hf : ∀ a, (f a).Answers Q) :
    (p.bind f).Answers Q := by
  induction p with
  | ret a => exact hf a
  | command c k ih => exact fun r => ih r
  | forward x k ih => exact fun r => ih r

end Answers

end Prog

end Keel
