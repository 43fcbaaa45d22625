import Keel.Common.Proc
/-!
# Two runs side by side

Two procedures that make the same calls, each from a memory and on a
world of its own, and come to the same end: whatever the outside chooses,
as long as it chooses the same for both. `Twin` carries a relation
between the two memories and the two worlds through both procedures, by
rules that follow the procedures' shape; `Twin.run` carries it into every
pair of runs. `Calls` is about a procedure that keeps off its memory:
two runs of it stay side by side where every call keeps the worlds
related.
-/

namespace Keel

/-- Two runs have come to the same end, with `Q` of what they leave. -/
def Ended.Alike {σ ε α W : Type} {C : Type → Type} (Q : Except ε α → σ → σ → W → W → Prop) :
    Ended σ ε α × Trace C W → Ended σ ε α × Trace C W → Prop
  | (.returned r s, t), (.returned r' s', t') => r' = r ∧ Q r s s' t.world t'.world
  | (.stopped x, _), (.stopped x', _) => x' = x
  | _, _ => False

theorem Ended.Alike.returned {σ ε α W : Type} {C : Type → Type}
    {Q : Except ε α → σ → σ → W → W → Prop} {e e' : Ended σ ε α × Trace C W}
    (h : Ended.Alike Q e e') {r : Except ε α} {s : σ} (he : e.1 = .returned r s) :
    ∃ s', e'.1 = .returned r s' ∧ Q r s s' e.2.world e'.2.world := by
  obtain ⟨ending, t⟩ := e
  obtain ⟨ending', t'⟩ := e'
  cases he
  cases ending' with
  | returned r' s' =>
    obtain ⟨rfl, hq⟩ := h
    exact ⟨s', rfl, hq⟩
  | stopped x => exact h.elim

/-- What stops one stops the other. -/
theorem Ended.Alike.stopped {σ ε α W : Type} {C : Type → Type}
    {Q : Except ε α → σ → σ → W → W → Prop} {e e' : Ended σ ε α × Trace C W}
    (h : Ended.Alike Q e e') {x : Stop} (he : e.1 = .stopped x) : e'.1 = .stopped x := by
  obtain ⟨ending, t⟩ := e
  obtain ⟨ending', t'⟩ := e'
  cases he
  cases ending' with
  | returned r' s' => exact h.elim
  | stopped x' => exact congrArg Ended.stopped h

namespace Proc

variable {σ W O ε δ : Type} {C : Type → Type} {α β : Type}

/-- **Side by side.** The two make the same calls and come to the same
end, with `Q` of the two memories and the two worlds. -/
inductive Twin (out : Outside C O σ W) (Q : Except ε α → σ → σ → W → W → Prop) :
    Proc σ C ε α → σ → W → Proc σ C ε α → σ → W → Prop
  | ret {a : α} {s s' : σ} {w w' : W} (h : Q (.ok a) s s' w w') :
      Twin out Q (.ret a) s w (.ret a) s' w'
  | fail {e : ε} {s s' : σ} {w w' : W} (h : Q (.error e) s s' w w') :
      Twin out Q (.fail e) s w (.fail e) s' w'
  | panic {p : Panic} {s s' : σ} {w w' : W} : Twin out Q (.panic p) s w (.panic p) s' w'
  | left {ρ : Type} {g : σ → ρ × σ} {k : ρ → Proc σ C ε α} {p' : Proc σ C ε α} {s s' : σ}
      {w w' : W} (h : Twin out Q (k (g s).1) (g s).2 w p' s' w') :
      Twin out Q (.memory g k) s w p' s' w'
  | right {ρ : Type} {g : σ → ρ × σ} {k : ρ → Proc σ C ε α} {p : Proc σ C ε α} {s s' : σ}
      {w w' : W} (h : Twin out Q p s w (k (g s').1) (g s').2 w') :
      Twin out Q p s w (.memory g k) s' w'
  | call {ρ : Type} {c : C ρ} {k k' : ρ → Proc σ C ε α} {s s' : σ} {w w' : W}
      (h : ∀ x, Twin out Q (k (out.call x c w).1) s (out.call x c w).2
        (k' (out.call x c w').1) s' (out.call x c w').2) :
      Twin out Q (.call c k) s w (.call c k') s' w'

namespace Twin

variable {out : Outside C O σ W} {Q : Except ε α → σ → σ → W → W → Prop}
variable {p p' : Proc σ C ε α} {s s' : σ} {w w' : W}

theorem mono {Q' : Except ε α → σ → σ → W → W → Prop} (h : Twin out Q p s w p' s' w')
    (hQ : ∀ r s s' w w', Q r s s' w w' → Q' r s s' w w') : Twin out Q' p s w p' s' w' := by
  induction h with
  | ret h => exact .ret (hQ _ _ _ _ _ h)
  | fail h => exact .fail (hQ _ _ _ _ _ h)
  | panic => exact .panic
  | left _ ih => exact .left ih
  | right _ ih => exact .right ih
  | call _ ih => exact .call ih

/-- **Sequencing.** What comes second starts from what the first parts
leave. -/
theorem bind {f f' : α → Proc σ C ε β} {Q' : Except ε β → σ → σ → W → W → Prop}
    (h : Twin out Q p s w p' s' w')
    (hok : ∀ a s s' w w', Q (.ok a) s s' w w' → Twin out Q' (f a) s w (f' a) s' w')
    (herror : ∀ e s s' w w', Q (.error e) s s' w w' → Q' (.error e) s s' w w') :
    Twin out Q' (p.bind f) s w (p'.bind f') s' w' := by
  induction h with
  | ret h => exact hok _ _ _ _ _ h
  | fail h => exact .fail (herror _ _ _ _ _ h)
  | panic => exact .panic
  | left _ ih => exact .left ih
  | right _ ih => exact .right ih
  | call _ ih => exact .call ih

theorem attempt {Q : Except δ (Except ε α) → σ → σ → W → W → Prop}
    (h : Twin out (fun r s s' w w' => Q (.ok r) s s' w w') p s w p' s' w') :
    Twin out Q (p.attempt : Proc σ C δ (Except ε α)) s w p'.attempt s' w' := by
  induction h with
  | ret h => exact .ret h
  | fail h => exact .ret h
  | panic => exact .panic
  | left _ ih => exact .left ih
  | right _ ih => exact .right ih
  | call _ ih => exact .call ih

/-- Each goes on with its own memory. -/
theorem get_bind {f f' : σ → Proc σ C ε α} (h : Twin out Q (f s) s w (f' s') s' w') :
    Twin out Q (get.bind f) s w (get.bind f') s' w' := .left (.right h)

theorem ofExcept {f : δ → ε} {x : Except δ α} (hok : ∀ a, x = .ok a → Q (.ok a) s s' w w')
    (herror : ∀ e, x = .error e → Q (.error (f e)) s s' w w') :
    Twin out Q (Proc.ofExcept f x) s w (Proc.ofExcept f x) s' w' := by
  cases x with
  | ok a => exact .ret (hok a rfl)
  | error e => exact .fail (herror e rfl)

/-- **Soundness.** Runs that are answered alike end alike. -/
theorem run (h : Twin out Q p s w p' s' w') : ∀ {t t' : Trace C W} {o o' : ℕ → Option O},
    t.world = w → t'.world = w' →
    (∀ i, o' (t'.calls.length + i) = o (t.calls.length + i)) →
      Ended.Alike Q (p.run out o s t) (p'.run out o' s' t') := by
  induction h with
  | ret h =>
    rintro t t' o o' rfl rfl _
    exact ⟨rfl, h⟩
  | fail h =>
    rintro t t' o o' rfl rfl _
    exact ⟨rfl, h⟩
  | panic => exact fun _ _ _ => rfl
  | left _ ih => exact ih
  | right _ ih => exact ih
  | @call ρ c k k' s s' w w' _ ih =>
    rintro t t' o o' rfl rfl hsame
    have hhere : o' t'.calls.length = o t.calls.length := hsame 0
    rw [Proc.run, Proc.run, hhere]
    cases o t.calls.length with
    | none => exact rfl
    | some x =>
      refine ih x rfl rfl fun i => ?_
      have hnext := hsame (i + 1)
      simp only [Outside.after, Trace.push, List.length_append, List.length_singleton]
      rw [Nat.add_assoc, Nat.add_assoc, Nat.add_comm 1 i]
      exact hnext

end Twin

/-! ## Procedures that keep off their memory -/

section Calls

/-- It neither reads nor changes its memory, and every call it can make
is one of `P`. -/
def Calls (P : {ρ : Type} → C ρ → Prop) : Proc σ C ε α → Prop
  | ret _ => True
  | fail _ => True
  | panic _ => True
  | memory _ _ => False
  | call c k => P c ∧ ∀ r, (k r).Calls P

variable {P : {ρ : Type} → C ρ → Prop}

theorem calls_bind {p : Proc σ C ε α} {f : α → Proc σ C ε β} (hp : p.Calls P)
    (hf : ∀ a, (f a).Calls P) : (p.bind f).Calls P := by
  induction p with
  | ret a => exact hf a
  | fail e => trivial
  | panic p => trivial
  | memory g k ih => exact hp.elim
  | call c k ih => exact ⟨hp.1, fun r => ih r (hp.2 r)⟩

theorem calls_ofExcept (f : δ → ε) (x : Except δ α) : (ofExcept f x : Proc σ C ε α).Calls P := by
  cases x with
  | ok a => trivial
  | error e => trivial

theorem calls_ask {c : C α} (hc : P c) : (ask c : Proc σ C ε α).Calls P := ⟨hc, fun _ => trivial⟩

theorem calls_tryCall {f : δ → ε} {c : C (Except δ α)} (hc : P c) :
    (tryCall f c : Proc σ C ε α).Calls P :=
  ⟨hc, fun r => calls_ofExcept f r⟩

theorem calls_ite {q : Prop} [Decidable q] {p p' : Proc σ C ε α} (hp : p.Calls P)
    (hp' : p'.Calls P) : (if q then p else p').Calls P := by
  split
  · exact hp
  · exact hp'

theorem calls_forEach {body : β → Proc σ C ε Unit} {xs : List β}
    (h : ∀ x ∈ xs, (body x).Calls P) : (forEach body xs).Calls P := by
  induction xs with
  | nil => trivial
  | cons x xs ih =>
    refine calls_bind (h x List.mem_cons_self) fun _ => ih fun y hy => ?_
    exact h y (List.mem_cons_of_mem x hy)

/-- **What the calls keep related.** Two runs of one procedure, each from
a memory of its own. -/
theorem Calls.twin {out : Outside C O σ W} {I : W → W → Prop}
    (hcall : ∀ {ρ : Type} (x : O) (c : C ρ) (w w' : W), P c → I w w' →
      (out.call x c w').1 = (out.call x c w).1 ∧ I (out.call x c w).2 (out.call x c w').2)
    {p : Proc σ C ε α} (hp : p.Calls P) (s s' : σ) : ∀ {w w' : W}, I w w' →
      Twin out (fun _ s₁ s₁' w₁ w₁' => s₁ = s ∧ s₁' = s' ∧ I w₁ w₁') p s w p s' w' := by
  induction p with
  | ret a => exact fun h => .ret ⟨rfl, rfl, h⟩
  | fail e => exact fun h => .fail ⟨rfl, rfl, h⟩
  | panic p => exact fun _ => .panic
  | memory g k ih => exact hp.elim
  | call c k ih =>
    intro w w' h
    refine .call fun x => ?_
    obtain ⟨hsame, hI⟩ := hcall x c w w' hp.1 h
    rw [hsame]
    exact ih _ (hp.2 _) hI

end Calls

end Proc

end Keel
