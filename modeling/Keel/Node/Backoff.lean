import Keel.Node.Model.Reconciler
/-!
# Cooldowns that do not escalate

An attempt waits for the cooldown of the one before it, and the distance
between the two is then taken for how long the jail was up. So the delay
doubles up to 64 seconds only: by then the cooldown alone is past the
threshold, and the next attempt is back at one second
(`backoff_never_escalates`), whether or not the jail was ever up.
-/

namespace Keel

namespace Node

namespace BackoffState

variable {b : BackoffState} {now : ℕ}

/-- How long an attempt makes the next one wait. -/
def armedDelay (b : BackoffState) (now : ℕ) : ℕ :=
  ((b.recordAttempt now).nextRetryAt.getD now) - now

/-- The delay of an attempt: the first again once the last is a minute
ago. -/
theorem armedDelay_eq : b.armedDelay now =
    if b.lastStartedAt.any fun last => resetUptimeThreshold ≤ now - last then initialDelay
    else b.currentDelay := by
  simp only [armedDelay, recordAttempt, Option.getD_some]
  omega

theorem recordAttempt_eq : b.recordAttempt now =
    ⟨min (b.armedDelay now * 2) maxDelay, some (now + b.armedDelay now), some now⟩ := by
  rw [armedDelay_eq]
  rfl

theorem canRetry_recordAttempt {t : ℕ} :
    (b.recordAttempt now).canRetry t = true ↔ now + b.armedDelay now ≤ t := by
  rw [recordAttempt_eq]
  simp [canRetry]

end BackoffState

open BackoffState

/-! ## Attempts -/

/-- The cooldown before the `k`-th of some attempts. -/
def cooldown (time : ℕ → ℕ) : ℕ → BackoffState
  | 0 => .new
  | k + 1 => (cooldown time k).recordAttempt (time k)

/-- **Attempts on a jail**, each made once the cooldown of the last is
over, and how long the jail was up after each. -/
structure Attempts where
  time : ℕ → ℕ
  up : ℕ → ℕ
  retries : ∀ k, (cooldown time k).canRetry (time k) = true
  up_le : ∀ k, up k ≤ time (k + 1) - time k

namespace Attempts

variable (a : Attempts)

/-- The delay the `k`-th attempt arms. -/
def delay (k : ℕ) : ℕ := (cooldown a.time k).armedDelay (a.time k)

/-- **What is promised of the delays.** They never shrink, reach the
greatest there is, and start over only after the jail was up for long. -/
structure Escalates : Prop where
  grows : ∀ k, a.delay k ≤ a.delay (k + 1)
  capped : ∃ k, a.delay k = maxDelay
  resets : ∀ k, a.delay (k + 1) = initialDelay → resetUptimeThreshold ≤ a.up k

/-! ## Proof -/

/-- An attempt waits for the one before. -/
theorem wait_le (k : ℕ) : a.time k + a.delay k ≤ a.time (k + 1) :=
  canRetry_recordAttempt.1 (a.retries (k + 1))

theorem delay_zero : a.delay 0 = initialDelay := by
  have hfresh : a.delay 0 = BackoffState.new.armedDelay (a.time 0) := rfl
  rw [hfresh, armedDelay_eq]
  simp [BackoffState.new]

/-- The next delay goes by how far the attempts are apart. -/
theorem delay_succ (k : ℕ) : a.delay (k + 1) =
    if resetUptimeThreshold ≤ a.time (k + 1) - a.time k then initialDelay
    else min (a.delay k * 2) maxDelay := by
  have hcooldown : cooldown a.time (k + 1) =
      ⟨min (a.delay k * 2) maxDelay, some (a.time k + a.delay k), some (a.time k)⟩ :=
    recordAttempt_eq
  have harmed : a.delay (k + 1) = (cooldown a.time (k + 1)).armedDelay (a.time (k + 1)) := rfl
  rw [harmed, hcooldown, armedDelay_eq]
  simp

/-- **A delay is a power of two**, of 64 seconds at most: past that the
wait itself is a minute. -/
theorem delay_eq_pow (k : ℕ) : ∃ j ≤ 6, a.delay k = 2 ^ j * second := by
  induction k with
  | zero => exact ⟨0, by omega, a.delay_zero⟩
  | succ k ih =>
    obtain ⟨j, hj, hdelay⟩ := ih
    rw [delay_succ]
    split
    · exact ⟨0, by omega, rfl⟩
    · rename_i hgap
      have hwait := a.wait_le k
      have hshort : a.delay k < resetUptimeThreshold := by omega
      have hlt : j < 6 := by
        by_contra hge
        obtain rfl : j = 6 := by omega
        rw [hdelay] at hshort
        exact absurd hshort (by decide)
      refine ⟨j + 1, hlt, ?_⟩
      have hcap : 2 ^ (j + 1) * second ≤ maxDelay := by
        have hpow : 2 ^ (j + 1) ≤ 2 ^ 6 := Nat.pow_le_pow_right (by decide) hlt
        exact (Nat.mul_le_mul_right second hpow).trans (by decide)
      rw [hdelay, Nat.mul_right_comm, ← pow_succ, min_eq_left hcap]

theorem delay_le (k : ℕ) : a.delay k ≤ 64 * second := by
  obtain ⟨j, hj, hdelay⟩ := a.delay_eq_pow k
  have hpow : 2 ^ j ≤ 2 ^ 6 := Nat.pow_le_pow_right (by decide) hj
  rw [hdelay]
  exact Nat.mul_le_mul_right second hpow

/-- Until it starts over, the delay doubles with every attempt. -/
theorem pow_le_delay {k n : ℕ} (h : ∀ j < n, a.delay (k + j + 1) ≠ initialDelay) :
    min (2 ^ n * second) maxDelay ≤ a.delay (k + n) := by
  induction n with
  | zero =>
    obtain ⟨j, -, hdelay⟩ := a.delay_eq_pow k
    have hpow : 1 ≤ 2 ^ j := Nat.one_le_two_pow
    have hle := Nat.mul_le_mul_right second hpow
    rw [Nat.add_zero, hdelay]
    omega
  | succ n ih =>
    have hn := h n (Nat.lt_succ_self n)
    have hlast := ih fun j hj => h j (by omega)
    have hnext := a.delay_succ (k + n)
    rw [← Nat.add_assoc]
    split at hnext
    · exact absurd hnext hn
    · rw [hnext, pow_succ, Nat.mul_right_comm]
      omega

/-- **It starts over within seven attempts.** -/
theorem resets_within (k : ℕ) : ∃ j ≤ 6, a.delay (k + j + 1) = initialDelay := by
  by_contra hnone
  have hlarge := a.pow_le_delay (k := k) (n := 7) fun j hj heq => hnone ⟨j, by omega, heq⟩
  have hsmall := a.delay_le (k + 7)
  exact absurd (hlarge.trans hsmall) (by decide)

end Attempts

/-- **A jail that never stays up is retried every minute**: the delay
never passes 64 seconds, and starts over within any seven attempts. -/
theorem backoff_never_escalates (a : Attempts) (hup : ∀ k, a.up k = 0) :
    ¬ a.Escalates ∧ (∀ k, a.delay k ≤ 64 * second) ∧
      ∀ k, ∃ j ≤ 6, a.delay (k + j + 1) = initialDelay := by
  refine ⟨fun h => ?_, a.delay_le, a.resets_within⟩
  obtain ⟨j, -, hreset⟩ := a.resets_within 0
  have hlong := h.resets _ hreset
  rw [hup] at hlong
  exact absurd hlong (by decide)

namespace Sample

/-- The cooldown and the time at each attempt of a jail that is retried
as soon as may be. -/
def eagerly : ℕ → BackoffState × ℕ
  | 0 => (.new, 0)
  | k + 1 =>
    let b := (eagerly k).1.recordAttempt (eagerly k).2
    (b, b.nextRetryAt.getD 0)

theorem cooldown_eagerly (k : ℕ) : cooldown (fun k => (eagerly k).2) k = (eagerly k).1 := by
  induction k with
  | zero => rfl
  | succ k ih =>
    unfold cooldown
    rw [ih]
    rfl

/-- Its attempts; it exits at once each time. -/
def eager : Attempts where
  time k := (eagerly k).2
  up _ := 0
  retries k := by
    rw [cooldown_eagerly]
    cases k with
    | zero => rfl
    | succ k => simp [eagerly, canRetry, recordAttempt]
  up_le _ := Nat.zero_le _

end Sample

/-- After seven attempts that were each over at once it waits a second
again. -/
theorem backoff_never_escalates_counterexample :
    (∀ k, Sample.eager.up k = 0) ∧ Sample.eager.delay 6 = 64 * second ∧
      Sample.eager.delay 7 = initialDelay ∧ ¬ Sample.eager.Escalates := by
  have hshrinks : Sample.eager.delay 6 = 64 * second ∧ Sample.eager.delay 7 = initialDelay := by
    decide +kernel
  refine ⟨fun _ => rfl, hshrinks.1, hshrinks.2, fun h => ?_⟩
  have hgrows := h.grows 6
  rw [hshrinks.1, hshrinks.2] at hgrows
  exact absurd hgrows (by decide)

theorem backoff_never_escalates_eager :
    ¬ Sample.eager.Escalates ∧ (∀ k, Sample.eager.delay k ≤ 64 * second) ∧
      ∀ k, ∃ j ≤ 6, Sample.eager.delay (k + j + 1) = initialDelay :=
  backoff_never_escalates Sample.eager fun _ => rfl

end Node

end Keel
