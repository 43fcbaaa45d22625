import Keel.Node.Backoff
import Keel.Node.Helpers.Visits
/-!
# Attempts are spaced

A visit takes a jail for started when it decides to provision or to
restart it, and from then on the jail's cooldown runs, whatever becomes of
the attempt. While it runs, no pass calls on the jail, so its part of the
machine stays as it is. Nothing but an attempt and a delete touches a
cooldown that there is, so the next attempt comes when it is over.
-/

namespace Keel

namespace Node

open Agent (JailRecord)

variable {Text : Type}

namespace Reconciler

/-! ## A visit and the cooldown -/

section Visit

variable {R : {ρ : Type} → Op Text ρ → ρ → Prop} {name : String} {record : JailRecord}
variable {now : ℕ} {r : Reconciler}

/-- The entry of a jail whose cooldown was looked at. -/
theorem makes_visitTask :
    (visitTask name record now : Method Text Task).Makes (fun _ => True) R True
      (fun result r' => r'.backoff.lookup name = some (r.cooldown name) ∧
        ∀ task, result = .ok task → task.isAttempt = true →
          (r.cooldown name).canRetry now = true) r := by
  have hchoose : (chooseTask name record : Method Text Task).Keeps (fun _ => True) R True
      fun r' => r'.backoff.lookup name = some (r.cooldown name) := by
    refine Proc.keeps_bind (Proc.keeps_tryCall trivial) fun there => Proc.keeps_ite ?_ Proc.keeps_ret
    refine Proc.keeps_bind (Proc.keeps_tryCall trivial) fun running => ?_
    exact Proc.keeps_ite Proc.keeps_ret (Proc.keeps_ite Proc.keeps_ret Proc.keeps_ret)
  have hchecked : ∀ r' : Reconciler, r'.backoff.lookup name = some (r.cooldown name) →
      (if (r.cooldown name).canRetry now = true then chooseTask name record else Proc.ret .leave :
        Method Text Task).Makes (fun _ => True) R True
        (fun result r' => r'.backoff.lookup name = some (r.cooldown name) ∧
          ∀ task, result = .ok task → task.isAttempt = true →
            (r.cooldown name).canRetry now = true) r' := by
    intro r' hr'
    split
    · rename_i hover
      exact Proc.makes_mono (fun _ _ hentry => ⟨hentry, fun _ _ _ => hover⟩) (hchoose r' hr')
    · refine ⟨hr', fun task htask hattempt => ?_⟩
      cases htask
      cases hattempt
  rw [visitTask, Proc.bind_eq, Proc.makes_bind, checkCooldown, Proc.Makes]
  cases hlookup : r.backoff.lookup name with
  | some b =>
    have hcooldown : r.cooldown name = b := by rw [cooldown, hlookup, Option.getD_some]
    rw [hcooldown] at hchecked ⊢
    exact hchecked r hlookup
  | none =>
    have hcooldown : r.cooldown name = .new := by rw [cooldown, hlookup, Option.getD_none]
    rw [hcooldown] at hchecked ⊢
    exact hchecked _ (AList.lookup_insert _)

theorem makes_recordAttempt {b : BackoffState} (hr : r.backoff.lookup name = some b) :
    (recordAttempt name now : Method Text Unit).Makes (fun _ => True) R True
      (fun _ r' => r'.backoff.lookup name = some (b.recordAttempt now)) r := by
  rw [recordAttempt, Proc.bind_eq, Proc.makes_bind, Proc.makes_get]
  dsimp only
  rw [hr]
  exact AList.lookup_insert _

/-- **Every attempt is recorded**, and nothing else. -/
theorem makes_perform {pool : String} {b : BackoffState} (hr : r.backoff.lookup name = some b)
    (task : Task) : (task.perform pool name record now : Method Text Unit).Makes (fun _ => True) R
      True (fun _ r' => r'.backoff.lookup name =
        some (if task.isAttempt = true then b.recordAttempt now else b)) r := by
  have hpanics : AttachPanics R True record.spec.spec.network.address := fun _ _ _ _ _ => trivial
  cases task with
  | provision =>
    have hprovision : (provision pool name record : Method Text Unit).Keeps (fun _ => True) R True
        fun r' => r'.backoff.lookup name = some b :=
      (keeps_provision hpanics).imp (fun _ _ => trivial) fun _ _ _ h => h
    rw [Task.perform, reconcileAbsent, Proc.bind_eq, Proc.makes_bind, Proc.makes_attempt]
    refine Proc.makes_mono ?_ (hprovision r hr)
    rintro result r₁ hr₁
    dsimp only
    rw [Proc.bind_eq, Proc.makes_bind]
    refine Proc.makes_mono ?_ (makes_recordAttempt hr₁)
    rintro (e | u) r₂ hr₂
    · exact hr₂
    cases result with
    | ok u => exact hr₂
    | error e =>
      exact Proc.keeps_bind (keeps_rollbackProvision.imp (fun _ _ => trivial) fun _ _ _ h => h)
        (fun _ => Proc.keeps_fail) r₂ hr₂
  | restart =>
    have hrestart : (restart name record : Method Text Unit).Keeps (fun _ => True) R True
        fun r' => r'.backoff.lookup name = some b :=
      (keeps_restart hpanics).imp (fun _ _ => trivial) fun _ _ _ h => h
    rw [Task.perform, Proc.bind_eq, Proc.makes_bind, Proc.makes_attempt]
    refine Proc.makes_mono ?_ (hrestart r hr)
    rintro result r₁ hr₁
    dsimp only
    rw [Proc.bind_eq, Proc.makes_bind]
    refine Proc.makes_mono ?_ (makes_recordAttempt hr₁)
    rintro (e | u) r₂ hr₂
    · exact hr₂
    · exact Proc.keeps_ofExcept r₂ hr₂
  | limit =>
    exact keeps_setLimits.imp (fun _ _ => trivial) (fun _ _ _ h => h) r hr
  | leave => exact hr

/-- The entry of a jail after its visit, on the books as it was or with
an attempt more. -/
theorem makes_reconcileOne :
    (reconcileOne name now : Method Text Unit).Makes (fun _ => True) R True
      (fun _ r' => r.AgreesBut name r' ∧ (r'.backoff.lookup name = some (r.cooldown name) ∨
        r'.backoff.lookup name = some ((r.cooldown name).recordAttempt now))) r := by
  have hagrees : (reconcileOne name now : Method Text Unit).Keeps (fun _ => True) R True
      (r.AgreesBut name) :=
    keeps_reconcileOne (fun _ _ _ _ _ _ _ => trivial) (fun _ _ h h' => h.trans h')
      fun _ _ => ⟨fun _ => trivial, fun _ _ _ _ _ _ _ => trivial⟩
  refine Proc.makes_and (hagrees r (.refl name r)) ?_
  rw [reconcileOne, Proc.bind_eq, Proc.makes_bind, Proc.makes_get]
  dsimp only
  cases hrecord : r.records.lookup name with
  | none => trivial
  | some record =>
    change (reconcileRecord r.pool name record now : Method Text Unit).Makes _ R True _ r
    rw [reconcileRecord_eq, Proc.makes_bind]
    refine Proc.makes_mono ?_ makes_visitTask
    rintro (e | task) r₁ ⟨hr₁, -⟩
    · exact Or.inl hr₁
    · refine Proc.makes_mono ?_ (makes_perform hr₁ task)
      intro _ r₂ hr₂
      rw [hr₂]
      split
      · exact Or.inr rfl
      · exact Or.inl rfl

end Visit

/-! ## Attempts -/

section Tries

variable [Ipnet] {choices : ℕ → Option (Outcome Text)} {name : String} {record : JailRecord}
variable {now : ℕ} {r : Reconciler} {t : Trace (Op Text) (Host Text)}

/-- **A visit is an attempt**: it decides to provision or to restart. -/
def Tries (choices : ℕ → Option (Outcome Text)) (name : String) (record : JailRecord) (now : ℕ)
    (r : Reconciler) (t : Trace (Op Text) (Host Text)) : Prop :=
  ∃ task r' t', (visitTask name record now).run Host.outside choices r t =
    (.returned (.ok task) r', t') ∧ task.isAttempt = true

/-- It waits for the cooldown. -/
theorem Tries.canRetry (h : Tries choices name record now r t) :
    (r.cooldown name).canRetry now = true := by
  obtain ⟨task, r', t', hrun, hattempt⟩ := h
  have hmeets : Ended.Meets _ _ ((visitTask name record now).run Host.outside choices r t) :=
    Proc.run_of_makes (fun _ _ => trivial) makes_visitTask t.since_self
  rw [hrun] at hmeets
  exact hmeets.1.2 task rfl hattempt

/-- **What a visit makes of the cooldown.** -/
theorem backoff_of_visit (hrecord : r.records.lookup name = some record)
    {result : Except ReconcileError Unit} {r' : Reconciler} {t' : Trace (Op Text) (Host Text)}
    (hrun : (reconcileOne name now).run Host.outside choices r t = (.returned result r', t')) :
    (Tries choices name record now r t →
      r'.backoff.lookup name = some ((r.cooldown name).recordAttempt now)) ∧
    (¬ Tries choices name record now r t → r'.backoff.lookup name = some (r.cooldown name)) := by
  have hmeets : Ended.Meets _ _ ((visitTask name record now).run Host.outside choices r t) :=
    Proc.run_of_makes (fun _ _ => trivial) makes_visitTask t.since_self
  rw [reconcileOne_eq hrecord, Proc.run_bind_eq] at hrun
  rw [Tries]
  cases htask : (visitTask name record now).run Host.outside choices r t with
  | mk ending t₁ =>
    rw [htask] at hmeets hrun
    cases ending with
    | stopped x => cases hrun
    | returned result₁ r₁ =>
      cases result₁ with
      | error e =>
        cases hrun
        refine ⟨?_, fun _ => hmeets.1.1⟩
        rintro ⟨task, _, _, heq, -⟩
        cases heq
      | ok task =>
        have hperform : Ended.Meets _ _
            ((task.perform r.pool name record now).run Host.outside choices r₁ t₁) :=
          Proc.run_of_makes (fun _ _ => trivial) (makes_perform hmeets.1.1 task) t₁.since_self
        rw [show (task.perform r.pool name record now).run Host.outside choices r₁ t₁ = _ from hrun]
          at hperform
        have hentry := hperform.1
        constructor
        · rintro ⟨_, _, _, heq, hattempt⟩
          cases heq
          rw [hentry, if_pos hattempt]
        · intro hnot
          rw [hentry, if_neg]
          exact fun hattempt => hnot ⟨task, r₁, t₁, rfl, hattempt⟩

/-- A visit while the cooldown runs makes no call. -/
theorem run_of_cooling (hrecord : r.records.lookup name = some record)
    (hcooling : (r.cooldown name).canRetry now = false) : ∃ r',
    (reconcileOne name now).run Host.outside choices r t = (.returned (.ok ()) r', t) := by
  rw [reconcileOne_eq hrecord, visitTask, Proc.bind_eq, Proc.bind_assoc, checkCooldown]
  rw [cooldown] at hcooling
  cases hlookup : r.backoff.lookup name with
  | some b =>
    rw [hlookup, Option.getD_some] at hcooling
    refine ⟨r, ?_⟩
    simp only [Proc.bind, Proc.run, hlookup, hcooling]
    rfl
  | none =>
    rw [hlookup, Option.getD_none] at hcooling
    cases hcooling

end Tries

section Pass

variable [Ipnet] [SerdeYaml Text JailRecord] [SerdeYaml Text IngressRecord]
variable {choices : ℕ → Option (Outcome Text)} {l : Ledger} {p : Pass} {name : String}
variable {record : JailRecord} {r : Reconciler} {t : Trace (Op Text) (Host Text)}

/-- **A pass attempts to start a jail**: it comes to the jail, and its
visit is an attempt. -/
def Attempts (choices : ℕ → Option (Outcome Text)) (p : Pass) (name : String) (r : Reconciler)
    (t : Trace (Op Text) (Host Text)) : Prop :=
  ∃ r₂ t₂ record, Comes choices p name r t r₂ t₂ ∧ r₂.records.lookup name = some record ∧
    Tries choices name record p.now r₂ t₂

theorem Attempts.canRetry (hl : l.Sound Validated) (his : l.Is r t.world)
    (hrecord : r.records.lookup name = some record) (h : Attempts choices p name r t) :
    (r.cooldown name).canRetry p.now = true := by
  obtain ⟨r₂, t₂, record', hcomes, -, htries⟩ := h
  rw [← (hcomes.arrived hl his hrecord).aside.cooldown_eq]
  exact htries.canRetry

/-- **What a pass makes of a cooldown.** -/
theorem backoff_of_reconcile (hl : l.Sound Validated) (his : l.Is r t.world)
    (hrecord : r.records.lookup name = some record)
    {result : Except ReconcileError (List (String × ReconcileError))} {r' : Reconciler}
    {t' : Trace (Op Text) (Host Text)}
    (hrun : (reconcile p).run Host.outside choices r t = (.returned result r', t')) :
    (Attempts choices p name r t →
      r'.backoff.lookup name = some ((r.cooldown name).recordAttempt p.now)) ∧
    (¬ Attempts choices p name r t → r'.backoff.lookup name = some (r.cooldown name)) := by
  obtain ⟨r₂, t₂, visited, r₃, t₃, hcomes, hvisit, hdeparted⟩ :=
    departed_of_returned hl his hrecord hrun
  have harrived := hcomes.arrived hl his hrecord
  have hrecord₂ := harrived.aside.record.trans hrecord
  obtain ⟨htried, hleft⟩ := backoff_of_visit hrecord₂ hvisit
  rw [harrived.aside.cooldown_eq] at htried hleft
  rw [(hdeparted.returned result r' rfl).1.cooldown]
  constructor
  · rintro ⟨r₂', t₂', record', hcomes', hrecord', htries⟩
    obtain ⟨rfl, rfl⟩ := hcomes.unique hcomes'
    cases hrecord₂.symm.trans hrecord'
    exact htried htries
  · intro hnot
    exact hleft fun htries => hnot ⟨r₂, t₂, record, hcomes, hrecord₂, htries⟩

/-- **Inside the cooldown** a pass leaves a jail as it is. -/
theorem sameOn_of_cooling (hl : l.Sound Validated) (his : l.Is r t.world)
    (hrecord : r.records.lookup name = some record)
    (hcooling : (r.cooldown name).canRetry p.now = false) :
    SameOn (.ofJail r.pool name record) t.world
      ((reconcile p).run Host.outside choices r t).2.world := by
  by_cases hcomes : ∃ r₂ t₂, Comes choices p name r t r₂ t₂
  · obtain ⟨r₂, t₂, hcomes⟩ := hcomes
    have harrived := hcomes.arrived hl his hrecord
    obtain ⟨r₃, hvisit⟩ : ∃ r₃, (reconcileOne name p.now).run Host.outside choices r₂ t₂ =
        (.returned (.ok ()) r₃, t₂) := by
      refine run_of_cooling (harrived.aside.record.trans hrecord) ?_
      rw [harrived.aside.cooldown_eq]
      exact hcooling
    exact harrived.same.trans (hcomes.departed hl his hrecord hvisit).same
  · exact (stopped_before hl his hrecord fun r₂ t₂ h => hcomes ⟨r₂, t₂, h⟩).2

end Pass

end Reconciler

/-! ## Delays -/

namespace BackoffState

/-- A delay is one there is. -/
def InRange (b : BackoffState) : Prop := initialDelay ≤ b.currentDelay ∧ b.currentDelay ≤ maxDelay

theorem inRange_new : BackoffState.new.InRange := ⟨le_rfl, by decide⟩

variable {b : BackoffState} {now : ℕ}

/-- So is the one an attempt arms. -/
theorem InRange.armedDelay (h : b.InRange) :
    initialDelay ≤ b.armedDelay now ∧ b.armedDelay now ≤ maxDelay := by
  rw [armedDelay_eq]
  split
  · exact inRange_new
  · exact h

theorem InRange.recordAttempt (h : b.InRange) : (b.recordAttempt now).InRange := by
  have hlow : initialDelay ≤ b.armedDelay now := h.armedDelay.1
  have hcap : initialDelay ≤ maxDelay := by decide
  rw [recordAttempt_eq]
  refine ⟨le_min ?_ hcap, min_le_right _ _⟩
  omega

end BackoffState

open BackoffState

/-- Every delay on the books is one there is. -/
def Reconciler.Paced (r : Reconciler) : Prop :=
  ∀ name b, r.backoff.lookup name = some b → b.InRange

theorem Reconciler.Paced.cooldown {r : Reconciler} (h : r.Paced) (name : String) :
    (r.cooldown name).InRange := by
  rw [Reconciler.cooldown]
  cases hlookup : r.backoff.lookup name with
  | none => exact inRange_new
  | some b => exact h name b hlookup

theorem Reconciler.paced_reconcileOne {name : String} {now : ℕ} :
    (Reconciler.reconcileOne name now : Method Text Unit).Keeps (fun _ => True) (fun _ _ => True)
      True Reconciler.Paced := by
  intro r hr
  refine Proc.makes_mono ?_ makes_reconcileOne
  rintro _ r' ⟨hagrees, hentry⟩ other b hb
  by_cases hother : other = name
  · subst hother
    rcases hentry with hsame | hrecorded
    · cases hsame.symm.trans hb
      exact hr.cooldown other
    · cases hrecorded.symm.trans hb
      exact (hr.cooldown other).recordAttempt
  · rw [hagrees.backoff other hother] at hb
    exact hr other b hb

/-! ## An agent's life -/

section Life

variable [Ipnet] [SerdeYaml Text JailRecord] [SerdeYaml Text IngressRecord]
variable {pool : String} {choices : ℕ → Option (Outcome Text)} {machine : Host Text}
variable {events : List (Event Exit)} {name : String} {r : Reconciler} {b : BackoffState}

theorem Operation.paced {op : Operation} : (op.method : Method Text Unit).Keeps (fun _ => True)
    (fun _ _ => True) True Reconciler.Paced := by
  refine Operation.keeps_memory (fun r r' hr hr' => ?_) (fun _ _ _ hr => hr) (fun _ _ r hr => ?_)
    fun _ _ _ => Reconciler.paced_reconcileOne
  · rw [Reconciler.Paced, hr'.backoff]
    exact hr
  · intro other b hb
    change (r.backoff.erase _).lookup other = some b at hb
    rw [Table.lookup_erase_eq] at hb
    split at hb
    · cases hb
    · exact hr other b hb

/-- Every delay an agent ever has on the books is one there is. -/
theorem Host.life_paced (hr : (machine.life pool choices events).memory = some r) : r.Paced := by
  have hblank : (Reconciler.blank pool).Paced := by
    intro other b hb
    cases hb
  have hnew : (Reconciler.new pool : Method Text Unit).Keeps (fun _ => True) (fun _ _ => True) True
      Reconciler.Paced := by
    refine Proc.keeps_bind (Reconciler.keeps_loadYaml.imp (fun _ _ => trivial)
      fun _ _ _ h => h) fun loaded => ?_
    refine Proc.keeps_bind (Proc.keeps_ofChecked fun _ _ => trivial) fun next => ?_
    refine Proc.keeps_bind (Reconciler.keeps_loadYaml.imp (fun _ _ => trivial)
      fun _ _ _ h => h) fun _ => ?_
    exact Proc.keeps_modify fun _ _ => hblank
  have hkept : (machine.life pool choices events).Kept (fun _ => True) Reconciler.Paced := by
    refine System.after_induction (I := fun sys => System.Kept (fun _ => True) Reconciler.Paced sys)
      (P := fun _ => True) (Host.world pool choices) ?_ (fun _ _ => trivial) ?_
    · intro sys e _ hsys
      exact hsys.step hblank hnew fun op _ => op.paced
    · exact ⟨fun _ hr => (by cases hr), fun _ _ => trivial⟩
  exact hkept.memory r hr

/-- The agent after a pass. -/
theorem System.step_reconcile {sys : System Text (Host Text)} (hmemory : sys.memory = some r)
    {p : Pass} {ending : Ended Reconciler ReconcileError (List (String × ReconcileError))}
    {t' : Trace (Op Text) (Host Text)}
    (hrun : (Reconciler.reconcile p).run Host.outside choices r sys.trace = (ending, t')) :
    sys.step (Host.world pool choices) (.operation (.reconcile p)) = System.ended (ending, t') := by
  have hstep : sys.step (Host.world pool choices) (.operation (.reconcile p)) =
      System.ended (((Reconciler.reconcile p).bind fun _ => Proc.ret ()).run Host.outside choices r
        sys.trace) := by
    simp only [System.step, hmemory]
    rfl
  rw [hstep, Proc.run_bind_eq, hrun]
  cases ending with
  | stopped x => rfl
  | returned result r' =>
    cases result with
    | ok failures => rfl
    | error e => rfl

omit [Ipnet] [SerdeYaml Text JailRecord] [SerdeYaml Text IngressRecord] in
/-- A delete that leaves the record leaves the cooldown. -/
theorem Reconciler.makes_delete (hb : r.backoff.lookup name = some b) :
    (Reconciler.delete name : Method Text Unit).Makes (fun _ => True) (fun _ _ => True) True
      (fun _ r' => name ∈ r'.records → r'.backoff.lookup name = some b) r := by
  have hbefore : ∀ {α : Type} {m : Method Text α} {P : {ρ : Type} → Op Text ρ → Prop},
      m.Keeps P (fun _ _ => True) True (fun r' => r'.backoff.lookup name = some b) →
        m.Keeps (fun _ => True) (fun _ _ => True) True
          (fun r' => r'.backoff.lookup name = some b) :=
    fun hm => hm.imp (fun _ _ => trivial) fun _ _ _ h => h
  rw [Reconciler.delete]
  simp only [Proc.bind_eq]
  rw [Proc.makes_bind]
  refine Proc.makes_mono ?_ (hbefore (Reconciler.keeps_find (P := fun _ => True)) r hb)
  rintro (e | record) r₁ hr₁
  · exact fun _ => hr₁
  dsimp only
  rw [Proc.makes_bind, Proc.makes_get]
  dsimp only
  rw [Proc.makes_bind]
  refine Proc.makes_mono ?_ (hbefore Reconciler.keeps_tearDownJail r₁ hr₁)
  rintro (e | u) r₂ hr₂
  · exact fun _ => hr₂
  dsimp only
  rw [Proc.makes_bind]
  refine Proc.makes_mono ?_ (hbefore Reconciler.keeps_removeYaml r₂ hr₂)
  rintro (e | u) r₃ hr₃
  · exact fun _ => hr₃
  · intro hmem
    exact absurd rfl (AList.mem_erase.1 hmem).1

/-- **Nothing but an attempt and a delete** touches a cooldown. -/
theorem System.Tracks.cooldown_step {l : Ledger} {sys : System Text (Host Text)}
    (hl : sys.Tracks Validated l)
    (hmemory : sys.memory = some r) (hthere : name ∈ r.records)
    (hb : r.backoff.lookup name = some b) {e : Event Exit}
    (hnot : ∀ p, e = .operation (.reconcile p) → ¬ Reconciler.Attempts choices p name r sys.trace)
    {r' : Reconciler} (hmemory' : (sys.step (Host.world pool choices) e).memory = some r')
    (hthere' : name ∈ r'.records) : r'.backoff.lookup name = some b := by
  cases e with
  | kill => cases hmemory'
  | outside x =>
    cases hmemory.symm.trans hmemory'
    exact hb
  | start =>
    simp only [System.step, hmemory] at hmemory'
    cases hmemory'
    exact hb
  | operation op =>
    have hkept : ∀ {K : Reconciler → Prop}, (op.method : Method Text Unit).Makes (fun _ => True)
        (fun _ _ => True) True (fun _ r' => K r') r → K r' := by
      intro K hm
      simp only [System.step, hmemory] at hmemory'
      have hmeets : Ended.Meets _ _ (op.method.run Host.outside choices r sys.trace) :=
        Proc.run_of_makes (fun _ _ => trivial) hm sys.trace.since_self
      refine System.of_ended (I := fun sys => sys.memory = some r' → K r') hmeets ?_ ?_ hmemory'
      · rintro _ r'' t ⟨hr'', -⟩ heq
        cases heq
        exact hr''
      · intro _ _ _ heq
        cases heq
    by_cases hpass : ∃ p, op = .reconcile p
    · obtain ⟨p, rfl⟩ := hpass
      obtain ⟨record, hrecord⟩ := Table.exists_of_mem hthere
      cases hrun : (Reconciler.reconcile p).run Host.outside choices r sys.trace with
      | mk ending t' =>
        rw [System.step_reconcile hmemory hrun] at hmemory'
        cases ending with
        | stopped x => cases hmemory'
        | returned result r'' =>
          cases hmemory'
          have hcooldown : r.cooldown name = b := by
            rw [Reconciler.cooldown, hb, Option.getD_some]
          rw [← hcooldown]
          exact (Reconciler.backoff_of_reconcile hl.sound (hl.memory r hmemory) hrecord hrun).2
            (hnot p rfl)
    · by_cases hdelete : op = .delete name
      · subst hdelete
        exact hkept (Reconciler.makes_delete hb) hthere'
      · refine hkept (Operation.keeps_memory (K := fun r' => r'.backoff.lookup name = some b)
          (fun r₁ r₂ hr₁ hr₂ => ?_) (fun _ _ _ hr₁ => hr₁) (fun other hop r₁ hr₁ => ?_)
          (fun p hop => absurd ⟨p, hop⟩ hpass) r hb)
        · rw [hr₂.backoff]
          exact hr₁
        · have hne : name ≠ other := by
            rintro rfl
            exact hdelete hop
          exact (AList.lookup_erase_ne hne).trans hr₁

/-- **A cooldown stays as it was armed** through a life in which the process
stays up, the jail on record, and no pass attempts to start it. -/
theorem Host.cooldown_life {machine : Host Text} (hmachine : ∀ file content,
      machine.stateDir.lookup file = some content → extension file ≠ some "yaml")
    {before later : List (Event Exit)}
    (hup : ∀ k ≤ later.length, ∃ r t,
      machine.life pool choices (before ++ later.take k) = ⟨some r, t⟩ ∧ name ∈ r.records)
    (hnot : ∀ k p r t, later[k]? = some (.operation (.reconcile p)) →
      machine.life pool choices (before ++ later.take k) = ⟨some r, t⟩ →
        ¬ Reconciler.Attempts choices p name r t)
    (hb : ∀ r t, machine.life pool choices before = ⟨some r, t⟩ →
      r.backoff.lookup name = some b) :
    ∀ k ≤ later.length, ∀ r t, machine.life pool choices (before ++ later.take k) = ⟨some r, t⟩ →
      r.backoff.lookup name = some b := by
  intro k
  induction k with
  | zero =>
    intro _ r t hlife
    rw [List.take_zero, List.append_nil] at hlife
    exact hb r t hlife
  | succ k ih =>
    intro hk r t hlife
    have hlt : k < later.length := hk
    have hthere : later[k]? = some later[k] := List.getElem?_eq_getElem hlt
    obtain ⟨r₁, t₁, hlife₁, hmem₁⟩ := hup k hlt.le
    obtain ⟨r₂, t₂, hlife₂, hmem₂⟩ := hup (k + 1) hk
    cases hlife.symm.trans hlife₂
    obtain ⟨l, hl⟩ := Host.life_tracks pool choices hmachine (before ++ later.take k)
    rw [hlife₁] at hl
    have hstep : machine.life pool choices (before ++ later.take (k + 1)) =
        (machine.life pool choices (before ++ later.take k)).step (Host.world pool choices)
          later[k] := by
      rw [List.take_add_one, hthere, ← List.append_assoc, Host.life, System.after_append]
      rfl
    rw [hstep, hlife₁] at hlife
    have hmemory : ((⟨some r₁, t₁⟩ : System Text (Host Text)).step (Host.world pool choices)
        later[k]).memory = some r := by rw [hlife]
    refine hl.cooldown_step rfl hmem₁ (ih hlt.le r₁ t₁ hlife₁) ?_ hmemory hmem₂
    intro p hp
    exact hnot k p r₁ t₁ (by rw [hthere, hp]) hlife₁

/-- **Attempts are spaced by the delay that was armed.** At any point of
an agent's life, whatever fails, with a jail on record. A pass inside the
jail's cooldown makes no attempt, and leaves the jail, its dataset, its
mounts and its epair as they are, wherever it is cut off. A pass that
attempts to start the jail and leaves the process up has armed a delay, of
a second at least and of 300 at most; and as long as the process stays up
and the record is there, the next attempt comes no earlier than that
delay after it. -/
theorem attempts_spaced (pool : String) (choices : ℕ → Option (Outcome Text))
    (machine : Host Text) (hmachine : ∀ file content,
      machine.stateDir.lookup file = some content → extension file ≠ some "yaml")
    (events : List (Event Exit)) {r : Reconciler} {t : Trace (Op Text) (Host Text)}
    (hlife : machine.life pool choices events = ⟨some r, t⟩) {name : String} {record : JailRecord}
    (hrecord : r.records.lookup name = some record) (p : Pass)
    {ending : Ended Reconciler ReconcileError (List (String × ReconcileError))}
    {t' : Trace (Op Text) (Host Text)}
    (hrun : (Reconciler.reconcile p).run Host.outside choices r t = (ending, t')) :
    ((r.cooldown name).canRetry p.now = false →
      ¬ Reconciler.Attempts choices p name r t ∧
      SameOn (.ofJail r.pool name record) t.world t'.world) ∧
    (Reconciler.Attempts choices p name r t → ∀ result r', ending = .returned result r' →
      ∃ b d, r'.backoff.lookup name = some b ∧ b.nextRetryAt = some (p.now + d) ∧
        1 * second ≤ d ∧ d ≤ 300 * second ∧
        ∀ later r₁ t₁ q,
          (∀ k ≤ later.length, ∃ r₂ t₂, machine.life pool choices
            (events ++ .operation (.reconcile p) :: later.take k) = ⟨some r₂, t₂⟩ ∧
              name ∈ r₂.records) →
          (∀ k p' r₂ t₂, later[k]? = some (.operation (.reconcile p')) → machine.life pool choices
            (events ++ .operation (.reconcile p) :: later.take k) = ⟨some r₂, t₂⟩ →
              ¬ Reconciler.Attempts choices p' name r₂ t₂) →
          machine.life pool choices (events ++ .operation (.reconcile p) :: later) =
            ⟨some r₁, t₁⟩ →
          Reconciler.Attempts choices q name r₁ t₁ → p.now + d ≤ q.now) := by
  obtain ⟨l, hl⟩ := Host.life_tracks pool choices hmachine events
  rw [hlife] at hl
  have his : l.Is r t.world := hl.memory r rfl
  constructor
  · intro hcooling
    refine ⟨fun hattempts => ?_, ?_⟩
    · rw [hattempts.canRetry hl.sound his hrecord] at hcooling
      cases hcooling
    · have hsame : SameOn (.ofJail r.pool name record) t.world
          ((Reconciler.reconcile p).run Host.outside choices r t).2.world :=
        Reconciler.sameOn_of_cooling hl.sound his hrecord hcooling
      rw [hrun] at hsame
      exact hsame
  · intro hattempts result r' hending
    subst hending
    have hentry := (Reconciler.backoff_of_reconcile hl.sound his hrecord hrun).1 hattempts
    have hmemory : (machine.life pool choices events).memory = some r := by rw [hlife]
    have hpaced : (r.cooldown name).InRange := (Host.life_paced hmemory).cooldown name
    obtain ⟨hlow, hhigh⟩ : initialDelay ≤ (r.cooldown name).armedDelay p.now ∧
        (r.cooldown name).armedDelay p.now ≤ maxDelay := hpaced.armedDelay
    refine ⟨_, _, hentry, by rw [recordAttempt_eq], hlow, hhigh, ?_⟩
    intro later r₁ t₁ q hup hbetween hlife₁ hnext
    have hstepped : machine.life pool choices (events ++ [.operation (.reconcile p)]) =
        ⟨some r', t'⟩ := by
      have hrun' : (Reconciler.reconcile p).run Host.outside choices r
          (machine.life pool choices events).trace = (.returned result r', t') := by
        rw [hlife]
        exact hrun
      rw [Host.life, System.after_append]
      exact System.step_reconcile hmemory hrun'
    have hentry₁ : r₁.backoff.lookup name = some ((r.cooldown name).recordAttempt p.now) := by
      have hcons : ∀ es, (events ++ [.operation (.reconcile p)]) ++ es =
          events ++ .operation (.reconcile p) :: es := fun es =>
        (List.append_cons events _ es).symm
      have harmed : ∀ r₂ t₂, machine.life pool choices (events ++ [.operation (.reconcile p)]) =
          ⟨some r₂, t₂⟩ →
            r₂.backoff.lookup name = some ((r.cooldown name).recordAttempt p.now) := by
        intro r₂ t₂ hlife₂
        cases hstepped.symm.trans hlife₂
        exact hentry
      refine Host.cooldown_life hmachine ?_ ?_ harmed later.length le_rfl r₁ t₁ ?_
      · simpa only [hcons] using hup
      · simpa only [hcons] using hbetween
      · rw [List.take_length, hcons]
        exact hlife₁
    obtain ⟨l₁, hl₁⟩ := Host.life_tracks pool choices hmachine
      (events ++ .operation (.reconcile p) :: later)
    rw [hlife₁] at hl₁
    obtain ⟨r₂, t₂, hlife₂, hmem₂⟩ := hup later.length le_rfl
    rw [List.take_length, hlife₁] at hlife₂
    cases hlife₂
    obtain ⟨record₁, hrecord₁⟩ := Table.exists_of_mem hmem₂
    have hover := hnext.canRetry hl₁.sound (hl₁.memory r₁ rfl) hrecord₁
    rw [Reconciler.cooldown, hentry₁, Option.getD_some] at hover
    exact canRetry_recordAttempt.1 hover

end Life

section

open Agent.Sample (jail)
open scoped Agent.Sample Node.Sample

/-- A first pass attempts to start a jail. -/
theorem Reconciler.attempts_of_first {sys : System Sample.Doc (Host Sample.Doc)}
    {choices : ℕ → Option (Outcome Sample.Doc)} {p : Pass} {name : String}
    (horder : p.order = .listed)
    (h : (sys.memory.any fun r =>
      let served := (reconcileIngresses p).run Host.outside choices r sys.trace
      (Ended.value served.1).any fun v => v.2.records.keys == [name] &&
        (v.2.records.lookup name).any fun record => (Ended.value
          ((visitTask name record p.now).run Host.outside choices v.2 served.2).1).any fun task =>
            task.1.isAttempt) = true) :
    ∃ r, sys.memory = some r ∧ Attempts choices p name r sys.trace := by
  obtain ⟨r, hr, h⟩ := (Option.any_eq_true _ _).1 h
  obtain ⟨⟨u, r₁⟩, hserved, h⟩ := (Option.any_eq_true _ _).1 h
  obtain ⟨hkeys, h⟩ := Bool.and_eq_true_iff.1 h
  obtain ⟨record, hrecord, h⟩ := (Option.any_eq_true _ _).1 h
  obtain ⟨⟨task, r₂⟩, htask, hattempt⟩ := (Option.any_eq_true _ _).1 h
  refine ⟨r, hr, r₁, _, record, ⟨r₁, _, [], [], [], Prod.ext (Ended.eq_of_value hserved) rfl, ?_,
    rfl⟩, hrecord, task, r₂, _, Prod.ext (Ended.eq_of_value htask) rfl, hattempt⟩
  rw [horder]
  exact beq_iff_eq.1 hkeys

/-- The jail cannot be created at first; the next attempt comes two
seconds later. -/
theorem attempts_spaced_sample : ∃ r t r' t' b d,
    Sample.host.life "zroot" (Sample.failing 13)
      [.start, .operation (.apply (jail "db-0" none))] = ⟨some r, t⟩ ∧
    (Reconciler.reconcile (Sample.pass 0)).run Host.outside (Sample.failing 13) r t =
      (.returned (.ok [("db-0", .jail (.commandFailed ""))]) r', t') ∧
    r'.backoff.lookup "db-0" = some b ∧ b.nextRetryAt = some (0 + d) ∧ 1 * second ≤ d ∧
    0 + d ≤ 2 * second := by
  obtain ⟨r, hr, hattempts⟩ : ∃ r, (Sample.host.life "zroot" (Sample.failing 13)
      [.start, .operation (.apply (jail "db-0" none))]).memory = some r ∧
      Reconciler.Attempts (Sample.failing 13) (Sample.pass 0) "db-0" r
        (Sample.host.life "zroot" (Sample.failing 13)
          [.start, .operation (.apply (jail "db-0" none))]).trace :=
    Reconciler.attempts_of_first rfl (by decide +kernel)
  obtain ⟨r₁, hr₁, hattempts₁⟩ : ∃ r₁, (Sample.host.life "zroot" (Sample.failing 13)
      [.start, .operation (.apply (jail "db-0" none)),
        .operation (.reconcile (Sample.pass 0))]).memory = some r₁ ∧
      Reconciler.Attempts (Sample.failing 13) (Sample.pass (2 * second)) "db-0" r₁
        (Sample.host.life "zroot" (Sample.failing 13)
          [.start, .operation (.apply (jail "db-0" none)),
            .operation (.reconcile (Sample.pass 0))]).trace :=
    Reconciler.attempts_of_first rfl (by decide +kernel)
  have hthere : (Sample.host.life "zroot" (Sample.failing 13)
      [.start, .operation (.apply (jail "db-0" none))]).memory.any
      (fun r => (r.records.lookup "db-0").isSome) = true := by decide +kernel
  have hthere₁ : (Sample.host.life "zroot" (Sample.failing 13)
      [.start, .operation (.apply (jail "db-0" none)),
        .operation (.reconcile (Sample.pass 0))]).memory.any
      (fun r => decide ("db-0" ∈ r.records)) = true := by decide +kernel
  have hpass : (Sample.host.life "zroot" (Sample.failing 13)
      [.start, .operation (.apply (jail "db-0" none))]).memory.any
      (fun r => (Ended.value ((Reconciler.reconcile (Sample.pass 0)).run Host.outside
        (Sample.failing 13) r (Sample.host.life "zroot" (Sample.failing 13)
          [.start, .operation (.apply (jail "db-0" none))]).trace).1).any
            fun v => v.1 == [("db-0", .jail (.commandFailed ""))]) = true := by decide +kernel
  rw [hr, Option.any_some] at hthere hpass
  rw [hr₁, Option.any_some] at hthere₁
  obtain ⟨record, hrecord⟩ := Option.isSome_iff_exists.1 hthere
  obtain ⟨⟨failures, r'⟩, hvalue, hfailures⟩ := (Option.any_eq_true _ _).1 hpass
  obtain rfl : failures = [("db-0", .jail (.commandFailed ""))] := beq_iff_eq.1 hfailures
  have hrun : (Reconciler.reconcile (Sample.pass 0)).run Host.outside (Sample.failing 13) r
      (Sample.host.life "zroot" (Sample.failing 13)
        [.start, .operation (.apply (jail "db-0" none))]).trace =
      (.returned (.ok [("db-0", .jail (.commandFailed ""))]) r',
        ((Reconciler.reconcile (Sample.pass 0)).run Host.outside (Sample.failing 13) r
          (Sample.host.life "zroot" (Sample.failing 13)
            [.start, .operation (.apply (jail "db-0" none))]).trace).2) :=
    Prod.ext (Ended.eq_of_value hvalue) rfl
  obtain ⟨-, hspaced⟩ := attempts_spaced "zroot" (Sample.failing 13) Sample.host
    (fun file content hfile => by cases hfile)
    [.start, .operation (.apply (jail "db-0" none))] (by rw [← hr]) hrecord (Sample.pass 0) hrun
  obtain ⟨b, d, hb, harmed, hlow, -, hnext⟩ := hspaced hattempts _ _ rfl
  refine ⟨r, _, r', _, b, d, by rw [← hr], hrun, hb, harmed, hlow, ?_⟩
  refine hnext [] r₁ _ (Sample.pass (2 * second)) (fun k hk => ?_)
    (fun k p' _ _ hevent _ => by cases hevent) (by rw [← hr₁]; rfl) hattempts₁
  obtain rfl : k = 0 := Nat.le_zero.1 hk
  exact ⟨r₁, _, by rw [← hr₁]; rfl, of_decide_eq_true hthere₁⟩

end

end Node

end Keel
