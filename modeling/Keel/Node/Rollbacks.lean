import Keel.Node.Converge
import Keel.Node.Panics
import Keel.Node.Spacing
import Keel.Node.Helpers.Clear
import Keel.Node.Helpers.Visited
/-!
# Provisionings that fail

Whichever step of a provisioning fails, the rollback after it makes the
same calls, and they undo all there can be of the jail. What stays is the
datasets that were there and the jails on the other records; the cooldown
runs. A later pass starts from nothing again, and provisions the jail
unless its address has no gateway: then it panics.
-/

namespace Keel

namespace Node

open Agent (JailRecord)
open Reconciler (Aside Comes)

variable {Text : Type}

/-! ## One visit -/

section Visit

variable [Ipnet] {choices : ℕ → Option (Outcome Text)} {name : String} {record : JailRecord}
variable {now : ℕ} {r : Reconciler} {t : Trace (Op Text) (Host Text)} {error : ReconcileError}

/-- From some call on, every call is made and works. -/
def ReliableFrom (n : ℕ) (choices : ℕ → Option (Outcome Text)) : Prop :=
  ∀ i, n ≤ i → ∃ x, choices i = some x ∧ x.fails = none

/-- What is answered well from here on returns. -/
theorem Host.returns_from {α : Type} {m : Method Text α}
    {Q : Except ReconcileError α → Reconciler → Trace (Op Text) (Host Text) → Prop}
    (h : m.wp (Host.under fun x _ _ _ => x.fails = none) Q (fun x _ => x = .crashed) r t)
    (hchoices : ReliableFrom t.calls.length choices) : ∃ result r' t',
      m.run Host.outside choices r t = (.returned result r', t') ∧ Q result r' t' := by
  let final : ℕ → Option (Outcome Text) := fun i =>
    if i < t.calls.length then some .works else choices i
  have hfinal : Reliable final := by
    intro i
    by_cases hi : i < t.calls.length
    · exact ⟨.works, if_pos hi, rfl⟩
    · obtain ⟨x, hx, hworks⟩ := hchoices i (not_lt.1 hi)
      exact ⟨x, (if_neg hi).trans hx, hworks⟩
  obtain ⟨result, r', t', hrun, hq⟩ := Host.returns_of_wp h hfinal
  refine ⟨result, r', t', ?_, hq⟩
  rw [← hrun]
  refine Proc.run_congr_choices (fun i hi _ => (if_neg (not_lt.2 hi)).symm) ?_
  rw [hrun]
  exact fun he => by cases he

/-- No run makes a dataset busy, or frees one. -/
theorem Host.busy_run {α : Type} {m : Method Text α}
    {ending : Ended Reconciler ReconcileError α} {t' : Trace (Op Text) (Host Text)}
    (hrun : m.run Host.outside choices r t = (ending, t')) :
    t'.world.zfs.busy = t.world.zfs.busy := by
  have hmeets : Ended.Meets (fun _ _ t' => t'.world.zfs.busy = t.world.zfs.busy)
      (fun _ t' => t'.world.zfs.busy = t.world.zfs.busy) (m.run Host.outside choices r t) :=
    Host.meets_of_wp (Proc.wp_of_invariant
      (I := fun w : Host Text => w.zfs.busy = t.world.zfs.busy)
      (fun x c w hw => (w.busy_call x c).trans hw) rfl)
  rw [hrun] at hmeets
  cases ending with
  | returned result r' => exact hmeets
  | stopped x => exact hmeets

/-- An attempt is put on the books. -/
theorem run_recordAttempt {b : BackoffState} (hb : r.backoff.lookup name = some b) :
    (Reconciler.recordAttempt name now : Method Text Unit).run Host.outside choices r t =
      (.returned (.ok ()) { r with backoff := r.backoff.insert name (b.recordAttempt now) }, t) := by
  rw [Reconciler.recordAttempt, Proc.bind_eq]
  change ((Proc.ofChecked (Checked.expect _ (r.backoff.lookup name))).bind _).run _ _ _ _ = _
  rw [hb]
  rfl

/-- **A provisioning fails**: a visit decides to provision its jail, some
step of that returns an error, and every call after that works. -/
def FailsToProvision (choices : ℕ → Option (Outcome Text)) (name : String) (record : JailRecord)
    (now : ℕ) (r : Reconciler) (t : Trace (Op Text) (Host Text)) (error : ReconcileError) : Prop :=
  ∃ r₁ t₁ r₂ t₂, (Reconciler.visitTask name record now).run Host.outside choices r t =
      (.returned (.ok .provision) r₁, t₁) ∧
    (Reconciler.provision r.pool name record).run Host.outside choices r₁ t₁ =
      (.returned (.error error) r₂, t₂) ∧ ReliableFrom t₂.calls.length choices

/-- The visit returns that error, and nothing is left of the jail. -/
theorem FailsToProvision.run (h : FailsToProvision choices name record now r t error)
    (hrecord : r.records.lookup name = some record)
    (hbusy : jailDatasetPath r.pool name ∉ t.world.zfs.busy) : ∃ r' t',
    (Reconciler.reconcileOne name now).run Host.outside choices r t =
      (.returned (.error error) r', t') ∧ Cleared r.pool name record t'.world ∧
    r'.backoff.lookup name = some ((r.cooldown name).recordAttempt now) := by
  obtain ⟨r₁, t₁, r₂, t₂, htask, hfailed, hreliable⟩ := h
  have hb : r₂.backoff.lookup name = some (r.cooldown name) := by
    have hvisited : Ended.Meets _ _
        ((Reconciler.visitTask name record now).run Host.outside choices r t) :=
      Proc.run_of_makes (fun _ _ => trivial) Reconciler.makes_visitTask t.since_self
    have hkept : Ended.Meets _ _
        ((Reconciler.provision r.pool name record).run Host.outside choices r₁ t₁) :=
      Proc.run_of_makes (R := fun _ _ => True) (N := True) (fun _ _ => trivial)
        (Reconciler.keeps_provision (K := fun r' => r' = r₁) (fun _ _ _ _ _ => trivial) r₁ rfl)
        t₁.since_self
    rw [htask] at hvisited
    rw [hfailed] at hkept
    rw [hkept.1]
    exact hvisited.1.1
  have hbusy₂ : jailDatasetPath r.pool name ∉ t₂.world.zfs.busy := by
    rw [Host.busy_run hfailed, Host.busy_run htask]
    exact hbusy
  obtain ⟨r₃, hr₃⟩ : ∃ r₃ : Reconciler, r₃ = { r₂ with
      backoff := r₂.backoff.insert name ((r.cooldown name).recordAttempt now) } := ⟨_, rfl⟩
  have hrecorded : (Reconciler.recordAttempt name now).run Host.outside choices r₂ t₂ =
      (.returned (.ok ()) r₃, t₂) := by
    rw [run_recordAttempt hb, hr₃]
  have hclears : (Reconciler.rollbackProvision r.pool name record : Method Text Unit).wp
      (Host.under fun x _ _ _ => x.fails = none) (fun result r' t' => (∃ b, result = .ok b) ∧
        r' = r₃ ∧ Cleared r.pool name record t'.world)
      (fun x _ => x = .crashed) r₃ t₂ :=
    clear_rollbackProvision not_fallible_of_works hbusy₂
  obtain ⟨result, r', t', hrolled, ⟨u, rfl⟩, rfl, hcleared⟩ := Host.returns_from hclears hreliable
  have harmed : r'.backoff.lookup name = some ((r.cooldown name).recordAttempt now) := by
    rw [hr₃]
    exact AList.lookup_insert _
  refine ⟨r', t', ?_, hcleared, harmed⟩
  rw [Reconciler.reconcileOne_eq hrecord, Proc.run_bind htask]
  change (Reconciler.reconcileAbsent r.pool name record now).run _ _ _ _ = _
  rw [Reconciler.reconcileAbsent, Proc.bind_eq, Proc.run_bind_eq, Proc.run_attempt, hfailed]
  dsimp only
  rw [Proc.bind_eq, Proc.run_bind hrecorded]
  rw [Proc.bind_eq, Proc.run_bind hrolled]
  rfl

/-- **What a failed provisioning leaves**: nothing of the jail, every other
dataset, every other jail, and a cooldown. -/
structure RolledBack (name : String) (record : JailRecord) (now : ℕ) (r : Reconciler)
    (h : Host Text) (r' : Reconciler) (h' : Host Text) : Prop where
  cleared : Cleared r.pool name record h'
  datasets : ∀ dataset ∈ h.zfs.datasets, dataset ≠ jailDatasetPath r.pool name →
    dataset ∈ h'.zfs.datasets
  others : ∀ other record', other ≠ name → r.records.lookup other = some record' →
    SameOn (.ofJail r.pool other record') h h'
  memory : r.AgreesBut name r'
  armed : r'.backoff.lookup name = some ((r.cooldown name).recordAttempt now)

theorem FailsToProvision.rolledBack (h : FailsToProvision choices name record now r t error)
    (hr : r.Apart) (hrecord : r.records.lookup name = some record)
    (hbusy : jailDatasetPath r.pool name ∉ t.world.zfs.busy) : ∃ r' t',
    (Reconciler.reconcileOne name now).run Host.outside choices r t =
      (.returned (.error error) r', t') ∧ RolledBack name record now r t.world r' t'.world := by
  obtain ⟨r', t', hrun, hcleared, harmed⟩ := h.run hrecord hbusy
  refine ⟨r', t', hrun, hcleared, fun dataset hmem hne => ?_,
    fun other record' hne hother => ?_, ?_, harmed⟩
  · have hretains : (Reconciler.reconcileOne name now : Method Text Unit).Keeps (Op.Retains dataset)
        (fun _ _ => True) True (fun r' => r'.pool = r.pool) := by
      refine Reconciler.keeps_reconcileOne (fun r₁ record₁ hr₁ _ _ c hc => ?_)
        (fun _ _ h h' => h'.pool.trans h)
        fun _ _ => ⟨fun _ => trivial, fun _ _ _ _ _ _ _ => trivial⟩
      rw [show r₁.pool = r.pool from hr₁] at hc
      exact hc.retains hne
    have hmeets : Ended.Meets (fun _ _ t' => dataset ∈ t'.world.zfs.datasets)
        (fun _ t' => dataset ∈ t'.world.zfs.datasets)
        ((Reconciler.reconcileOne name now).run Host.outside choices r t) := by
      refine Host.meets_of_wp (Proc.wp_mono (fun _ _ _ hq => hq.2.1) (fun _ _ hx => hx.2.1)
        (Proc.wp_of_makes (I := fun w => dataset ∈ w.zfs.datasets) ?_ (hretains r rfl) hmem
          t.since_self))
      intro ρ x c s w hc hw _
      exact ⟨trivial, w.mem_datasets_call x hc hw⟩
    rw [hrun] at hmeets
    exact hmeets
  · have hlacks : Reconciler.LacksAll (.ofJail r.pool other record') r [name] :=
      Reconciler.lacksAll_ofJail hr hother fun hmem => hne (List.mem_singleton.1 hmem)
    have hmeets : Ended.Meets _ _
        ((Reconciler.reconcileOne name now).run Host.outside choices r t) :=
      Reconciler.sameOn_of_makes
        (Reconciler.off_reconcileOne hlacks List.mem_cons_self r (.refl [name] r))
    rw [hrun] at hmeets
    exact hmeets.2
  · have hmeets : Ended.Meets _ _
        ((Reconciler.reconcileOne name now).run Host.outside choices r t) :=
      Proc.run_of_makes (fun _ _ => trivial) Reconciler.makes_reconcileOne t.since_self
    rw [hrun] at hmeets
    exact hmeets.1.1

end Visit

/-! ## A later pass -/

theorem Cleared.of_sameOn {pool name : String} {record : JailRecord} {h h' : Host Text}
    (hc : Cleared pool name record h) (hsame : SameOn (.ofJail pool name record) h h') :
    Cleared pool name record h' := by
  refine ⟨?_, fun hmem => hc.dataset ((hsame.datasets _ rfl).1 hmem), fun v hv hmem => ?_, ?_⟩
  · rw [hsame.jails _ rfl]
    exact hc.jail
  · exact hc.mounts v hv ((hsame.mounts _ ⟨v, hv, rfl⟩).1 hmem)
  · rw [hsame.epairs _ rfl]
    exact hc.epair

section Retry

variable [Ipnet] [SerdeYaml Text JailRecord] [SerdeYaml Text IngressRecord]
variable {final : ℕ → Option (Outcome Text)} {l : Ledger} {p : Pass} {name : String}
variable {record : JailRecord} {r r' : Reconciler} {t t' : Trace (Op Text) (Host Text)}

/-- **A pass comes to a jail that is to be provisioned**, and nothing
stands in its way: no call fails, the cooldown is over, and the image is
there. -/
structure Retries (final : ℕ → Option (Outcome Text)) (p : Pass) (name : String)
    (record : JailRecord) (r : Reconciler) (t : Trace (Op Text) (Host Text)) (r' : Reconciler)
    (t' : Trace (Op Text) (Host Text)) : Prop where
  reliable : Reliable final
  cooldown : (r.cooldown name).canRetry p.now = true
  comes : Comes final p name r t r' t'
  image : baseDatasetPath r.pool record.spec.spec.image ∈ t'.world.zfs.datasets

/-- **It is provisioned**, and is so at the end of the pass. -/
theorem Retries.provisioned (h : Retries final p name record r t r' t') (hl : l.Sound Validated)
    (his : l.Is r t.world) (hrecord : r.records.lookup name = some record)
    (hvalid : Validated record) (hfits : GatewayFits record.spec.spec.network.address)
    (hcleared : Cleared r.pool name record t.world) :
    (∃ r₄ t₄, (Reconciler.reconcileOne name p.now).run Host.outside final r' t' =
      (.returned (.ok ()) r₄, t₄)) ∧
    Provisioned r.pool name record
      ((Reconciler.reconcile p).run Host.outside final r t).2.world := by
  have harrived := h.comes.arrived hl his hrecord
  have hpool : r'.pool = r.pool := harrived.aside.pool
  have hnone : t'.world.jails.lookup (jailName name) = none :=
    (hcleared.of_sameOn harrived.same).jail
  have hready : (r'.cooldown name).canRetry p.now = true := by
    rw [harrived.aside.cooldown_eq]
    exact h.cooldown
  obtain ⟨result, r₄, t₄, hvisit, hresult⟩ := Host.returns_of_wp
    (wp_visit (harrived.aside.record.trans hrecord) hvalid (fun _ => hfits) hready) h.reliable
  rw [hpool] at hresult
  obtain ⟨e, -, hfallible⟩ | ⟨rfl, hvisited⟩ := hresult
  · exact absurd (hfallible fun _ => h.image) not_fallible_of_works
  refine ⟨⟨r₄, t₄, hvisit⟩, ?_⟩
  exact (hvisited.absent hnone).of_sameOn (h.comes.departed hl his hrecord hvisit).same

/-- Without a gateway, it is not. -/
theorem Retries.fruitless (h : Retries final p name record r t r' t') (hl : l.Sound Validated)
    (his : l.Is r t.world) (hrecord : r.records.lookup name = some record)
    (hnot : ¬ GatewayFits record.spec.spec.network.address)
    (hcleared : Cleared r.pool name record t.world) {r₄ : Reconciler}
    {t₄ : Trace (Op Text) (Host Text)} :
    (Reconciler.reconcileOne name p.now).run Host.outside final r' t' ≠
      (.returned (.ok ()) r₄, t₄) := by
  have harrived := h.comes.arrived hl his hrecord
  refine run_ne_ok_of_not_fits (harrived.aside.record.trans hrecord) ?_ ?_ hnot
  · rw [harrived.aside.cooldown_eq]
    exact h.cooldown
  · rw [taskFor, (hcleared.of_sameOn harrived.same).jail]
    rfl

/-- **A provisioning of a record rolls back**, from every machine on which
there is nothing of the jail, whichever step fails: its visit returns the
error and leaves it so, and a later pass, whatever has happened meanwhile
to others, provisions the jail. -/
def RollsBack (Text : Type) [SerdeYaml Text JailRecord] [SerdeYaml Text IngressRecord]
    (pool : String) (record : JailRecord) : Prop :=
  ∀ (l : Ledger) (choices : ℕ → Option (Outcome Text)) (name : String) (now : ℕ) (r : Reconciler)
    (t : Trace (Op Text) (Host Text)) (error : ReconcileError), l.Sound Validated →
    l.Is r t.world → r.pool = pool → r.records.lookup name = some record →
    Cleared pool name record t.world → jailDatasetPath pool name ∉ t.world.zfs.busy →
    FailsToProvision choices name record now r t error →
    ∃ r' t', (Reconciler.reconcileOne name now).run Host.outside choices r t =
        (.returned (.error error) r', t') ∧ RolledBack name record now r t.world r' t'.world ∧
      ∀ (l₂ : Ledger) (final : ℕ → Option (Outcome Text)) (p : Pass) (r₂ : Reconciler)
        (t₂ : Trace (Op Text) (Host Text)) (r₃ : Reconciler) (t₃ : Trace (Op Text) (Host Text)),
        l₂.Sound Validated → l₂.Is r₂ t₂.world → Aside name r' r₂ →
        SameOn (.ofJail pool name record) t'.world t₂.world →
        Retries final p name record r₂ t₂ r₃ t₃ →
        (∃ r₄ t₄, (Reconciler.reconcileOne name p.now).run Host.outside final r₃ t₃ =
          (.returned (.ok ()) r₄, t₄)) ∧
        Provisioned pool name record
          ((Reconciler.reconcile p).run Host.outside final r₂ t₂).2.world

/-! ## Exactly when -/

variable {pool : String}

/-- A record whose image is to be the jail's own dataset: while there is
nothing of the jail, there is no such image. -/
def Unmakable (record : JailRecord) : Prop :=
  record.spec.spec.image = "jails/" ++ record.spec.metadata.name

omit [Ipnet] [SerdeYaml Text JailRecord] [SerdeYaml Text IngressRecord] in
theorem unmakable_iff : Unmakable record ↔
    baseDatasetPath pool record.spec.spec.image =
      jailDatasetPath pool record.spec.metadata.name := by
  have hpath : jailDatasetPath pool record.spec.metadata.name =
      pool ++ "/keel/" ++ ("jails/" ++ record.spec.metadata.name) := by
    have hkeel : "/keel/jails/" = "/keel/" ++ "jails/" := rfl
    rw [jailDatasetPath, hkeel]
    simp only [String.append_assoc]
  rw [Unmakable, baseDatasetPath, hpath, String.append_right_inj]

theorem rollsBack_of_fits (h : GatewayFits record.spec.spec.network.address ∨ Unmakable record) :
    RollsBack Text pool record := by
  intro l choices name now r t error hl his hpool hrecord hcleared hbusy hfails
  subst hpool
  have hvalid : ∀ {l : Ledger} {r : Reconciler} {t : Trace (Op Text) (Host Text)},
      l.Sound Validated → l.Is r t.world → r.Apart := fun hl his => his.apart hl fun _ ha => ha
  obtain ⟨r', t', hrun, hrolled⟩ := hfails.rolledBack (hvalid hl his) hrecord hbusy
  refine ⟨r', t', hrun, hrolled, fun l₂ final p r₂ t₂ r₃ t₃ hl₂ his₂ haside hsame hretries => ?_⟩
  have hpool₂ : r₂.pool = r.pool := haside.pool.trans hrolled.memory.pool
  have hrecord₂ : r₂.records.lookup name = some record := by
    rw [haside.record, hrolled.memory.records]
    exact hrecord
  have hcleared₂ : Cleared r.pool name record t₂.world := hrolled.cleared.of_sameOn hsame
  rw [← hpool₂] at hcleared₂ ⊢
  rcases h with hfits | hnever
  · refine hretries.provisioned hl₂ his₂ hrecord₂ ?_ hfits hcleared₂
    rw [his₂.records] at hrecord₂
    exact hl₂.record name record hrecord₂
  · have hnamed : record.spec.metadata.name = name := by
      rw [his₂.records] at hrecord₂
      exact (his₂.holds.named name record hrecord₂).1
    have himage := hretries.image
    rw [unmakable_iff.1 hnever, hnamed] at himage
    exact absurd himage
      (hcleared₂.of_sameOn (hretries.comes.arrived hl₂ his₂ hrecord₂).same).dataset

/-! ## A record by itself -/

/-- A process with one record. -/
def lone (pool : String) (record : JailRecord) : Reconciler :=
  { Reconciler.blank pool with
    records := (∅ : Table JailRecord).insert record.spec.metadata.name record
    nextEpairOrdinal := record.epairOrdinal + 1 }

/-- A machine with one record and its image. -/
def Host.lone (pool : String) (record : JailRecord) : Host Text where
  jails := ∅
  zfs := { Agent.FakeZfsManager.new with
    datasets := {baseDatasetPath pool record.spec.spec.image} }
  net := ⟨∅, ∅, ∅, ∅, ∅⟩
  mounts := ∅
  stateDir := (∅ : Table Text).insert (stateFile record.spec.metadata.name)
    (SerdeYaml.toYaml record)
  ingressDir := ∅
  rootfsFiles := []
  hiddenFiles := []
  nginxConfig := ∅

/-- A ledger with one record. -/
def Ledger.lone (record : JailRecord) : Ledger :=
  (⟨fun _ => none, record.epairOrdinal⟩ : Ledger).set record.spec.metadata.name (some record)
    (record.epairOrdinal + 1)

omit [SerdeYaml Text JailRecord] [SerdeYaml Text IngressRecord] in
theorem Ledger.sound_lone (hvalid : Validated record) : (Ledger.lone record).Sound Validated := by
  have hnone : (⟨fun _ => none, record.epairOrdinal⟩ : Ledger).Sound Validated := by
    refine ⟨fun n m a b ha => ?_, fun n a ha => ?_, fun n a ha => ?_⟩
    · cases ha
    · cases ha
    · cases ha
  exact hnone.move (.create rfl rfl hvalid)

omit [SerdeYaml Text IngressRecord] in
theorem Ledger.is_lone (hvalid : Validated record) :
    (Ledger.lone record).Is (Node.lone pool record) (Host.lone pool record : Host Text) := by
  have hname : record.spec.metadata.name ≠ "" := ne_empty_of_validateName (validate_ok hvalid)
  refine ⟨fun name => ?_, rfl, ?_⟩
  · rw [Node.lone, Table.lookup_insert_eq, Ledger.lone, Ledger.set]
    dsimp only
    rw [Function.update_apply]
    rfl
  · have hnone : Holds (∅ : Table Text) fun _ => none :=
      holds_none fun file content hfile => by cases hfile
    refine hnone.put (fun file _ => ?_) hname
    exact Table.lookup_insert_eq ..

omit [Ipnet] [SerdeYaml Text IngressRecord] in
theorem cleared_lone (hnot : ¬ Unmakable record) :
    Cleared pool record.spec.metadata.name record (Host.lone pool record : Host Text) := by
  refine ⟨rfl, fun hmem => hnot ?_, fun v _ hmem => ?_, rfl⟩
  · exact unmakable_iff.2 (Finset.mem_singleton.1 hmem).symm
  · exact absurd hmem (Finset.notMem_empty _)

/-- Every call works but the second. -/
def failingSecond : ℕ → Option (Outcome Text) :=
  fun i => some (if i = 1 then { Outcome.works with fails := some "" } else .works)

omit [SerdeYaml Text IngressRecord] in
/-- Its provisioning fails at the first of its calls. -/
theorem failsToProvision_lone : FailsToProvision failingSecond record.spec.metadata.name record 0
    (Node.lone pool record) ⟨(Host.lone pool record : Host Text), []⟩ (.zfs (.commandFailed "")) := by
  refine ⟨_, _, _, _, rfl, rfl, fun i hi => ⟨.works, congrArg some (if_neg ?_), rfl⟩⟩
  have hcalls : 2 ≤ i := hi
  omega

/-- The next pass comes to it. -/
theorem comes_lone {choices : ℕ → Option (Outcome Text)} (hchoices : Reliable choices)
    (hnone : NoIngress r) (hkeys : r.records.keys = [name]) (p : Pass)
    (horder : p.order = .listed) :
    ∃ t', Comes choices p name r t r t' ∧ t'.world.zfs = t.world.zfs := by
  obtain ⟨result, r', t', hserved, rfl, rfl, nginxConfig, ht'⟩ :=
    Host.returns_of_wp (wp_reconcileIngresses_idle (t := t) (p := p) hnone) hchoices
  refine ⟨t', ⟨r', t', [], [], [], hserved, ?_, rfl⟩, by rw [ht']⟩
  rw [horder, hkeys]
  rfl

/-- **A record that rolls back** has an address with a gateway, or no
image. -/
theorem fits_of_rollsBack (hvalid : Validated record) (h : RollsBack Text pool record) :
    GatewayFits record.spec.spec.network.address ∨ Unmakable record := by
  by_contra hnot
  obtain ⟨hfits, himage⟩ := not_or.1 hnot
  have hl : (Ledger.lone record).Sound Validated := Ledger.sound_lone hvalid
  have his : (Ledger.lone record).Is (Node.lone pool record) (Host.lone pool record : Host Text) :=
    Ledger.is_lone hvalid
  have hrecord : (Node.lone pool record).records.lookup record.spec.metadata.name = some record :=
    AList.lookup_insert _
  have hcleared : Cleared pool record.spec.metadata.name record
      (Host.lone pool record : Host Text) :=
    cleared_lone himage
  obtain ⟨r', t', hrun, hrolled, hlater⟩ := h (Ledger.lone record) failingSecond
    record.spec.metadata.name 0 (Node.lone pool record) ⟨Host.lone pool record, []⟩
    (.zfs (.commandFailed "")) hl his rfl hrecord hcleared (Finset.notMem_empty _)
    failsToProvision_lone
  have his' : (Ledger.lone record).Is r' t'.world := by
    have hmeets : Ended.Meets _ _ ((Reconciler.reconcileOne record.spec.metadata.name 0).run
        Host.outside failingSecond (Node.lone pool record) ⟨Host.lone pool record, []⟩) :=
      Host.meets_of_wp (wp_unmoved his (sameRecords_reconcileOne _ 0) ⟨rfl, rfl⟩ fun _ hr => hr)
    rw [hrun] at hmeets
    exact hmeets.2
  have hrecord' : r'.records.lookup record.spec.metadata.name = some record := by
    rw [hrolled.memory.records]
    exact hrecord
  have hworks : Reliable fun _ => some (Outcome.works : Outcome Text) := fun _ => ⟨_, rfl, rfl⟩
  obtain ⟨t₃, hcomes, hzfs⟩ := comes_lone (t := t') hworks
    (show NoIngress r' by rw [NoIngress, hrolled.memory.ingressRecords]; rfl)
    (show r'.records.keys = [record.spec.metadata.name] by rw [hrolled.memory.records]; rfl)
    ⟨BackoffState.second, 0, .listed, .listed⟩ rfl
  have hthere : baseDatasetPath r'.pool record.spec.spec.image ∈ t₃.world.zfs.datasets := by
    rw [hzfs, hrolled.memory.pool]
    refine hrolled.datasets _ (Finset.mem_singleton_self _) ?_
    exact fun heq => himage (unmakable_iff.2 heq)
  have hover : (r'.cooldown record.spec.metadata.name).canRetry BackoffState.second = true := by
    rw [Reconciler.cooldown, hrolled.armed]
    rfl
  have hretries : Retries (fun _ => some .works) ⟨BackoffState.second, 0, .listed, .listed⟩
      record.spec.metadata.name record r' t' r' t₃ := ⟨hworks, hover, hcomes, hthere⟩
  obtain ⟨⟨r₄, t₄, hvisit⟩, -⟩ := hlater _ _ _ r' t' r' t₃ hl his' (.refl _ r') (.refl _) hretries
  refine hretries.fruitless hl his' hrecord' hfits ?_ hvisit
  rw [hrolled.memory.pool]
  exact hrolled.cleared

/-- **Provision rolls back**, from everywhere and whichever step fails, for
just the records whose address has a gateway (or that have no image to be
provisioned from). -/
theorem provision_rolls_back (hvalid : Validated record) :
    RollsBack Text pool record ↔
      GatewayFits record.spec.spec.network.address ∨ Unmakable record :=
  ⟨fits_of_rollsBack hvalid, rollsBack_of_fits⟩

end Retry

section

open Agent.Sample (jail)
open scoped Agent.Sample Node.Sample

theorem provision_rolls_back_sample :
    RollsBack Sample.Doc "zroot" ⟨jail "db-0" none, 1⟩ := by
  have hvalid : Validated ⟨jail "db-0" none, 1⟩ := by
    show Reconciler.validate (jail "db-0" none) = .ok ()
    decide +kernel
  refine (provision_rolls_back hvalid).2 (Or.inl ?_)
  exact ⟨⟨Ipv4Addr.ofOctets 10 0 9 9, 24, by decide⟩, by decide +kernel, by decide +kernel⟩

end

section

open Node.Sample (jailAt)
open scoped Node.Sample Node.Sample.Dual

/-- A record at an IPv6 address, whose jail cannot be created at first: it
is rolled back, and the next pass that could provision it panics. -/
theorem provision_rolls_back_not :
    (∃ r t, Sample.host.life "zroot" (Sample.failing 13)
      [.start, .operation (.apply (jailAt "fd00::5/64")), .operation (.reconcile (Sample.pass 0))] =
        ⟨some r, t⟩ ∧ Cleared "zroot" "web" ⟨jailAt "fd00::5/64", 1⟩ t.world ∧
      (r.cooldown "web").canRetry BackoffState.second = true) ∧
    (Sample.host.life "zroot" (Sample.failing 13)
      [.start, .operation (.apply (jailAt "fd00::5/64")),
        .operation (.reconcile (Sample.pass 0))]).Panics (Host.world "zroot" (Sample.failing 13))
        (.operation (.reconcile (Sample.pass BackoffState.second))) ∧
    ¬ RollsBack Sample.Doc "zroot" ⟨jailAt "fd00::5/64", 1⟩ := by
  refine ⟨?_, System.panics_of_isPanic (by decide +kernel), fun hrolls => ?_⟩
  · obtain ⟨sys, hsys⟩ : ∃ sys, Sample.host.life "zroot" (Sample.failing 13)
        [.start, .operation (.apply (jailAt "fd00::5/64")),
          .operation (.reconcile (Sample.pass 0))] = sys := ⟨_, rfl⟩
    have hstate : (sys.memory.any fun r => (r.cooldown "web").canRetry BackoffState.second &&
        ((sys.trace.world.jails.lookup (jailName "web")).isNone &&
          (decide (jailDatasetPath "zroot" "web" ∉ sys.trace.world.zfs.datasets) &&
            (sys.trace.world.net.attachments.lookup (epairBaseName 1)).isNone))) = true := by
      rw [← hsys]
      decide +kernel
    obtain ⟨r, hr, hstate⟩ := (Option.any_eq_true _ _).1 hstate
    obtain ⟨hover, hstate⟩ := Bool.and_eq_true_iff.1 hstate
    obtain ⟨hjail, hstate⟩ := Bool.and_eq_true_iff.1 hstate
    obtain ⟨hdataset, hepair⟩ := Bool.and_eq_true_iff.1 hstate
    refine ⟨r, sys.trace, by rw [hsys, ← hr], ⟨Option.isNone_iff_eq_none.1 hjail,
      of_decide_eq_true hdataset, fun v hv => ?_, Option.isNone_iff_eq_none.1 hepair⟩, hover⟩
    cases hv
  · have hvalid : Validated ⟨jailAt "fd00::5/64", 1⟩ := by
      show Reconciler.validate (jailAt "fd00::5/64") = .ok ()
      decide +kernel
    have hnone : (parseIpv4Net "fd00::5/64").toOption = none := by decide +kernel
    rcases fits_of_rollsBack hvalid hrolls with ⟨net, hnet, -⟩ | himage
    · rw [show parseIpv4Net "fd00::5/64" = .ok net from hnet] at hnone
      cases hnone
    · revert himage
      show ¬ "base" = "jails/" ++ "web"
      decide

end

end Node

end Keel
