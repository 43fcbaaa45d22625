import Keel.Node.Panics
import Keel.Node.Helpers.Visited
/-!
# Visits that do not return

A visit panics on an address without a gateway when it comes to attach
the jail there, and only then: where it does not start the jail, or there
is no image to start it from, it returns like any other. Where it does
and no call fails before, it never returns.
-/

namespace Keel

namespace Node

open Agent (JailRecord)

variable {Text : Type}

/-- **A jail would be started**, were its cooldown over: it has exited and
is to run again, or is not there and its image is. -/
def Starts (pool name : String) (record : JailRecord) (h : Host Text) : Prop :=
  (taskFor name record h).isAttempt = true ∧ (h.jails.lookup (jailName name) = none →
    baseDatasetPath pool record.spec.spec.image ∈ h.zfs.datasets)

/-- Only a jail that is not there is to be provisioned. -/
theorem lookup_of_taskFor {name : String} {record : JailRecord} {h : Host Text}
    (htask : taskFor name record h = .provision) : h.jails.lookup (jailName name) = none := by
  rw [taskFor] at htask
  cases hjail : h.jails.lookup (jailName name) with
  | none => rfl
  | some jail =>
    rw [hjail] at htask
    dsimp only at htask
    split at htask
    · cases htask
    · split at htask
      · cases htask
      · cases htask

section Returns

variable [Ipnet] {pool name : String} {record : JailRecord} {now : ℕ} {r : Reconciler}
variable {t : Trace (Op Text) (Host Text)}

/-- A method that no gateway can stop. -/
theorem wp_steady {α : Type} {m : Method Text α} {K : Except ReconcileError α → Reconciler → Prop}
    (hm : m.Makes (fun _ => True) Op.Attaches False K r) :
    m.wp Host.outside (fun _ _ _ => True) (fun x _ => x = .crashed) r t := by
  refine Proc.wp_mono (fun _ _ _ _ => trivial) ?_ (Proc.wp_of_makes (I := fun _ => True)
    (fun x c s w _ _ _ => ⟨Op.attaches_call x c w, trivial⟩) hm trivial t.since_self)
  rintro x t' ⟨hx | hx, -⟩
  · exact hx
  · exact hx.elim

/-- Where there is a gateway, a visit returns. -/
theorem wp_reconcileOne_fits (hrecord : r.records.lookup name = some record)
    (hfits : GatewayFits record.spec.spec.network.address) :
    (Reconciler.reconcileOne name now : Method Text Unit).wp Host.outside (fun _ _ _ => True)
      (fun x _ => x = .crashed) r t := by
  have hkeeps : (Reconciler.reconcileOne name now : Method Text Unit).Keeps (fun _ => True)
      Op.Attaches False fun r' => r'.records = r.records := by
    refine Reconciler.keeps_reconcileOne (fun _ _ _ _ _ _ _ => trivial)
      (fun _ _ hr hr' => hr'.records.trans hr) fun r' hr' => ⟨fun hnone => ?_, fun record' h => ?_⟩
    · rw [show r'.records = r.records from hr', hrecord] at hnone
      cases hnone
    · rw [show r'.records = r.records from hr', hrecord] at h
      cases h
      exact attachPanics_of_fits hfits
  exact wp_steady (hkeeps r rfl)

/-- A provisioning without an image goes no further. -/
theorem wp_provision_of_notMem
    (himage : baseDatasetPath pool record.spec.spec.image ∉ t.world.zfs.datasets) :
    (Reconciler.provision pool name record : Method Text Unit).wp Host.outside
      (fun result r' _ => r' = r ∧ ∃ e, result = .error e) (fun x _ => x = .crashed) r t := by
  rw [Reconciler.provision]
  simp only [Proc.bind_eq]
  refine Proc.wp_seq wp_requireBaseImage ?_ ?_ fun _ _ hx => hx
  · rintro _ r₁ t₁ ⟨-, -, hresult⟩
    rcases hresult with ⟨e, he, -⟩ | ⟨-, hbase⟩
    · cases he
    · exact absurd hbase himage
  · exact fun e _ _ h => ⟨h.1, e, rfl⟩

/-- Nor does a visit that would not start the jail. -/
theorem wp_perform_of_not_starts (hnot : ¬ Starts pool name record t.world) {b : BackoffState}
    (hb : r.backoff.lookup name = some b) :
    ((taskFor name record t.world).perform pool name record now : Method Text Unit).wp
      Host.outside (fun _ _ _ => True) (fun x _ => x = .crashed) r t := by
  rw [Starts, taskFor] at hnot
  rw [taskFor]
  cases hjail : t.world.jails.lookup (jailName name) with
  | none =>
    rw [hjail] at hnot
    have himage : baseDatasetPath pool record.spec.spec.image ∉ t.world.zfs.datasets :=
      fun hmem => hnot ⟨rfl, fun _ => hmem⟩
    dsimp only [Task.perform]
    rw [Reconciler.reconcileAbsent, Proc.bind_eq, Proc.wp_bind, Proc.wp_attempt]
    refine Proc.wp_mono ?_ (fun _ _ hx => hx) (wp_provision_of_notMem himage)
    rintro result _ t₁ ⟨rfl, e, rfl⟩
    dsimp only
    rw [Proc.bind_eq, Proc.wp_bind]
    refine wp_recordAttempt_of_lookup hb ?_
    exact Proc.wp_seq wp_rollbackProvision_ends (fun _ _ _ _ => trivial) (fun _ _ _ _ => trivial)
      fun _ _ hx => hx
  | some jail =>
    rw [hjail] at hnot
    dsimp only at hnot ⊢
    split
    · have hlimits : (Reconciler.setLimits name record : Method Text Unit).Keeps (fun _ => True)
          Op.Attaches False fun _ => True :=
        Reconciler.keeps_setLimits.imp (fun _ _ => trivial) fun _ _ _ h => h
      exact wp_steady (hlimits r trivial)
    · split
      · trivial
      · rename_i hdown hpolicy
        rw [if_neg hdown, if_neg hpolicy] at hnot
        exact absurd ⟨rfl, fun hnone => by cases hnone⟩ hnot

/-- **A visit returns**, unless it would start the jail under an address
without a gateway. -/
theorem wp_reconcileOne_ends (hrecord : r.records.lookup name = some record)
    (hfits : (r.cooldown name).canRetry now = true → Starts r.pool name record t.world →
      GatewayFits record.spec.spec.network.address) :
    (Reconciler.reconcileOne name now : Method Text Unit).wp Host.outside (fun _ _ _ => True)
      (fun x _ => x = .crashed) r t := by
  by_cases hgateway : GatewayFits record.spec.spec.network.address
  · exact wp_reconcileOne_fits hrecord hgateway
  rw [Reconciler.reconcileOne]
  simp only [Proc.bind_eq]
  rw [Proc.wp_get_bind, hrecord, Checked.expect, Proc.ofChecked, Proc.ret_bind]
  by_cases hready : (r.cooldown name).canRetry now = true
  · have hnot : ¬ Starts r.pool name record t.world := fun h => hgateway (hfits hready h)
    rw [Reconciler.reconcileRecord_eq]
    refine Proc.wp_seq (wp_visitTask hready) ?_ (fun _ _ _ _ => trivial) fun _ _ hx => hx
    rintro task r₁ t₁ ⟨hb, ht₁, hresult⟩
    rcases hresult with ⟨e, he, -⟩ | ⟨⟨rfl⟩⟩
    · cases he
    rw [← ht₁] at hnot ⊢
    exact wp_perform_of_not_starts hnot hb
  · rw [Reconciler.reconcileRecord, Proc.bind_eq, Proc.wp_bind]
    refine wp_checkCooldown fun r' _ _ => ?_
    dsimp only
    rw [if_neg hready]
    trivial

end Returns

/-! ## No way back -/

section Doomed

variable [Ipnet] {α β : Type} {pool name : String} {record : JailRecord} {now : ℕ}
variable {r : Reconciler} {t : Trace (Op Text) (Host Text)}

/-- A method that does not return where no call fails. -/
def Doomed (m : Method Text α) (r : Reconciler) (t : Trace (Op Text) (Host Text)) : Prop :=
  m.wp (Host.under fun x _ _ _ => x.fails = none) (fun _ _ _ => False) (fun _ _ => True) r t

theorem Doomed.bind {m : Method Text α} (hm : Doomed m r t) (f : α → Method Text β) :
    Doomed (m.bind f) r t :=
  Proc.wp_seq hm (fun _ _ _ h => h.elim) (fun _ _ _ h => h.elim) fun _ _ _ => trivial

theorem Doomed.attempt {m : Method Text α} (hm : Doomed m r t) :
    Doomed (m.attempt : Method Text (Except ReconcileError α)) r t :=
  Proc.wp_attempt.2 (Proc.wp_mono (fun _ _ _ h => h) (fun _ _ hx => hx) hm)

/-- So it does not, in any run where none does. -/
theorem Doomed.stopped {m : Method Text α} (hm : Doomed m r t)
    {choices : ℕ → Option (Outcome Text)} (hchoices : Reliable choices) :
    ∃ x, (m.run Host.outside choices r t).1 = .stopped x := by
  have hmeets : Ended.Meets (fun _ _ _ => False) (fun _ _ => True)
      (m.run (Host.under fun x _ _ _ => x.fails = none) choices r t) := by
    refine Proc.wp_run hm (Proc.allowed_of_allows fun i x hx ρ c s w => ?_)
    obtain ⟨x', hx', hworks⟩ := hchoices i
    cases hx.symm.trans hx'
    exact hworks
  cases hrun : m.run Host.outside choices r t with
  | mk ending t' =>
    rw [Host.run_under, hrun] at hmeets
    cases ending with
    | returned result r' => exact hmeets.elim
    | stopped x => exact ⟨x, rfl⟩

/-- A call that works leads on. -/
theorem doomed_tryCall_bind {δ : Type} {f : δ → ReconcileError} {c : Op Text (Except δ α)}
    {error : String → δ} {m : α → Method Text β} {a : α} {h' : Host Text}
    (hcall : ∀ x, Host.call x c t.world = x.unlessFails t.world error (.ok a, h'))
    (hm : ∀ t' : Trace (Op Text) (Host Text), t'.world = h' → Doomed (m a) r t') :
    Doomed ((Proc.tryCall f c).bind m) r t := by
  rw [Doomed, Proc.wp_bind]
  refine wp_tryCall hcall trivial (fun x m hx hfails => ?_) (fun a' ha' => ?_) fun e he => ?_
  · cases hx.symm.trans hfails
  · cases ha'
    exact hm _ rfl
  · cases he

/-- An epair is not attached without a gateway. -/
theorem doomed_attachJail {jail bridge epair address : String} (hnot : ¬ GatewayFits address)
    (hbridge : bridge ∈ t.world.net.bridges) :
    Doomed (Reconciler.attachJail jail bridge epair address : Method Text Unit) r t := by
  rw [Doomed, Reconciler.attachJail]
  simp only [Proc.bind_eq]
  refine Proc.wp_ask_bind.2 ⟨trivial, fun x hx => ?_⟩
  change (Proc.bind (Proc.ofChecked (Host.call x (.attachJail jail bridge epair address)
    t.world).1) _).wp _ _ _ _ _
  rw [Host.call, show x.fails = none from hx]
  dsimp only
  rw [Host.attachJail, if_pos hbridge]
  cases hgateway : bridgeGateway address with
  | ok gateway => exact absurd (exists_bridgeGateway_iff.1 ⟨gateway, hgateway⟩) hnot
  | error p => trivial

theorem doomed_restart (hnot : ¬ GatewayFits record.spec.spec.network.address) :
    Doomed (Reconciler.restart name record : Method Text Unit) r t := by
  refine Doomed.bind (m := Reconciler.configureNetworkingAndLimits name record) ?_ _
  refine doomed_tryCall_bind (fun x => rfl) fun t' ht' => ?_
  refine Doomed.bind (doomed_attachJail hnot ?_) _
  rw [ht']
  exact Finset.mem_insert_self _ _

/-- Nor is a jail whose image is there provisioned under it. -/
theorem doomed_provision (hnot : ¬ GatewayFits record.spec.spec.network.address)
    (himage : baseDatasetPath pool record.spec.spec.image ∈ t.world.zfs.datasets) :
    Doomed (Reconciler.provision pool name record : Method Text Unit) r t := by
  rw [Doomed, Reconciler.provision]
  simp only [Proc.bind_eq]
  refine Proc.wp_seq wp_requireBaseImage ?_ ?_ fun _ _ _ => trivial
  · rintro _ r₁ t₁ ⟨rfl, ht₁, -⟩
    rw [← ht₁] at himage
    obtain ⟨files, hidden, hclone⟩ :=
      t₁.world.cloneFromBase_eq (jailDatasetPath pool name) himage
    refine doomed_tryCall_bind (fun x => by rw [Host.call, hclone]) fun t₂ _ => ?_
    refine doomed_tryCall_bind (fun x => rfl) fun t₃ _ => ?_
    refine Proc.wp_seq (wp_mountVolumes _) ?_ ?_ fun _ _ _ => trivial
    · exact fun _ _ _ _ => doomed_restart hnot
    · rintro e r₄ t₄ ⟨-, -, ⟨e', -, hfallible⟩ | ⟨hok, -⟩⟩
      · exact not_fallible_of_works hfallible
      · cases hok
  · rintro e r₁ t₁ ⟨-, -, ⟨e', -, hfallible⟩ | ⟨hok, -⟩⟩
    · exact not_fallible_of_works (hfallible himage)
    · cases hok

/-- **A start** that comes to no end. -/
theorem doomed_reconcileOne (hrecord : r.records.lookup name = some record)
    (hready : (r.cooldown name).canRetry now = true) (hstarts : Starts r.pool name record t.world)
    (hnot : ¬ GatewayFits record.spec.spec.network.address) :
    Doomed (Reconciler.reconcileOne name now : Method Text Unit) r t := by
  rw [Doomed, Reconciler.reconcileOne]
  simp only [Proc.bind_eq]
  rw [Proc.wp_get_bind, hrecord, Checked.expect, Proc.ofChecked, Proc.ret_bind,
    Reconciler.reconcileRecord_eq]
  refine Proc.wp_seq (wp_visitTask hready) ?_ ?_ fun _ _ _ => trivial
  · rintro task r₁ t₁ ⟨-, ht₁, hresult⟩
    rcases hresult with ⟨e, he, -⟩ | ⟨⟨rfl⟩⟩
    · cases he
    rw [← ht₁] at hstarts ⊢
    obtain ⟨hattempt, himage⟩ := hstarts
    cases htask : taskFor name record t₁.world with
    | provision =>
      exact (doomed_provision hnot (himage (lookup_of_taskFor htask))).attempt.bind _
    | restart => exact (doomed_restart hnot).attempt.bind _
    | limit =>
      rw [htask] at hattempt
      cases hattempt
    | leave =>
      rw [htask] at hattempt
      cases hattempt
  · rintro e r₁ t₁ ⟨-, -, ⟨e', -, hfallible⟩ | hok⟩
    · exact not_fallible_of_works hfallible
    · cases hok

end Doomed

end Node

end Keel
