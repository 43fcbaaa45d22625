import Keel.Node.Helpers.BringUp
import Keel.Node.Helpers.Visits
/-!
# What a visit leaves

A visit without failures to a jail whose cooldown is over, for each state
the jail can be in; and what comes of a start where the jail's address has
no gateway.
-/

namespace Keel

namespace Node

open Agent (JailRecord)

variable {Text : Type}

/-! ## The task -/

/-- What there is to do for a jail, as it is on the machine. -/
def taskFor (name : String) (record : JailRecord) (h : Host Text) : Task :=
  match h.jails.lookup (jailName name) with
  | none => .provision
  | some jail =>
    if jail.running = true then .limit
    else if record.spec.spec.restartPolicy = .never then .leave
    else .restart

section Task

variable [Ipnet] {allows : {ρ : Type} → Outcome Text → Op Text ρ → Reconciler → Host Text → Prop}
variable {name : String} {record : JailRecord} {now : ℕ} {r : Reconciler}
variable {t : Trace (Op Text) (Host Text)}

theorem wp_chooseTask :
    (Reconciler.chooseTask name record : Method Text Task).wp (Host.under allows)
      (fun result r' t' => r' = r ∧ t'.world = t.world ∧
        ((∃ e, result = .error e ∧ Fallible allows) ∨ result = .ok (taskFor name record t.world)))
      (fun x _ => x = .crashed) r t := by
  rw [Reconciler.chooseTask, taskFor]
  simp only [Proc.bind_eq]
  rw [Proc.wp_bind]
  refine wp_tryCall (fun _ => rfl) rfl ?_ ?_ fun e he => by cases he
  · exact fun x m hx hfails => ⟨rfl, rfl, Or.inl ⟨_, rfl, fallible_of_fails hx hfails⟩⟩
  intro there hthere
  cases hthere
  dsimp only
  cases hjail : t.world.jails.lookup (jailName name) with
  | none => exact ⟨rfl, rfl, Or.inr rfl⟩
  | some jail =>
    rw [Option.isSome_some, if_pos rfl, Proc.wp_bind]
    refine wp_tryCall (fun _ => rfl) rfl ?_ ?_ fun e he => by cases he
    · exact fun x m hx hfails => ⟨rfl, rfl, Or.inl ⟨_, rfl, fallible_of_fails hx hfails⟩⟩
    intro running hrunning
    have hrunning : running = jail.running := by
      cases hrunning
      rw [Trace.push_world, Host.isRunning, hjail, Option.any_some]
    subst hrunning
    dsimp only
    split
    · exact ⟨rfl, rfl, Or.inr rfl⟩
    · split
      · exact ⟨rfl, rfl, Or.inr rfl⟩
      · exact ⟨rfl, rfl, Or.inr rfl⟩

theorem wp_visitTask (hready : (r.cooldown name).canRetry now = true) :
    (Reconciler.visitTask name record now : Method Text Task).wp (Host.under allows)
      (fun result r' t' => r'.backoff.lookup name = some (r.cooldown name) ∧
        t'.world = t.world ∧
        ((∃ e, result = .error e ∧ Fallible allows) ∨ result = .ok (taskFor name record t.world)))
      (fun x _ => x = .crashed) r t := by
  rw [Reconciler.visitTask, Proc.bind_eq, Proc.wp_bind]
  refine wp_checkCooldown fun r' hr' hcooldown => ?_
  dsimp only
  rw [hready, if_pos rfl]
  refine Proc.wp_mono ?_ (fun _ _ hx => hx) wp_chooseTask
  rintro result _ t' ⟨rfl, ht', hresult⟩
  exact ⟨hcooldown, ht', hresult⟩

end Task

/-! ## What others leave -/

/-- Elsewhere something happens. -/
theorem Wired.of_sameOn {pool name : String} {record : JailRecord} {h h' : Host Text}
    {jail : FakeJail} (hw : Wired name record h jail)
    (hsame : SameOn (.ofJail pool name record) h h') : Wired name record h' jail := by
  refine ⟨?_, hw.limited, hw.started⟩
  rw [Attached, hsame.epairs _ rfl]
  exact hw.attached

theorem Provisioned.of_sameOn {pool name : String} {record : JailRecord} {h h' : Host Text}
    (hp : Provisioned pool name record h) (hsame : SameOn (.ofJail pool name record) h h') :
    Provisioned pool name record h' := by
  obtain ⟨hdataset, jail, hjail, hrunning, hvnet, hmounted, hwired⟩ := hp
  refine ⟨(hsame.datasets _ rfl).2 hdataset, jail, ?_, hrunning, hvnet, fun v hv => ?_,
    hwired.of_sameOn hsame⟩
  · rw [hsame.jails _ rfl]
    exact hjail
  · exact (hsame.mounts _ ⟨v, hv, rfl⟩).2 (hmounted v hv)

/-! ## A visit that returns `Ok` -/

/-- What a visit that returns `Ok` makes of a jail: one that is not there
is provisioned, one that has exited is set up anew and started, on the
virtual network it has, or left as it is if it is not to be started again;
one that runs is given its limits. -/
structure Visited (pool name : String) (record : JailRecord) (h h' : Host Text) : Prop where
  absent : h.jails.lookup (jailName name) = none → Provisioned pool name record h'
  exited : ∀ jail, h.jails.lookup (jailName name) = some jail → jail.running = false →
    record.spec.spec.restartPolicy ≠ .never → ∃ jail',
      h'.jails.lookup (jailName name) = some jail' ∧ jail'.running = true ∧
        jail'.vnet = jail.vnet ∧ Wired name record h' jail'
  left : ∀ jail, h.jails.lookup (jailName name) = some jail → jail.running = false →
    record.spec.spec.restartPolicy = .never → SameOn (.ofJail pool name record) h h'
  running : ∀ jail, h.jails.lookup (jailName name) = some jail → jail.running = true → ∃ jail',
    h'.jails.lookup (jailName name) = some jail' ∧ jail'.running = true ∧
      jail'.vnet = jail.vnet ∧ Limited record jail'

theorem Visited.of_absent {pool name : String} {record : JailRecord} {h h' : Host Text}
    (hnone : h.jails.lookup (jailName name) = none) (hp : Provisioned pool name record h') :
    Visited pool name record h h' := by
  refine ⟨fun _ => hp, fun jail hjail => ?_, fun jail hjail => ?_, fun jail hjail => ?_⟩
  · cases hnone.symm.trans hjail
  · cases hnone.symm.trans hjail
  · cases hnone.symm.trans hjail

theorem Visited.of_there {pool name : String} {record : JailRecord} {h h' : Host Text}
    {jail : FakeJail} (hjail : h.jails.lookup (jailName name) = some jail)
    (hexited : jail.running = false → record.spec.spec.restartPolicy ≠ .never → ∃ jail',
      h'.jails.lookup (jailName name) = some jail' ∧ jail'.running = true ∧
        jail'.vnet = jail.vnet ∧ Wired name record h' jail')
    (hleft : jail.running = false → record.spec.spec.restartPolicy = .never →
      SameOn (.ofJail pool name record) h h')
    (hrunning : jail.running = true → ∃ jail',
      h'.jails.lookup (jailName name) = some jail' ∧ jail'.running = true ∧
        jail'.vnet = jail.vnet ∧ Limited record jail') : Visited pool name record h h' := by
  refine ⟨fun hnone => ?_, fun jail' hjail' => ?_, fun jail' hjail' => ?_, fun jail' hjail' => ?_⟩
  · cases hnone.symm.trans hjail
  · cases hjail.symm.trans hjail'
    exact hexited
  · cases hjail.symm.trans hjail'
    exact hleft
  · cases hjail.symm.trans hjail'
    exact hrunning

/-- So it is if others have been gone over before and after. -/
theorem Visited.of_sameOn {pool name : String} {record : JailRecord} {h h₂ h₃ h' : Host Text}
    (hv : Visited pool name record h₂ h₃) (hbefore : SameOn (.ofJail pool name record) h h₂)
    (hafter : SameOn (.ofJail pool name record) h₃ h') : Visited pool name record h h' := by
  have hthere : h₂.jails.lookup (jailName name) = h.jails.lookup (jailName name) :=
    hbefore.jails _ rfl
  have hleft : h'.jails.lookup (jailName name) = h₃.jails.lookup (jailName name) :=
    hafter.jails _ rfl
  obtain ⟨habsent, hexited, hnever, hruns⟩ := hv
  rw [hthere] at habsent hexited hnever hruns
  refine ⟨fun hnone => (habsent hnone).of_sameOn hafter, fun jail hjail hdown hpolicy => ?_,
    fun jail hjail hdown hpolicy => ?_, fun jail hjail hup => ?_⟩
  · obtain ⟨jail', hjail', hrunning, hvnet, hwired⟩ := hexited jail hjail hdown hpolicy
    exact ⟨jail', hleft.trans hjail', hrunning, hvnet, hwired.of_sameOn hafter⟩
  · exact (hbefore.trans (hnever jail hjail hdown hpolicy)).trans hafter
  · obtain ⟨jail', hjail', hrest⟩ := hruns jail hjail hup
    exact ⟨jail', hleft.trans hjail', hrest⟩

section Visit

variable [Ipnet] {allows : {ρ : Type} → Outcome Text → Op Text ρ → Reconciler → Host Text → Prop}
variable {pool name : String} {record : JailRecord} {now : ℕ} {r : Reconciler}
variable {t : Trace (Op Text) (Host Text)}

omit [Ipnet] in
/-- An attempt is put on the books. -/
theorem wp_recordAttempt_of_lookup {b : BackoffState} (hb : r.backoff.lookup name = some b)
    {O W : Type} {out : Outside (Op Text) O Reconciler W}
    {Q : Except ReconcileError Unit → Reconciler → Trace (Op Text) W → Prop}
    {X : Stop → Trace (Op Text) W → Prop} {t : Trace (Op Text) W}
    (hQ : Q (.ok ()) { r with backoff := r.backoff.insert name (b.recordAttempt now) } t) :
    (Reconciler.recordAttempt name now : Method Text Unit).wp out Q X r t := by
  rw [Reconciler.recordAttempt, Proc.bind_eq, Proc.wp_get_bind, hb]
  exact hQ

/-- A rollback runs to its end. -/
theorem wp_rollbackProvision_ends :
    (Reconciler.rollbackProvision pool name record : Method Text Unit).wp (Host.under allows)
      (fun _ _ _ => True) (fun x _ => x = .crashed) r t := by
  refine Proc.wp_mono (fun _ _ _ _ => trivial) ?_ (Proc.wp_of_makes (I := fun _ => True)
    (R := fun _ _ => True) (N := False) (fun _ _ _ _ _ _ _ => ⟨trivial, trivial⟩)
    (Reconciler.keeps_rollbackProvision (K := fun _ => True) r trivial) trivial t.since_self)
  rintro x t' ⟨hx | hx, -⟩
  · exact hx
  · exact hx.elim

/-- What there is to do is done, or a call fails, or there is no image. -/
theorem wp_perform (hvalid : Validated record)
    (hfits : (taskFor name record t.world).isAttempt = true →
      GatewayFits record.spec.spec.network.address) {b : BackoffState}
    (hb : r.backoff.lookup name = some b) :
    ((taskFor name record t.world).perform pool name record now : Method Text Unit).wp
      (Host.under allows)
      (fun result _ t' => (∃ e, result = .error e ∧
          ((t.world.jails.lookup (jailName name) = none →
            baseDatasetPath pool record.spec.spec.image ∈ t.world.zfs.datasets) →
              Fallible allows)) ∨
        result = .ok () ∧ Visited pool name record t.world t'.world)
      (fun x _ => x = .crashed) r t := by
  rw [taskFor] at hfits ⊢
  cases hjail : t.world.jails.lookup (jailName name) with
  | none =>
    rw [hjail] at hfits
    dsimp only [Task.perform]
    rw [Reconciler.reconcileAbsent, Proc.bind_eq, Proc.wp_bind, Proc.wp_attempt]
    refine Proc.wp_mono ?_ (fun _ _ hx => hx) (wp_provision hvalid (hfits rfl))
    rintro result _ t₁ ⟨rfl, -, hresult⟩
    dsimp only
    rw [Proc.bind_eq, Proc.wp_bind]
    refine wp_recordAttempt_of_lookup hb ?_
    rcases hresult with ⟨e, rfl, hfallible⟩ | ⟨rfl, hprovisioned⟩
    · refine Proc.wp_seq wp_rollbackProvision_ends ?_ ?_ fun _ _ hx => hx
      · exact fun _ _ _ _ => Or.inl ⟨e, rfl, fun himage => hfallible (himage rfl)⟩
      · exact fun e' _ _ _ => Or.inl ⟨e', rfl, fun himage => hfallible (himage rfl)⟩
    · exact Or.inr ⟨rfl, .of_absent hjail hprovisioned⟩
  | some jail =>
    rw [hjail] at hfits
    dsimp only at hfits ⊢
    split
    · rename_i hup
      refine Proc.wp_mono ?_ (fun _ _ hx => hx) (wp_setLimits hvalid (by rw [hjail]; rfl))
      rintro result _ t₁ ⟨rfl, hadjusted, -, hresult⟩
      obtain ⟨jail₁, hjail₁, hrunning, hvnet, -⟩ := hadjusted.jail jail hjail
      rcases hresult with ⟨e, rfl, hfallible, -⟩ | ⟨rfl, jail₂, hjail₂, hlimited⟩
      · exact Or.inl ⟨e, rfl, fun _ => hfallible⟩
      cases hjail₁.symm.trans hjail₂
      refine Or.inr ⟨rfl, .of_there hjail (fun hdown => ?_) (fun hdown => ?_) fun _ => ?_⟩
      · cases hup.symm.trans hdown
      · cases hup.symm.trans hdown
      · exact ⟨jail₁, hjail₁, hrunning.trans hup, hvnet, hlimited⟩
    · rename_i hdown
      split
      · rename_i hnever
        exact Or.inr ⟨rfl, .of_there hjail (fun _ hpolicy => absurd hnever hpolicy)
          (fun _ _ => .refl _) fun hup => absurd hup hdown⟩
      · rename_i hpolicy
        rw [if_neg hdown, if_neg hpolicy] at hfits
        dsimp only [Task.perform]
        rw [Proc.bind_eq, Proc.wp_bind, Proc.wp_attempt]
        refine Proc.wp_mono ?_ (fun _ _ hx => hx) (wp_restart hvalid (hfits rfl) hjail)
        rintro result _ t₁ ⟨rfl, -, -, jail₁, hjail₁, hvnet, hresult⟩
        dsimp only
        rw [Proc.bind_eq, Proc.wp_bind]
        refine wp_recordAttempt_of_lookup hb ?_
        rcases hresult with ⟨e, rfl, hfallible, -⟩ | ⟨rfl, hrunning, hwired⟩
        · exact Or.inl ⟨e, rfl, fun _ => hfallible⟩
        exact Or.inr ⟨rfl, .of_there hjail (fun _ _ => ⟨jail₁, hjail₁, hrunning, hvnet, hwired⟩)
          (fun _ hnever => absurd hnever hpolicy) fun hup => absurd hup hdown⟩

/-- **A visit** of a jail whose cooldown is over. -/
theorem wp_visit (hrecord : r.records.lookup name = some record) (hvalid : Validated record)
    (hfits : (taskFor name record t.world).isAttempt = true →
      GatewayFits record.spec.spec.network.address)
    (hready : (r.cooldown name).canRetry now = true) :
    (Reconciler.reconcileOne name now : Method Text Unit).wp (Host.under allows)
      (fun result _ t' => (∃ e, result = .error e ∧
          ((t.world.jails.lookup (jailName name) = none →
            baseDatasetPath r.pool record.spec.spec.image ∈ t.world.zfs.datasets) →
              Fallible allows)) ∨
        result = .ok () ∧ Visited r.pool name record t.world t'.world)
      (fun x _ => x = .crashed) r t := by
  rw [Reconciler.reconcileOne]
  simp only [Proc.bind_eq]
  rw [Proc.wp_get_bind, hrecord, Checked.expect, Proc.ofChecked, Proc.ret_bind,
    Reconciler.reconcileRecord_eq]
  refine Proc.wp_seq (wp_visitTask hready) ?_ ?_ fun _ _ hx => hx
  · rintro task r₁ t₁ ⟨hb, ht₁, hresult⟩
    rcases hresult with ⟨e, he, -⟩ | ⟨⟨rfl⟩⟩
    · cases he
    rw [← ht₁] at hfits ⊢
    exact wp_perform hvalid hfits hb
  · rintro e r₁ t₁ ⟨-, -, hresult⟩
    rcases hresult with ⟨e', -, hfallible⟩ | he
    · exact Or.inl ⟨e, rfl, fun _ => hfallible⟩
    · cases he

end Visit

/-! ## No gateway -/

section Fruitless

variable [Ipnet] {pool name : String} {record : JailRecord} {α β : Type}

/-- A method that never returns a value, whatever is answered. -/
def Fruitless (m : Method Text α) : Prop :=
  ∀ r t, m.wp Host.outside (fun result _ _ => ∀ a, result ≠ .ok a) (fun _ _ => True) r t

theorem Fruitless.bind {m : Method Text α} (hm : Fruitless m) (f : α → Method Text β) :
    Fruitless (m.bind f) := by
  intro r t
  refine Proc.wp_seq (hm r t) ?_ ?_ fun _ _ hx => hx
  · exact fun a _ _ ha => absurd rfl (ha a)
  · intro e _ _ _ b hb
    cases hb

theorem Fruitless.after (m : Method Text α) {f : α → Method Text β}
    (hf : ∀ a, Fruitless (f a)) : Fruitless (m.bind f) := by
  intro r t
  refine Proc.wp_seq (Proc.wp_of_invariant (I := fun _ => True) (fun _ _ _ => id) trivial) ?_ ?_
    fun _ _ _ => trivial
  · exact fun a r' t' _ => hf a r' t'
  · intro e _ _ _ b hb
    cases hb

/-- No epair is attached under an address without a gateway. -/
theorem fruitless_attachJail {jail bridge epair address : String} (hnot : ¬ GatewayFits address) :
    Fruitless (Reconciler.attachJail jail bridge epair address : Method Text Unit) := by
  intro r t
  rw [Reconciler.attachJail]
  simp only [Proc.bind_eq]
  refine Proc.wp_ask_bind.2 ⟨trivial, fun x _ => ?_⟩
  have hanswer : ∀ u, (Host.call x (.attachJail jail bridge epair address) t.world).1 ≠
      .ok (.ok u) := by
    intro u hok
    cases hfails : x.fails with
    | some m =>
      simp only [Host.call, hfails] at hok
      cases hok
    | none =>
      simp only [Host.call, hfails, Host.attachJail] at hok
      split at hok
      · cases hgateway : bridgeGateway address with
        | ok gateway => exact hnot (exists_bridgeGateway_iff.1 ⟨gateway, hgateway⟩)
        | error p =>
          rw [hgateway] at hok
          cases hok
      · cases hok
  change (Proc.bind (Proc.ofChecked (Host.call x (.attachJail jail bridge epair address)
    t.world).1) _).wp _ _ _ _ _
  cases hcall : (Host.call x (.attachJail jail bridge epair address) t.world).1 with
  | error p => trivial
  | ok result =>
    cases result with
    | ok u => exact absurd hcall (hanswer u)
    | error e =>
      intro u hu
      cases hu

/-- **Nothing is started** under such an address. -/
theorem fruitless_perform (hnot : ¬ GatewayFits record.spec.spec.network.address) {task : Task}
    (hattempt : task.isAttempt = true) (now : ℕ) :
    Fruitless (task.perform pool name record now : Method Text Unit) := by
  have hconfigure : Fruitless (Reconciler.configureNetworkingAndLimits name record :
      Method Text Unit) :=
    .after _ fun _ => (fruitless_attachJail hnot).bind _
  have hend : ∀ {m : Method Text Unit} {f : Except ReconcileError Unit → Method Text Unit},
      Fruitless m → (∀ e, Fruitless (f (.error e))) → Fruitless (m.attempt.bind f) := by
    intro m f hm hf r t
    rw [Proc.wp_bind, Proc.wp_attempt]
    refine Proc.wp_mono ?_ (fun _ _ hx => hx) (hm r t)
    rintro (e | u) r' t' hr'
    · exact hf e r' t'
    · exact absurd rfl (hr' u)
  have hfail : ∀ e, Fruitless (Proc.fail e : Method Text Unit) := by
    intro e r t u hu
    cases hu
  cases task with
  | provision =>
    refine hend (.after _ fun _ => .after _ fun _ => .after _ fun _ => .after _ fun _ =>
      hconfigure.bind _) fun e => .after _ fun _ => .after _ fun _ => hfail e
  | restart => exact hend (hconfigure.bind _) fun e => .after _ fun _ => hfail e
  | limit => cases hattempt
  | leave => cases hattempt

variable {choices : ℕ → Option (Outcome Text)} {name : String} {now : ℕ} {r r' : Reconciler}
variable {t t' : Trace (Op Text) (Host Text)}

/-- A visit that would start a jail under such an address does not return
`Ok`. -/
theorem run_ne_ok_of_not_fits (hrecord : r.records.lookup name = some record)
    (hready : (r.cooldown name).canRetry now = true)
    (hattempt : (taskFor name record t.world).isAttempt = true)
    (hnot : ¬ GatewayFits record.spec.spec.network.address) :
    (Reconciler.reconcileOne name now).run Host.outside choices r t ≠
      (.returned (.ok ()) r', t') := by
  intro hrun
  have hvisit : Ended.Meets _ _
      ((Reconciler.visitTask name record now).run Host.outside choices r t) :=
    Host.meets_of_wp (wp_visitTask hready)
  rw [Reconciler.reconcileOne_eq hrecord, Proc.run_bind_eq] at hrun
  cases htask : (Reconciler.visitTask name record now).run Host.outside choices r t with
  | mk ending t₁ =>
    rw [htask] at hrun hvisit
    cases ending with
    | stopped x => cases hrun
    | returned result r₁ =>
      cases result with
      | error e => cases hrun
      | ok task =>
        obtain ⟨-, -, ⟨e, he, -⟩ | ⟨⟨rfl⟩⟩⟩ := hvisit
        · cases he
        have hperform : Ended.Meets _ _ (((taskFor name record t.world).perform r.pool name record
            now).run Host.outside choices r₁ t₁) :=
          Host.meets_of_wp (fruitless_perform hnot hattempt now r₁ t₁)
        dsimp only at hrun
        rw [hrun] at hperform
        exact hperform () rfl

/-- **A visit that returns `Ok`**, whatever has failed elsewhere. -/
theorem visited_of_ok (hrecord : r.records.lookup name = some record) (hvalid : Validated record)
    (hready : (r.cooldown name).canRetry now = true)
    (hrun : (Reconciler.reconcileOne name now).run Host.outside choices r t =
      (.returned (.ok ()) r', t')) : Visited r.pool name record t.world t'.world := by
  by_cases hfits : (taskFor name record t.world).isAttempt = true →
      GatewayFits record.spec.spec.network.address
  · have hmeets : Ended.Meets _ _
        ((Reconciler.reconcileOne name now).run Host.outside choices r t) :=
      Host.meets_of_wp (wp_visit hrecord hvalid hfits hready)
    rw [hrun] at hmeets
    rcases hmeets with ⟨e, he, -⟩ | ⟨-, hvisited⟩
    · cases he
    · exact hvisited
  · obtain ⟨hattempt, hnot⟩ := not_forall.1 hfits
    exact absurd hrun (run_ne_ok_of_not_fits hrecord hready hattempt hnot)

end Fruitless

end Node

end Keel
