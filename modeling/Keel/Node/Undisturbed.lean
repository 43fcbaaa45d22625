import Keel.Node.Helpers.Apart
import Keel.Node.Helpers.Ledger
/-!
# A pass disturbs no jail that is there

A pass over a jail that exists calls on it gently: it looks, sets limits,
attaches, and starts the command of a jail that is not running, whose
policy is not `Never` and whose cooldown is over. What the pass tears down
is of jails it has found absent, and no jail's parts are another's. Where
every jail runs, a pass sets limits and does nothing else.
-/

namespace Keel

namespace Node

open Agent (JailRecord)

variable {Text : Type}

/-! ## A jail that is there -/

/-- A call that takes nothing of a jail away and does not set it up anew;
a start of its command is one that is `due`. -/
def Op.Respects (pool name : String) (record : JailRecord) (due : Prop) :
    {ρ : Type} → Op Text ρ → Prop
  | _, .create jail _ _ => jail ≠ jailName name
  | _, .startCommand jail _ => jail = jailName name → due
  | _, .destroy jail => jail ≠ jailName name
  | _, .destroyDataset dataset => dataset ≠ jailDatasetPath pool name
  | _, .detachJail epair => epair ≠ epairBaseName record.epairOrdinal
  | _, .unmount target => ∀ v ∈ record.spec.spec.volumes,
      target ≠ mountTarget (jailRootfsPath pool name) v.mountPath
  | _, _ => True

/-- What there was of a jail is still there. -/
structure Undisturbed (pool name : String) (record : JailRecord) (h h' : Host Text) : Prop where
  jail : (h.jails.lookup (jailName name)).isSome → (h'.jails.lookup (jailName name)).isSome
  dataset : jailDatasetPath pool name ∈ h.zfs.datasets →
    jailDatasetPath pool name ∈ h'.zfs.datasets
  mounts : ∀ v ∈ record.spec.spec.volumes,
    mountTarget (jailRootfsPath pool name) v.mountPath ∈ h.mounts →
    mountTarget (jailRootfsPath pool name) v.mountPath ∈ h'.mounts
  epair : (h.net.attachments.lookup (epairBaseName record.epairOrdinal)).isSome →
    (h'.net.attachments.lookup (epairBaseName record.epairOrdinal)).isSome

/-- When the command of a jail may be started. -/
def Due (r : Reconciler) (h : Host Text) (name : String) (record : JailRecord) (now : ℕ) : Prop :=
  h.isRunning (jailName name) = false ∧ record.spec.spec.restartPolicy ≠ .never ∧
    (r.cooldown name).canRetry now = true

section Respects

variable {pool name : String} {record : JailRecord} {due : Prop}

theorem Undisturbed.refl (h : Host Text) : Undisturbed pool name record h h :=
  ⟨id, id, fun _ _ => id, id⟩

theorem Undisturbed.trans {h h' h'' : Host Text} (h₁ : Undisturbed pool name record h h')
    (h₂ : Undisturbed pool name record h' h'') : Undisturbed pool name record h h'' :=
  ⟨h₂.jail ∘ h₁.jail, h₂.dataset ∘ h₁.dataset, fun v hv => h₂.mounts v hv ∘ h₁.mounts v hv,
    h₂.epair ∘ h₁.epair⟩

/-- A jail whose entry is changed is still there. -/
theorem Undisturbed.withJail (h : Host Text) (jail : String) (f : FakeJail → FakeJail) :
    Undisturbed pool name record h (h.withJail jail f).2 := by
  have hjail := h.lookup_withJail jail f (jailName name)
  obtain ⟨jails, hjails⟩ := h.withJail_eq jail f
  rw [hjails] at hjail ⊢
  refine ⟨fun hsome => ?_, id, fun _ _ => id, id⟩
  rw [hjail]
  split
  · rw [Option.isSome_map]
    exact hsome
  · exact hsome

/-- **One call** that respects a jail leaves what there is of it. -/
theorem Op.Respects.undisturbed [Ipnet] {ρ : Type} {c : Op Text ρ}
    (hc : c.Respects pool name record due) (x : Outcome Text) (h : Host Text) :
    Undisturbed pool name record h (Host.call x c h).2 := by
  rcases Host.call_snd x c h with heq | heq
  · rw [heq]
    exact .refl h
  rw [heq]
  cases c with
  | create jail rootfs vnet =>
    refine ⟨fun hsome => ?_, id, fun _ _ => id, id⟩
    change ((h.jails.insert jail _).lookup (jailName name)).isSome
    rw [Table.lookup_insert_eq, if_neg (Ne.symm hc)]
    exact hsome
  | startCommand jail command => exact .withJail h jail _
  | setResourceLimits jail pcpuPercent memoryBytes => exact .withJail h jail _
  | removeResourceLimits jail => exact .withJail h jail _
  | destroy jail =>
    have hjail := h.lookup_destroy jail (jailName name)
    obtain ⟨jails, hjails⟩ := h.destroy_eq jail
    rw [Op.effect]
    rw [hjails] at hjail ⊢
    refine ⟨fun hsome => ?_, id, fun _ _ => id, id⟩
    rw [hjail, if_neg (Ne.symm hc)]
    exact hsome
  | cloneFromBase base target =>
    exact ⟨id, fun hmem => h.mem_datasets_cloneFromBase hmem, fun _ _ => id, id⟩
  | createVolume dataset quota =>
    exact ⟨id, fun hmem => Finset.mem_insert_of_mem hmem, fun _ _ => id, id⟩
  | destroyDataset dataset =>
    have hdataset := h.mem_datasets_destroyDataset (Ne.symm hc)
    obtain ⟨zfs, files, hidden, hzfs⟩ := h.destroyDataset_eq dataset
    rw [Op.effect]
    rw [hzfs] at hdataset ⊢
    exact ⟨id, hdataset.2, fun _ _ => id, id⟩
  | attachJail jail bridge epair address =>
    have hattached := h.lookup_attachJail jail bridge epair address
      (epairBaseName record.epairOrdinal)
    obtain ⟨net, hnet⟩ := h.attachJail_eq jail bridge epair address
    rw [Op.effect]
    rw [hnet] at hattached ⊢
    refine ⟨id, id, fun _ _ => id, fun hsome => ?_⟩
    rcases hattached with hsame | ⟨-, hnew⟩
    · rw [hsame]
      exact hsome
    · rw [hnew]
      rfl
  | detachJail epair =>
    refine ⟨id, id, fun _ _ => id, fun hsome => ?_⟩
    change ((h.net.attachments.erase epair).lookup _).isSome
    rw [Table.lookup_erase_eq, if_neg (Ne.symm hc)]
    exact hsome
  | mountNullfs source target =>
    exact ⟨id, id, fun _ _ hmem => Finset.mem_insert_of_mem hmem, id⟩
  | unmount target =>
    have hmounts : ∀ target', target' ∈ (h.unmount target).2.mounts ↔ _ :=
      fun target' => h.mem_unmount
    obtain ⟨mounts, hunmount⟩ := h.unmount_eq target
    rw [Op.effect]
    rw [hunmount] at hmounts ⊢
    exact ⟨id, id, fun v hv hmem => (hmounts _).2 ⟨(hc v hv).symm, hmem⟩, id⟩
  | writeFile d file content =>
    obtain ⟨stateDir, ingressDir, hdir, -⟩ :=
      h.setDir_eq d ((h.dir d).insert file (x.written content))
    rw [Op.effect, hdir]
    exact ⟨id, id, fun _ _ => id, id⟩
  | renameFile d old new =>
    obtain ⟨stateDir, ingressDir, hdir, -⟩ := h.renameFile_eq d old new
    rw [Op.effect, hdir]
    exact ⟨id, id, fun _ _ => id, id⟩
  | removeFile d file =>
    obtain ⟨stateDir, ingressDir, hdir, -⟩ := h.removeFile_eq d file
    rw [Op.effect, hdir]
    exact ⟨id, id, fun _ _ => id, id⟩
  | _ => exact ⟨id, id, fun _ _ => id, id⟩

theorem Op.OfFile.respects {dir : Dir} {file : String} {ρ : Type} {c : Op Text ρ}
    (h : c.OfFile dir file) : c.Respects pool name record due := by
  cases c <;> first | exact trivial | exact h.elim

theorem Op.OfIngress.respects {ρ : Type} {c : Op Text ρ} (h : c.OfIngress) :
    c.Respects pool name record due := by
  cases c <;> first | exact trivial | exact h.elim

/-- A gentle call respects its jail, where a start is due. -/
theorem Op.Gentle.respects {ρ : Type} {c : Op Text ρ} (h : c.Gentle name record) (hdue : due) :
    c.Respects pool name record due := by
  cases c <;> first | exact trivial | exact h.elim | exact fun _ => hdue

theorem Op.SetsLimits.respects {ρ : Type} {c : Op Text ρ} (h : c.SetsLimits name record) :
    c.Respects pool name record due := by
  cases c <;> first | exact trivial | exact h.elim

/-- **Jails are apart.** A call for one jail respects every other. -/
theorem Op.OfJail.respects {other : String} {record' : JailRecord} (hne : other ≠ name)
    (hother : validateName other = .ok ()) (hname : validateName name = .ok ())
    (hordinal : record'.epairOrdinal ≠ record.epairOrdinal) {ρ : Type} {c : Op Text ρ}
    (h : c.OfJail pool other record') : c.Respects pool name record due := by
  have hjail : ∀ {jail : String}, jail = jailName other → jail ≠ jailName name := by
    rintro _ rfl heq
    exact hne (jailName_inj heq)
  cases c with
  | create jail rootfs vnet => exact hjail h
  | startCommand jail command => exact fun heq => absurd heq (hjail h)
  | destroy jail => exact hjail h
  | destroyDataset dataset =>
    intro heq
    exact hne (jailDatasetPath_inj (Eq.trans (Eq.symm h) heq))
  | detachJail epair =>
    intro heq
    exact hordinal (epairBaseName_inj (Eq.trans (Eq.symm h) heq))
  | unmount target =>
    obtain ⟨v', -, rfl⟩ := h
    exact fun v _ => mountTarget_ne hother hname hne v'.mountPath v.mountPath
  | _ => exact trivial

/-! ## A pass over it -/

section Pass

variable [Ipnet] {allows : {ρ : Type} → Outcome Text → Op Text ρ → Reconciler → Host Text → Prop}
variable {r : Reconciler} {t : Trace (Op Text) (Host Text)} {before : List (Σ ρ : Type, Op Text ρ)}
variable {now : ℕ}

/-- A method that makes no call but respectful ones. -/
theorem wp_of_respects {α : Type} {m : Method Text α} {K : Reconciler → Prop} {h : Host Text}
    (hm : m.Keeps (Op.Respects pool name record due) (fun _ _ => True) True K) (hr : K r)
    (hh : Undisturbed pool name record h t.world)
    (hsince : t.Since before (Op.Respects pool name record due)) :
    m.wp (Host.under allows)
      (fun _ r' t' => K r' ∧ Undisturbed pool name record h t'.world ∧
        t'.Since before (Op.Respects pool name record due))
      (fun _ t' => Undisturbed pool name record h t'.world ∧
        t'.Since before (Op.Respects pool name record due)) r t := by
  refine Proc.wp_mono (fun _ _ _ hq => hq) (fun _ _ hx => hx.2)
    (Proc.wp_of_makes (I := Undisturbed pool name record h) ?_ (hm r hr) hh hsince)
  intro ρ x c s w hc hw _
  exact ⟨trivial, hw.trans (hc.undisturbed x w)⟩

/-- **The pass comes to a jail that is there.** -/
theorem wp_reconcileOne_existing (hrecord : r.records.lookup name = some record)
    (hjail : (t.world.jails.lookup (jailName name)).isSome)
    (hsince : t.Since before (Op.Respects pool name record (Due r t.world name record now))) :
    (Reconciler.reconcileOne name now : Method Text Unit).wp (Host.under allows)
      (fun _ r' t' => r.AgreesBut name r' ∧ Undisturbed pool name record t.world t'.world ∧
        t'.Since before (Op.Respects pool name record (Due r t.world name record now)))
      (fun _ t' => Undisturbed pool name record t.world t'.world ∧
        t'.Since before (Op.Respects pool name record (Due r t.world name record now))) r t := by
  rw [Reconciler.reconcileOne]
  simp only [Proc.bind_eq]
  rw [Proc.wp_get_bind, hrecord, Checked.expect, Proc.ofChecked, Proc.ret_bind,
    Reconciler.reconcileRecord]
  simp only [Proc.bind_eq]
  rw [Proc.wp_bind]
  refine wp_checkCooldown fun r' hr' hcooldown => ?_
  have hcooling : r.Cooling name r' :=
    ⟨hr', Table.mem_of_lookup hcooldown⟩
  dsimp only
  by_cases hready : (r.cooldown name).canRetry now = true
  · rw [hready, if_pos rfl, Proc.wp_bind]
    have hasked := hsince.push (c := .jailExists (jailName name)) (w := t.world) trivial
    refine wp_tryCall (fun _ => rfl) ⟨.refl _, hsince⟩ (fun _ _ _ _ => ⟨hr', .refl _, hasked⟩) ?_
      fun e he => by cases he
    rintro there hthere
    cases hthere
    dsimp only
    rw [hjail, if_pos rfl, Reconciler.reconcileExisting]
    simp only [Proc.bind_eq]
    rw [Proc.wp_bind]
    have hasked' := hasked.push (c := .isRunning (jailName name)) (w := t.world) trivial
    refine wp_tryCall (fun _ => rfl) ⟨.refl _, hasked⟩ (fun _ _ _ _ => ⟨hr', .refl _, hasked'⟩) ?_
      fun e he => by cases he
    rintro running hrunning
    cases hrunning
    dsimp only [Trace.push_world]
    split
    · refine wp_of_respects (K := r.AgreesBut name) ?_ hr' (.refl _) hasked'
      exact Reconciler.keeps_setLimits.imp (fun _ => Op.SetsLimits.respects) fun _ _ _ h => h
    · rename_i hidle
      split
      · exact ⟨hr', .refl _, hasked'⟩
      · rename_i hpolicy
        have hdue : Due r t.world name record now := ⟨Bool.eq_false_iff.2 hidle, hpolicy, hready⟩
        refine Proc.wp_mono (fun _ _ _ hq => ⟨hq.1.agrees, hq.2⟩) (fun _ _ hx => hx)
          (wp_of_respects (K := r.Cooling name) ?_ hcooling (.refl _) hasked')
        refine Proc.keeps_bind (Proc.keeps_attempt ?_) fun _ => ?_
        · exact (Reconciler.keeps_restart fun _ _ _ _ _ => trivial).imp
            (fun _ hc => hc.respects hdue) fun _ _ _ h => h
        · exact Proc.keeps_bind Reconciler.keeps_recordAttempt fun _ => Proc.keeps_ofExcept
  · rw [if_neg hready]
    exact ⟨hr', .refl _, hsince⟩

end Pass

/-- The same records, of the same pool. -/
def Reconciler.Keeping (r r' : Reconciler) : Prop := r'.pool = r.pool ∧ r'.records = r.records

/-- A pass over other jails respects one. -/
theorem respects_reconcileAll {r : Reconciler} (hr : r.Apart)
    (hrecord : r.records.lookup name = some record) {names : List String} (hnames : name ∉ names)
    {now : ℕ} : (Reconciler.reconcileAll now names : Method Text _).Keeps
      (Op.Respects r.pool name record due) (fun _ _ => True) True r.Keeping := by
  refine Reconciler.keeps_reconcileAll fun other hother => ?_
  have hne : other ≠ name := by
    rintro rfl
    exact hnames hother
  refine Reconciler.keeps_reconcileOne (fun r₁ record' hr₁ hlookup _ c hc => ?_) ?_
    fun _ _ => ⟨fun _ => trivial, fun _ _ _ _ _ _ _ => trivial⟩
  · rw [hr₁.2] at hlookup
    rw [hr₁.1] at hc
    exact hc.respects hne (hr.valid other record' hlookup) (hr.valid name record hrecord)
      (hr.distinct other name record' record hlookup hrecord hne)
  · intro r₁ r₂ hr₁ hr₂
    exact ⟨hr₂.pool.trans hr₁.1, hr₂.records.trans hr₁.2⟩

section Run

variable [Ipnet] [SerdeYaml Text JailRecord] [SerdeYaml Text IngressRecord]

theorem respects_reconcileIngresses {p : Pass} {K : Reconciler → Prop}
    (hK : ∀ r records nextEpairOrdinal, K r → K { r with records, nextEpairOrdinal })
    (hK' : ∀ r r', K r → r.AgreesOnJails r' → K r') :
    (Reconciler.reconcileIngresses p : Method Text Unit).Keeps
      (Op.Respects pool name record due) (fun _ _ => True) True K := by
  refine Proc.keeps_bind (Proc.keeps_attempt ?_) fun _ => Proc.keeps_bind ?_ fun _ => ?_
  · exact Reconciler.keeps_ensureIngressJail (fun _ => Op.OfFile.respects) hK
  · exact Reconciler.keeps_of_ofIngress (fun _ => Reconciler.keeps_reconcileCerts)
      (fun _ => Op.OfIngress.respects) hK'
  · exact Reconciler.keeps_of_ofIngress (fun _ =>
      Reconciler.keeps_reconcileIngressConfig.imp (fun _ => Reconciler.OfConfig.ofIngress)
        fun _ _ _ h => h) (fun _ => Op.OfIngress.respects) hK'

omit [Ipnet] [SerdeYaml Text JailRecord] [SerdeYaml Text IngressRecord] in
/-- A pass over some jails and then some more. -/
theorem reconcileAll_append (now : ℕ) (names names' : List String) :
    (Reconciler.reconcileAll now (names ++ names') : Method Text _) =
      (Reconciler.reconcileAll now names).bind fun failures =>
        (Reconciler.reconcileAll now names').bind fun failures' =>
          Proc.ret (failures ++ failures') := by
  induction names with
  | nil => exact (Proc.bind_ret _).symm
  | cons name names ih =>
    rw [List.cons_append, Reconciler.reconcileAll, Reconciler.reconcileAll]
    simp only [Proc.bind_eq]
    rw [Proc.bind_assoc]
    refine congrArg _ (funext fun result => ?_)
    rw [ih, Proc.bind_assoc, Proc.bind_assoc]
    refine congrArg _ (funext fun failures => ?_)
    rw [Proc.bind_assoc]
    cases result with
    | ok u => rfl
    | error e => rfl

variable {choices : ℕ → Option (Outcome Text)} {l : Ledger} {r : Reconciler}
variable {t : Trace (Op Text) (Host Text)}

/-- **A pass respects a jail it finds there.** It has served the
ingresses, gone over the jails before it, and comes to it. -/
theorem reconcile_respects (hl : l.Sound Validated) (his : l.Is r t.world) {p : Pass}
    {r₁ : Reconciler} {t₁ : Trace (Op Text) (Host Text)}
    (hserved : (Reconciler.reconcileIngresses p).run Host.outside choices r t =
      (.returned (.ok ()) r₁, t₁)) {earlier later : List String}
    (hnames : p.order.apply r₁.records.keys = earlier ++ name :: later)
    {failures : List (String × ReconcileError)} {r₂ : Reconciler}
    {t₂ : Trace (Op Text) (Host Text)}
    (hreached : (Reconciler.reconcileAll p.now earlier).run Host.outside choices r₁ t₁ =
      (.returned (.ok failures) r₂, t₂))
    (hrecord : r₁.records.lookup name = some record)
    (hjail : (t₂.world.jails.lookup (jailName name)).isSome) :
    Undisturbed r.pool name record t₂.world
        ((Reconciler.reconcile p).run Host.outside choices r t).2.world ∧
      ((Reconciler.reconcile p).run Host.outside choices r t).2.Since t.calls
        (Op.Respects r.pool name record (Due r₂ t₂.world name record p.now)) := by
  let due := Due r₂ t₂.world name record p.now
  -- the records as the pass goes over them
  have hledger : Ended.Meets _ _ ((Reconciler.reconcileIngresses p).run Host.outside choices r t) :=
    Host.meets_of_wp (wp_reconcileIngresses (P := Validated) his p fun _ => admits_validated _ _)
  have hpool : Ended.Meets _ _ ((Reconciler.reconcileIngresses p).run Host.outside choices r t) :=
    Proc.run_of_makes (P := Op.Respects r.pool name record due) (fun _ _ => trivial)
      (respects_reconcileIngresses (K := fun r' => r'.pool = r.pool) (fun _ _ _ h => h)
        (fun _ _ h h' => h'.pool.trans h) r rfl) t.since_self
  rw [hserved] at hledger hpool
  obtain ⟨-, l₁, hmove, his₁⟩ := hledger
  obtain ⟨hpool₁, hsince₁⟩ := hpool
  have hsound := hl.move hmove
  have hapart : r₁.Apart := his₁.apart hsound fun _ ha => ha
  have hnodup : (earlier ++ name :: later).Nodup := by
    rw [← hnames]
    exact p.order.nodup_apply r₁.records.keys_nodup
  obtain ⟨-, hnodup', hdisjoint⟩ := List.nodup_append.1 hnodup
  have hlater : name ∉ later := (List.nodup_cons.1 hnodup').1
  have hearlier : name ∉ earlier := fun hmem => hdisjoint name hmem name List.mem_cons_self rfl
  have hothers : ∀ {names : List String}, name ∉ names →
      (Reconciler.reconcileAll p.now names : Method Text _).Keeps
        (Op.Respects r.pool name record due) (fun _ _ => True) True r₁.Keeping := by
    intro names hnot
    rw [← hpool₁]
    exact respects_reconcileAll hapart hrecord hnot
  -- up to the jail
  have hmeets : Ended.Meets _ _
      ((Reconciler.reconcileAll p.now earlier).run Host.outside choices r₁ t₁) :=
    Proc.run_of_makes (fun _ _ => trivial) (hothers hearlier r₁ ⟨rfl, rfl⟩) hsince₁
  rw [hreached] at hmeets
  obtain ⟨⟨hpool₂, hrecords₂⟩, hsince₂⟩ := hmeets
  -- and from there on
  have hrun : (Reconciler.reconcile p).run Host.outside choices r t =
      ((Reconciler.reconcileAll p.now (name :: later)).bind fun failures' =>
        Proc.ret (failures ++ failures')).run Host.outside choices r₂ t₂ := by
    rw [Reconciler.reconcile, Proc.bind_eq, Proc.run_bind hserved]
    change (Reconciler.reconcileAll p.now (p.order.apply r₁.records.keys)).run _ _ _ _ = _
    rw [hnames, reconcileAll_append, Proc.run_bind hreached]
  have hrest : ((Reconciler.reconcileAll p.now (name :: later)).bind fun failures' =>
      Proc.ret (failures ++ failures')).wp Host.outside
      (fun _ _ t' => Undisturbed r.pool name record t₂.world t'.world ∧
        t'.Since t.calls (Op.Respects r.pool name record due))
      (fun _ t' => Undisturbed r.pool name record t₂.world t'.world ∧
        t'.Since t.calls (Op.Respects r.pool name record due)) r₂ t₂ := by
    rw [Reconciler.reconcileAll]
    simp only [Proc.bind_eq]
    rw [Proc.bind_assoc, Proc.wp_bind, Proc.wp_attempt]
    refine Proc.wp_mono ?_ (fun _ _ hx => hx)
      (wp_reconcileOne_existing (by rw [hrecords₂]; exact hrecord) hjail hsince₂)
    rintro result r₃ t₃ ⟨hr₃, hundisturbed, hsince₃⟩
    dsimp only
    have hkeeping : r₁.Keeping r₃ := ⟨hr₃.pool.trans hpool₂, hr₃.records.trans hrecords₂⟩
    refine Proc.wp_mono (fun _ _ _ hq => hq.2) (fun _ _ hx => hx)
      (wp_of_respects (K := r₁.Keeping) (Proc.keeps_bind (Proc.keeps_bind (hothers hlater) ?_) ?_)
        hkeeping hundisturbed hsince₃)
    · intro failures'
      cases result with
      | ok u => exact Proc.keeps_ret
      | error e => exact Proc.keeps_ret
    · exact fun _ => Proc.keeps_ret
  rw [hrun]
  exact (Host.meets_of_wp hrest).trace
    (P := fun t' => Undisturbed r.pool name record t₂.world t'.world ∧
      t'.Since t.calls (Op.Respects r.pool name record due)) (fun _ _ _ hq => hq) fun _ _ hx => hx

end Run

end Respects

/-! ## Where every jail runs -/

section Quiet

/-- Every record's jail is there, and runs. -/
def AllRunning (r : Reconciler) (h : Host Text) : Prop :=
  ∀ name record, r.records.lookup name = some record →
    ∃ jail, h.jails.lookup (jailName name) = some jail ∧ jail.running = true

/-- A call of a pass over jails that run: it looks, sets the limits of a
spec, or serves ingresses. -/
def Op.Quiet (r : Reconciler) : {ρ : Type} → Op Text ρ → Prop
  | _, .jailExists jail => ∃ name record, r.records.lookup name = some record ∧ jail = jailName name
  | _, .isRunning jail => ∃ name record, r.records.lookup name = some record ∧ jail = jailName name
  | _, .setResourceLimits jail pcpuPercent memoryBytes =>
    ∃ name record, r.records.lookup name = some record ∧ jail = jailName name ∧
      (∃ cores, parseCpuCores record.spec.spec.resources.cpu = .ok cores ∧
        pcpuPercent = coresToPcpuPercent cores) ∧
      parseMemoryBytes record.spec.spec.resources.memory = .ok memoryBytes
  | _, c => c.OfIngress

/-- The machine is the same, but for what serves ingresses and for limits
set to those of a spec. -/
structure OnlyLimits (r : Reconciler) (h h' : Host Text) : Prop where
  zfs : h'.zfs = h.zfs
  net : h'.net = h.net
  mounts : h'.mounts = h.mounts
  stateDir : h'.stateDir = h.stateDir
  jails : ∀ jail, h'.jails.lookup jail = h.jails.lookup jail ∨
    ∃ name record j cores memoryBytes, r.records.lookup name = some record ∧
      jail = jailName name ∧ h.jails.lookup jail = some j ∧
      parseCpuCores record.spec.spec.resources.cpu = .ok cores ∧
      parseMemoryBytes record.spec.spec.resources.memory = .ok memoryBytes ∧
      h'.jails.lookup jail = some { j with
        pcpuPercent := some (coresToPcpuPercent cores), memoryBytes := some memoryBytes }

variable {r : Reconciler} {h h' : Host Text}

theorem OnlyLimits.refl (r : Reconciler) (h : Host Text) : OnlyLimits r h h :=
  ⟨rfl, rfl, rfl, rfl, fun _ => Or.inl rfl⟩

theorem OnlyLimits.allRunning (hlimits : OnlyLimits r h h') (hrunning : AllRunning r h) :
    AllRunning r h' := by
  intro name record hrecord
  obtain ⟨jail, hjail, hruns⟩ := hrunning name record hrecord
  rcases hlimits.jails (jailName name) with hsame | ⟨_, _, j, _, _, _, _, hj, _, _, hnew⟩
  · exact ⟨jail, hsame.trans hjail, hruns⟩
  · cases hj.symm.trans hjail
    exact ⟨_, hnew, hruns⟩

/-- **One call** of a quiet pass sets limits at most. -/
theorem Op.Quiet.onlyLimits [Ipnet] {ρ : Type} {c : Op Text ρ} (hc : c.Quiet r) (x : Outcome Text)
    (hlimits : OnlyLimits r h h') : OnlyLimits r h (Host.call x c h').2 := by
  rcases Host.call_snd x c h' with heq | heq
  · rw [heq]
    exact hlimits
  rw [heq]
  have hingress : ∀ {stateDir ingressDir rootfsFiles hiddenFiles nginxConfig},
      stateDir = h'.stateDir → OnlyLimits r h
        { h' with stateDir, ingressDir, rootfsFiles, hiddenFiles, nginxConfig } := by
    rintro _ _ _ _ _ rfl
    exact ⟨hlimits.zfs, hlimits.net, hlimits.mounts, hlimits.stateDir, hlimits.jails⟩
  have hdir : ∀ {d : Dir}, d = .ingress → d ≠ .state := by
    rintro d rfl hd
    cases hd
  cases c with
  | setResourceLimits jail pcpuPercent memoryBytes =>
    obtain ⟨name, record, hrecord, rfl, ⟨cores, hcores, rfl⟩, hmemory⟩ := hc
    let set := fun j : FakeJail => { j with
      pcpuPercent := some (coresToPcpuPercent cores), memoryBytes := some memoryBytes }
    have hlookup : ∀ jail, (h'.withJail (jailName name) set).2.jails.lookup jail = _ :=
      fun jail => h'.lookup_withJail (jailName name) set jail
    obtain ⟨jails, hjails⟩ := h'.withJail_eq (jailName name) set
    change OnlyLimits r h (h'.withJail (jailName name) set).2
    rw [hjails] at hlookup ⊢
    refine ⟨hlimits.zfs, hlimits.net, hlimits.mounts, hlimits.stateDir, fun jail => ?_⟩
    by_cases hjail : jail = jailName name
    · rw [hlookup, if_pos hjail]
      -- limits set once or twice, the last ones count
      rcases hlimits.jails jail with hsame | ⟨_, _, j, _, _, _, _, hj, _, _, hnew⟩
      · cases hj : h.jails.lookup jail with
        | none =>
          rw [hsame, hj]
          exact Or.inl rfl
        | some j =>
          rw [hsame, hj]
          exact Or.inr ⟨name, record, j, cores, memoryBytes, hrecord, hjail, rfl, hcores, hmemory, rfl⟩
      · rw [hnew]
        exact Or.inr ⟨name, record, j, cores, memoryBytes, hrecord, hjail, hj, hcores, hmemory, rfl⟩
    · rw [hlookup, if_neg hjail]
      exact hlimits.jails jail
  | writeFile d file content =>
    obtain ⟨stateDir, ingressDir, heq, hstate⟩ :=
      h'.setDir_eq d ((h'.dir d).insert file (x.written content))
    rw [Op.effect, heq]
    exact hingress (hstate .state (hdir hc))
  | renameFile d old new =>
    obtain ⟨stateDir, ingressDir, heq, hstate⟩ := h'.renameFile_eq d old new
    rw [Op.effect, heq]
    exact hingress (hstate .state (hdir hc))
  | removeFile d file =>
    obtain ⟨stateDir, ingressDir, heq, hstate⟩ := h'.removeFile_eq d file
    rw [Op.effect, heq]
    exact hingress (hstate .state (hdir hc))
  | writeRootfsFile path content => exact hingress rfl
  | writeConfig jail config => exact hingress rfl
  | jailExists jail => exact hingress rfl
  | isRunning jail => exact hingress rfl
  | createDirAll d => exact hingress rfl
  | isFile path => exact hingress rfl
  | createRootfsDir path => exact hingress rfl
  | requestCertificate host email => exact hingress rfl
  | testConfig jail => exact hingress rfl
  | reload jail => exact hingress rfl
  | instantNow => exact hingress rfl
  | serviceVip service => exact hingress rfl
  | _ => exact hc.elim

/-- The answers where every jail runs. -/
def Op.SaysUp : {ρ : Type} → Op Text ρ → ρ → Prop
  | _, .jailExists _, answer => answer ≠ .ok false
  | _, .isRunning _, answer => answer ≠ .ok false
  | _, _, _ => True

theorem Op.Quiet.saysUp [Ipnet] {ρ : Type} {c : Op Text ρ} (hc : c.Quiet r) (x : Outcome Text)
    (hrunning : AllRunning r h) : c.SaysUp (Host.call x c h).1 := by
  cases c with
  | jailExists jail =>
    obtain ⟨name, record, hrecord, rfl⟩ := hc
    obtain ⟨jail, hjail, -⟩ := hrunning name record hrecord
    rw [Host.call, hjail, Outcome.unlessFails]
    cases x.fails with
    | some m =>
      intro hanswer
      cases hanswer
    | none =>
      intro hanswer
      cases hanswer
  | isRunning jail =>
    obtain ⟨name, record, hrecord, rfl⟩ := hc
    obtain ⟨jail, hjail, hruns⟩ := hrunning name record hrecord
    rw [Host.call, Host.isRunning, hjail, Outcome.unlessFails, Option.any_some, hruns]
    cases x.fails with
    | some m =>
      intro hanswer
      cases hanswer
    | none =>
      intro hanswer
      cases hanswer
  | _ => trivial

/-- The same records, and every jail's cooldown as it was. -/
def Reconciler.Calm (r r' : Reconciler) : Prop :=
  r'.records = r.records ∧ ∀ name, r'.cooldown name = r.cooldown name

theorem quiet_checkCooldown {P : {ρ : Type} → Op Text ρ → Prop}
    {R : {ρ : Type} → Op Text ρ → ρ → Prop} {name : String} {now : ℕ} :
    (Reconciler.checkCooldown name now : Method Text Bool).Keeps P R True r.Calm := by
  refine Proc.keeps_memory fun r₁ hr₁ => ?_
  cases hlookup : r₁.backoff.lookup name with
  | some b => exact hr₁
  | none =>
    refine ⟨hr₁.1, fun other => ?_⟩
    rw [← hr₁.2 other, Reconciler.cooldown, Reconciler.cooldown, Table.lookup_insert_eq]
    split
    · rename_i heq
      rw [heq, hlookup]
      rfl
    · rfl

theorem quiet_reconcileOne {name : String} {now : ℕ} :
    (Reconciler.reconcileOne name now : Method Text Unit).Keeps (Op.Quiet r) Op.SaysUp True r.Calm := by
  refine Proc.keeps_get_bind fun r₁ hr₁ => Proc.keeps_expect_bind (fun _ => trivial)
    fun record hrecord => ?_
  rw [hr₁.1] at hrecord
  refine Proc.keeps_bind quiet_checkCooldown fun ready => Proc.keeps_ite ?_ Proc.keeps_ret
  refine Proc.keeps_tryCall_bind ⟨name, record, hrecord, rfl⟩ fun there hthere => ?_
  cases there with
  | false => exact absurd rfl hthere
  | true =>
    refine Proc.keeps_tryCall_bind ⟨name, record, hrecord, rfl⟩ fun running hrunning => ?_
    cases running with
    | false => exact absurd rfl hrunning
    | true =>
      refine Reconciler.keeps_setLimits.imp (fun c hc => ?_) fun _ _ _ h => h
      cases c with
      | setResourceLimits jail pcpuPercent memoryBytes => exact ⟨name, record, hrecord, hc⟩
      | _ => exact hc.elim

theorem Op.OfIngress.quiet {ρ : Type} {c : Op Text ρ} (hc : c.OfIngress) : c.Quiet r := by
  cases c <;> first | exact hc | exact hc.elim

variable [SerdeYaml Text JailRecord] [SerdeYaml Text IngressRecord] [Ipnet]

/-- **A pass where every jail runs**, and no ingress jail is missing. -/
theorem quiet_reconcile {p : Pass}
    (hingress : r.ingressRecords.entries = [] ∨ "ingress" ∈ r.records) :
    (Reconciler.reconcile p : Method Text _).Makes (Op.Quiet r) Op.SaysUp True (fun _ r' => r.Calm r')
      r := by
  have hserving : ∀ {m : Method Text Unit},
      (∀ r₀, m.Keeps Op.OfIngress Op.SaysUp True (Reconciler.AgreesOnJails r₀)) →
        m.Keeps (Op.Quiet r) Op.SaysUp True r.Calm := by
    intro m hm
    refine Reconciler.keeps_of_ofIngress hm (fun _ => Op.OfIngress.quiet) fun r₁ r₂ hr₁ hr₂ => ?_
    refine ⟨hr₂.records.trans hr₁.1, fun name => ?_⟩
    rw [← hr₁.2 name, Reconciler.cooldown, Reconciler.cooldown, hr₂.backoff]
  have hrest : ((Reconciler.reconcileCerts p).bind fun _ => (Reconciler.reconcileIngressConfig p).bind
      fun _ => (Proc.get : Method Text Reconciler).bind fun r =>
        Reconciler.reconcileAll p.now (p.order.apply r.records.keys)).Keeps
      (Op.Quiet r) Op.SaysUp True r.Calm := by
    refine Proc.keeps_bind (hserving fun _ => Reconciler.keeps_reconcileCerts) fun _ => ?_
    refine Proc.keeps_bind (hserving fun _ => Reconciler.keeps_reconcileIngressConfig.imp
      (fun _ => Reconciler.OfConfig.ofIngress) fun _ _ _ h => h) fun _ => ?_
    exact Proc.keeps_get_bind fun _ _ => Reconciler.keeps_reconcileAll fun _ _ => quiet_reconcileOne
  rw [Reconciler.reconcile, Reconciler.reconcileIngresses]
  simp only [Proc.bind_eq]
  rw [Proc.bind_assoc, Proc.makes_bind, Proc.makes_attempt]
  refine Proc.makes_mono ?_ (Reconciler.makes_ensureIngressJail hingress)
  rintro result r₁ rfl
  dsimp only
  rw [Proc.bind_assoc]
  exact hrest r₁ ⟨rfl, fun _ => rfl⟩

end Quiet

/-! ## Every pass of an agent -/

section Agent

variable [Ipnet] [SerdeYaml Text JailRecord] [SerdeYaml Text IngressRecord]

/-- **A pass disturbs no jail that is there.** At any point of an agent's
life, whatever becomes of the calls of a pass: of a jail that exists when
the pass comes to it, the pass takes nothing away, sets nothing up anew,
and starts its command only when that is due. Where every record's jail
runs, and no ingress jail is missing, the pass looks and sets limits, and
changes nothing else of a jail or its cooldown. -/
theorem reconcile_undisturbing (pool : String) (choices : ℕ → Option (Outcome Text))
    (machine : Host Text) (hmachine : ∀ file content,
      machine.stateDir.lookup file = some content → extension file ≠ some "yaml")
    (events : List (Event Exit)) {r : Reconciler} {t : Trace (Op Text) (Host Text)}
    (hlife : machine.life pool choices events = ⟨some r, t⟩) (p : Pass)
    {ending : Ended Reconciler ReconcileError (List (String × ReconcileError))}
    {t' : Trace (Op Text) (Host Text)}
    (hrun : (Reconciler.reconcile p).run Host.outside choices r t = (ending, t')) :
    (∀ r₁ t₁ earlier name later failures r₂ t₂ record,
      (Reconciler.reconcileIngresses p).run Host.outside choices r t =
        (.returned (.ok ()) r₁, t₁) →
      p.order.apply r₁.records.keys = earlier ++ name :: later →
      (Reconciler.reconcileAll p.now earlier).run Host.outside choices r₁ t₁ =
        (.returned (.ok failures) r₂, t₂) →
      r₁.records.lookup name = some record →
      (t₂.world.jails.lookup (jailName name)).isSome →
      Undisturbed r.pool name record t₂.world t'.world ∧
      t'.Since t.calls (Op.Respects r.pool name record (Due r₂ t₂.world name record p.now))) ∧
    (AllRunning r t.world → r.ingressRecords.entries = [] ∨ "ingress" ∈ r.records →
      OnlyLimits r t.world t'.world ∧ t'.Since t.calls (Op.Quiet r) ∧
      ∀ result r', ending = .returned result r' →
        r'.records = r.records ∧ ∀ name, r'.cooldown name = r.cooldown name) := by
  obtain ⟨l, hl⟩ := Host.life_tracks pool choices hmachine events
  rw [hlife] at hl
  constructor
  · intro r₁ t₁ earlier name later failures r₂ t₂ record hserved hnames hreached hrecord hjail
    have hrespects := reconcile_respects hl.sound (hl.memory r rfl) hserved hnames hreached hrecord
      hjail
    rw [hrun] at hrespects
    exact hrespects
  · intro hrunning hingress
    have hwp : (Reconciler.reconcile p : Method Text _).wp Host.outside _ _ r t :=
      Proc.wp_of_makes (I := OnlyLimits r t.world)
        (fun x c s w hc hw _ => ⟨hc.saysUp x (hw.allRunning hrunning), hc.onlyLimits x hw⟩)
        (quiet_reconcile hingress) (.refl r _) (Trace.since_self _)
    have hmeets : Ended.Meets _ _ ((Reconciler.reconcile p).run Host.outside choices r t) :=
      Host.meets_of_wp hwp
    rw [hrun] at hmeets
    refine ⟨hmeets.trace (fun _ _ _ hq => hq.2.1) fun _ _ hx => hx.2.1,
      hmeets.trace (fun _ _ _ hq => hq.2.2) fun _ _ hx => hx.2.2, fun result r' hresult => ?_⟩
    rw [hresult] at hmeets
    exact hmeets.1

end Agent

section

open Agent.Sample (jail)
open scoped Agent.Sample Node.Sample

/-- A jail that runs, and a pass over it in which setting limits fails. -/
theorem reconcile_undisturbing_sample :
    ∃ r t, Sample.host.life "zroot" (Sample.failing 28)
        [.start, .operation (.apply (jail "db-0" none)), .operation (.reconcile (Sample.pass 0))] =
          ⟨some r, t⟩ ∧ "db-0" ∈ r.records ∧ AllRunning r t.world ∧ ∃ ending t',
      (Reconciler.reconcile (Sample.pass (10 ^ 12))).run Host.outside (Sample.failing 28) r t =
          (ending, t') ∧ OnlyLimits r t.world t'.world ∧ t'.Since t.calls (Op.Quiet r) := by
  have hstate : ((Sample.host.life "zroot" (Sample.failing 28)
      [.start, .operation (.apply (jail "db-0" none)),
        .operation (.reconcile (Sample.pass 0))]).memory.map fun r =>
          (r.records.keys, r.ingressRecords.keys)) = some (["db-0"], []) ∧
      ((Sample.host.life "zroot" (Sample.failing 28)
        [.start, .operation (.apply (jail "db-0" none)),
          .operation (.reconcile (Sample.pass 0))]).trace.world.jails.lookup
            "keel-db-0").any FakeJail.running = true := by decide +kernel
  obtain ⟨hmemory, hjail⟩ := hstate
  obtain ⟨r, hr, hkeys⟩ := Option.map_eq_some_iff.1 hmemory
  rw [Prod.mk.injEq] at hkeys
  have hthere : ∀ name, name ∈ r.records ↔ name = "db-0" := by
    intro name
    rw [AList.mem_keys, hkeys.1, List.mem_singleton]
  have hrunning : AllRunning r (Sample.host.life "zroot" (Sample.failing 28)
      [.start, .operation (.apply (jail "db-0" none)),
        .operation (.reconcile (Sample.pass 0))]).trace.world := by
    intro name record hrecord
    have hname := (hthere name).1 (Table.mem_of_lookup hrecord)
    rw [hname]
    exact (Option.any_eq_true _ _).1 hjail
  have hquiet := (reconcile_undisturbing "zroot" (Sample.failing 28) Sample.host
    (fun file content hfile => by cases hfile)
    [.start, .operation (.apply (jail "db-0" none)), .operation (.reconcile (Sample.pass 0))]
    (by rw [← hr]) (Sample.pass (10 ^ 12)) (Prod.mk.eta).symm).2 hrunning
    (Or.inl (List.map_eq_nil_iff.1 hkeys.2))
  exact ⟨r, _, by rw [← hr], (hthere "db-0").2 rfl, hrunning, _, _, rfl, hquiet.1, hquiet.2.1⟩

end

end Node

end Keel
