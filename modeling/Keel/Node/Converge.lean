import Keel.Node.Helpers.BringUp
import Keel.Node.Helpers.Parts
/-!
# A clean pass brings every jail up

A pass looks at whether a jail exists and whether it runs, and at nothing
else. What it finds must not mislead it: a jail that is there has all its
volumes, and one that runs, or is never started again, has been set up
(`Healthy`). A call that fails can break this in one way only: a jail that
was to be destroyed is left standing without its epair or its volumes
(`Op.Tolerated`). Where no such call fails, one pass without failures
brings every jail to its record.
-/

namespace Keel

namespace Node

open Agent (JailRecord)

variable {Text : Type}

/-! ## What does not mislead a pass -/

/-- What a pass takes for a jail in order is one. -/
def Healthy (pool name : String) (record : JailRecord) (h : Host Text) : Prop :=
  ∀ jail, h.jails.lookup (jailName name) = some jail → Mounted pool name record h ∧
    (jail.running = true ∨ record.spec.spec.restartPolicy = .never → Wired name record h jail)

/-- A jail that a restart puts in order, if there is one. -/
def Restartable (pool name : String) (record : JailRecord) (h : Host Text) : Prop :=
  ∀ jail, h.jails.lookup (jailName name) = some jail → Mounted pool name record h ∧
    jail.running = false ∧ record.spec.spec.restartPolicy ≠ .never

/-- **The calls that may fail.** Destroying a jail fails only where a
restart puts the jail in order; and while a jail is there, its volumes are
not unmounted. -/
def Op.Tolerated : {ρ : Type} → Outcome Text → Op Text ρ → Reconciler → Host Text → Prop
  | _, x, .destroy jail, r, h => x.fails ≠ none → ∀ name record,
      r.records.lookup name = some record → jail = jailName name →
      Restartable r.pool name record h
  | _, x, .unmount target, r, h => x.fails = none → ∀ name record,
      r.records.lookup name = some record →
      target ∈ (Parts.ofJail r.pool name record).targets →
      h.jails.lookup (jailName name) = none
  | _, _, _, _, _ => True

/-- Only calls that may fail are considered to. -/
def Tolerant (allows : {ρ : Type} → Outcome Text → Op Text ρ → Reconciler → Host Text → Prop) :
    Prop :=
  ∀ {ρ : Type} (x : Outcome Text) (c : Op Text ρ) (r : Reconciler) (h : Host Text),
    allows x c r h → c.Tolerated x r h

section Healthy

variable {pool name : String} {record : JailRecord} {h h' : Host Text}

theorem Restartable.healthy (hr : Restartable pool name record h) :
    Healthy pool name record h := by
  intro jail hjail
  obtain ⟨hmounted, hstopped, hpolicy⟩ := hr jail hjail
  refine ⟨hmounted, ?_⟩
  rintro (hrunning | hnever)
  · rw [hstopped] at hrunning
    cases hrunning
  · exact absurd hnever hpolicy

theorem restartable_of_absent (hnone : h.jails.lookup (jailName name) = none) :
    Restartable pool name record h := by
  intro jail hjail
  cases hnone.symm.trans hjail

end Healthy

/-! ## Tearing down -/

section TearDown

variable [Ipnet] {allows : {ρ : Type} → Outcome Text → Op Text ρ → Reconciler → Host Text → Prop}
variable {name : String} {record : JailRecord} {r : Reconciler} {t : Trace (Op Text) (Host Text)}

omit [Ipnet] in
/-- A call of a teardown, once the jail itself is seen to. -/
def Op.Clears : {ρ : Type} → Op Text ρ → Prop
  | _, .unmount _ => True
  | _, .destroyDataset _ => True
  | _, .removeResourceLimits _ => True
  | _, _ => False

/-- It starts no jail, and creates none. -/
theorem Op.Clears.running {ρ : Type} {c : Op Text ρ} (hc : c.Clears) (x : Outcome Text)
    (h : Host Text) {jail : String} {entry : FakeJail}
    (hentry : (Host.call x c h).2.jails.lookup jail = some entry) :
    ∃ old, h.jails.lookup jail = some old ∧ entry.running = old.running := by
  rcases Host.call_snd x c h with heq | heq
  · rw [heq] at hentry
    exact ⟨entry, hentry, rfl⟩
  rw [heq] at hentry
  cases c with
  | unmount target =>
    obtain ⟨mounts, hmounts⟩ := h.unmount_eq target
    rw [Op.effect, hmounts] at hentry
    exact ⟨entry, hentry, rfl⟩
  | destroyDataset dataset =>
    obtain ⟨zfs, files, hidden, hzfs⟩ := h.destroyDataset_eq dataset
    rw [Op.effect, hzfs] at hentry
    exact ⟨entry, hentry, rfl⟩
  | removeResourceLimits jail' =>
    rw [Op.effect, Host.lookup_withJail] at hentry
    split at hentry
    · obtain ⟨old, hold, rfl⟩ := Option.map_eq_some_iff.1 hentry
      exact ⟨old, hold, rfl⟩
    · exact ⟨entry, hentry, rfl⟩
  | _ => exact hc.elim

/-- A jail that is gone stays so. -/
theorem Op.Clears.absent {ρ : Type} {c : Op Text ρ} (hc : c.Clears) (x : Outcome Text)
    {h : Host Text} {jail : String} (hnone : h.jails.lookup jail = none) :
    (Host.call x c h).2.jails.lookup jail = none := by
  rw [Option.eq_none_iff_forall_ne_some]
  intro entry hentry
  obtain ⟨old, hold, -⟩ := hc.running x h hentry
  cases hnone.symm.trans hold

omit [Ipnet] in
/-- A call that clears, and unmounts nothing. -/
def Op.Discards : {ρ : Type} → Op Text ρ → Prop
  | _, .destroyDataset _ => True
  | _, .removeResourceLimits _ => True
  | _, _ => False

omit [Ipnet] in
theorem Op.Discards.clears {ρ : Type} {c : Op Text ρ} (hc : c.Discards) : c.Clears := by
  cases c with
  | destroyDataset dataset => trivial
  | removeResourceLimits jail => trivial
  | _ => exact hc.elim

theorem Op.Discards.mounts {ρ : Type} {c : Op Text ρ} (hc : c.Discards) (x : Outcome Text)
    (h : Host Text) : (Host.call x c h).2.mounts = h.mounts := by
  rcases Host.call_snd x c h with heq | heq
  · rw [heq]
  rw [heq]
  cases c with
  | destroyDataset dataset =>
    obtain ⟨zfs, files, hidden, hzfs⟩ := h.destroyDataset_eq dataset
    rw [Op.effect, hzfs]
  | removeResourceLimits jail =>
    obtain ⟨jails, hjails⟩ := h.withJail_eq jail
      fun jail => { jail with pcpuPercent := none, memoryBytes := none }
    rw [Op.effect, hjails]
  | _ => exact hc.elim

/-- A jail that a restart puts in order stays one, with its mounts. -/
theorem Restartable.call {pool : String} {ρ : Type} {c : Op Text ρ} (hc : c.Discards)
    {x : Outcome Text} {h : Host Text} (hr : Restartable pool name record h) :
    Restartable pool name record (Host.call x c h).2 := by
  intro jail hjail
  obtain ⟨old, hold, hrunning⟩ := hc.clears.running x h hjail
  obtain ⟨hmounted, hstopped, hpolicy⟩ := hr old hold
  refine ⟨fun v hv => ?_, hrunning.trans hstopped, hpolicy⟩
  rw [hc.mounts x h]
  exact hmounted v hv

/-- An unmount that works is one of a jail that is gone. -/
theorem wp_rollbackUnmounts (hallows : Tolerant allows)
    (hrecord : r.records.lookup name = some record)
    (hr : Restartable r.pool name record t.world) :
    (Proc.forEach (fun volume =>
      (Proc.ask (.unmount (mountTarget (jailRootfsPath r.pool name) volume.mountPath))).bind
        fun _ => Proc.ret ()) record.spec.spec.volumes : Method Text Unit).wp (Host.under allows)
      (fun _ r' t' => r' = r ∧ Restartable r.pool name record t'.world)
      (fun x _ => x = .crashed) r t := by
  refine Proc.wp_mono ?_ (fun _ _ hx => hx) (Proc.wp_forEach
    (E := fun _ r' t' => r' = r ∧ Restartable r.pool name record t'.world)
    (fun rest r' t' => (∀ v ∈ rest, v ∈ record.spec.spec.volumes) ∧ r' = r ∧
      Restartable r.pool name record t'.world) ?_ record.spec.spec.volumes ⟨fun _ => id, rfl, hr⟩)
  · rintro (e | u) r' t' hr'
    · exact hr'
    · exact hr'.2
  · rintro v rest r₁ t₁ ⟨hrest, hr₁, hr⟩
    have hrest' : ∀ w ∈ rest, w ∈ record.spec.spec.volumes :=
      fun w hw => hrest w (List.mem_cons_of_mem v hw)
    refine wp_ask_bind (fun _ => rfl) rfl (fun _ _ _ _ => ⟨hrest', hr₁, hr⟩) fun x hx hworks => ?_
    have hgone : t₁.world.jails.lookup (jailName name) = none :=
      hallows x _ r₁ t₁.world hx hworks name record (by rw [hr₁]; exact hrecord)
        (by rw [hr₁]; exact ⟨v, hrest v List.mem_cons_self, rfl⟩)
    obtain ⟨mounts, hmounts⟩ := t₁.world.unmount_eq
      (mountTarget (jailRootfsPath r.pool name) v.mountPath)
    rw [hmounts]
    exact ⟨hrest', hr₁, restartable_of_absent hgone⟩

/-- **A rollback** leaves no jail, or one that a restart puts in order. -/
theorem wp_rollbackProvision (hallows : Tolerant allows)
    (hrecord : r.records.lookup name = some record) :
    (Reconciler.rollbackProvision r.pool name record : Method Text Unit).wp (Host.under allows)
      (fun _ r' t' => r' = r ∧ Restartable r.pool name record t'.world)
      (fun x _ => x = .crashed) r t := by
  rw [Reconciler.rollbackProvision]
  simp only [Proc.bind_eq, Proc.pure_eq]
  refine Proc.wp_ask_bind.2 ⟨rfl, fun x _ => ?_⟩
  generalize (Host.under allows).after x (.detachJail _) t = t₁
  refine Proc.wp_ask_bind.2 ⟨rfl, fun x hx => ?_⟩
  have hr : Restartable r.pool name record
      ((Host.under allows).after x (.destroy (jailName name)) t₁).world := by
    change Restartable r.pool name record (x.unlessFails t₁.world JailError.commandFailed
      (t₁.world.destroy (jailName name))).2
    rw [Outcome.unlessFails]
    cases hfails : x.fails with
    | some m =>
      refine hallows x _ r t₁.world hx ?_ name record hrecord rfl
      rw [hfails]
      exact Option.some_ne_none m
    | none =>
      refine restartable_of_absent ?_
      rw [Host.lookup_destroy, if_pos rfl]
  generalize (Host.under allows).after x (.destroy (jailName name)) t₁ = t₂ at hr ⊢
  refine Proc.wp_seq (wp_rollbackUnmounts hallows hrecord hr) ?_ (fun _ _ _ h => h) fun _ _ hx => hx
  rintro _ r₃ t₃ ⟨rfl, hr₃⟩
  refine Proc.wp_ask_bind.2 ⟨rfl, fun x _ => ?_⟩
  have hr₄ : Restartable r₃.pool name record
      ((Host.under allows).after x (.destroyDataset (jailDatasetPath r₃.pool name)) t₃).world :=
    Restartable.call (c := .destroyDataset (jailDatasetPath r₃.pool name)) (by trivial) hr₃
  generalize (Host.under allows).after x (.destroyDataset _) t₃ = t₄ at hr₄ ⊢
  refine Proc.wp_ask_bind.2 ⟨rfl, fun x _ => ⟨rfl, ?_⟩⟩
  exact Restartable.call (c := .removeResourceLimits (jailName name)) (by trivial) hr₄

/-- **A teardown** that works leaves no jail; one that fails has either
not begun or leaves what a pass can do with. -/
theorem wp_tearDownJail (hallows : Tolerant allows)
    (hrecord : r.records.lookup name = some record)
    (hhealthy : Healthy r.pool name record t.world) :
    (Reconciler.tearDownJail r.pool name record : Method Text Unit).wp (Host.under allows)
      (fun result r' t' => r' = r ∧ Healthy r.pool name record t'.world ∧
        (result = .ok () → t'.world.jails.lookup (jailName name) = none))
      (fun x _ => x = .crashed) r t := by
  -- once the jail is gone it stays so
  have hrest : ∀ t : Trace (Op Text) (Host Text), t.world.jails.lookup (jailName name) = none →
      ((Reconciler.unmountVolumes (jailRootfsPath r.pool name) record.spec.spec.volumes).bind
        fun _ => (tearDown zfsNotFound .zfs (.destroyDataset (jailDatasetPath r.pool name))).bind
          fun _ => tearDown JailError.isNotFound .jail (.removeResourceLimits (jailName name)) :
            Method Text Unit).wp (Host.under allows)
        (fun result r' t' => r' = r ∧ Healthy r.pool name record t'.world ∧
          (result = .ok () → t'.world.jails.lookup (jailName name) = none))
        (fun x _ => x = .crashed) r t := by
    intro t hgone
    have hkeeps : ((Reconciler.unmountVolumes (jailRootfsPath r.pool name)
        record.spec.spec.volumes).bind
        fun _ => (tearDown zfsNotFound .zfs (.destroyDataset (jailDatasetPath r.pool name))).bind
          fun _ => tearDown JailError.isNotFound .jail (.removeResourceLimits (jailName name)) :
            Method Text Unit).Keeps Op.Clears (fun _ _ => True) False (fun r' => r' = r) :=
      Proc.keeps_bind (Proc.keeps_forEach fun _ _ => Reconciler.keeps_tearDown trivial) fun _ =>
        Proc.keeps_bind (Reconciler.keeps_tearDown trivial) fun _ =>
          Reconciler.keeps_tearDown trivial
    refine Proc.wp_mono ?_ ?_ (Proc.wp_of_makes
      (I := fun w : Host Text => w.jails.lookup (jailName name) = none)
      (fun x _ _ _ hc hw _ => ⟨trivial, hc.absent x hw⟩) (hkeeps r rfl) hgone t.since_self)
    · rintro result r' t' ⟨hr', hgone', -⟩
      exact ⟨hr', (restartable_of_absent hgone').healthy, fun _ => hgone'⟩
    · rintro x t' ⟨hx | hx, -⟩
      · exact hx
      · exact hx.elim
  rw [Reconciler.tearDownJail]
  simp only [Proc.bind_eq]
  rw [Proc.wp_bind]
  refine wp_tryCall (fun _ => rfl) rfl ?_ ?_ fun e he => by cases he
  · exact fun x m _ _ => ⟨rfl, hhealthy, fun he => by cases he⟩
  intro _ _
  dsimp only
  rw [Proc.wp_bind, tearDown, Proc.bind_eq]
  refine wp_ask_bind (fun _ => rfl) rfl ?_ ?_
  · intro x m hx hfails
    refine ⟨rfl, (hallows x _ r _ hx ?_ name record hrecord rfl).healthy, fun he => by cases he⟩
    rw [hfails]
    exact Option.some_ne_none m
  · intro x _ _
    have hgone : ∀ h : Host Text, (h.destroy (jailName name)).2.jails.lookup (jailName name) = none :=
      fun h => by rw [Host.lookup_destroy, if_pos rfl]
    have hanswer : ∀ h : Host Text, (h.destroy (jailName name)).1 = .ok () ∨
        (h.destroy (jailName name)).1 = .error (.notFound (jailName name)) := by
      intro h
      rw [Host.destroy]
      split
      · exact Or.inr rfl
      · exact Or.inl rfl
    rcases hanswer _ with hok | hnot
    · rw [hok]
      exact hrest _ (hgone _)
    · rw [hnot]
      exact hrest _ (hgone _)

end TearDown

/-! ## A pass over one jail -/

section One

variable [Ipnet] {allows : {ρ : Type} → Outcome Text → Op Text ρ → Reconciler → Host Text → Prop}
variable {name : String} {record : JailRecord} {r : Reconciler} {t : Trace (Op Text) (Host Text)}

omit [Ipnet] in
theorem wp_recordAttempt {O W : Type} {out : Outside (Op Text) O Reconciler W} {now : ℕ}
    {Q : Except ReconcileError Unit → Reconciler → Trace (Op Text) W → Prop}
    {X : Stop → Trace (Op Text) W → Prop} {t : Trace (Op Text) W} {r₀ : Reconciler}
    (hr : r₀.Cooling name r) (hQ : ∀ r', r₀.Cooling name r' → Q (.ok ()) r' t) :
    (Reconciler.recordAttempt name now : Method Text Unit).wp out Q X r t := by
  obtain ⟨b, hb⟩ := Table.exists_of_mem hr.cooldown
  rw [Reconciler.recordAttempt, Proc.bind_eq, Proc.wp_get_bind, hb]
  refine hQ _ ⟨hr.agrees.setBackoff fun m hm => AList.lookup_insert_ne hm, ?_⟩
  exact AList.mem_insert _ |>.2 (Or.inl rfl)

/-- A pass over one jail makes no call that may not fail: none fails, and
the image is there, or only some may. -/
def Passable (allows : {ρ : Type} → Outcome Text → Op Text ρ → Reconciler → Host Text → Prop)
    (pool : String) (record : JailRecord) (h : Host Text) : Prop :=
  ¬ Fallible allows ∧ baseDatasetPath pool record.spec.spec.image ∈ h.zfs.datasets ∨
    Tolerant allows

/-- A jail that is not there is provisioned, or what was begun is rolled
back. -/
theorem wp_reconcileAbsent {r₀ : Reconciler} (hallows : Passable allows r₀.pool record t.world)
    (hr : r₀.Cooling name r) (hrecord : r₀.records.lookup name = some record)
    (hsturdy : Sturdy record) {now : ℕ} :
    (Reconciler.reconcileAbsent r₀.pool name record now : Method Text Unit).wp (Host.under allows)
      (fun result r' t' => r₀.AgreesBut name r' ∧ Healthy r₀.pool name record t'.world ∧
        (¬ Fallible allows → baseDatasetPath r₀.pool record.spec.spec.image ∈ t.world.zfs.datasets →
          result = .ok () ∧ Converged r₀.pool name record t'.world ∧
            t.world.zfs.datasets ⊆ t'.world.zfs.datasets))
      (fun x _ => x = .crashed) r t := by
  rw [Reconciler.reconcileAbsent]
  simp only [Proc.bind_eq]
  rw [Proc.wp_bind, Proc.wp_attempt]
  refine Proc.wp_mono ?_ (fun _ _ hx => hx) (wp_provision hsturdy.valid hsturdy.fits)
  rintro result r₁ t₁ ⟨rfl, hdatasets, hresult⟩
  dsimp only
  rw [Proc.wp_bind]
  refine wp_recordAttempt hr fun r₂ hr₂ => ?_
  rcases hresult with ⟨e, rfl, hfallible⟩ |
    ⟨rfl, -, jail, hjail, hrunning, -, hmounted, hwired⟩
  · dsimp only
    rcases hallows with ⟨hclean, hbase⟩ | htolerant
    · exact absurd (hfallible hbase) hclean
    have hrecord₂ : r₂.records.lookup name = some record := by
      rw [hr₂.agrees.records]
      exact hrecord
    rw [← hr₂.agrees.pool]
    refine Proc.wp_seq (wp_rollbackProvision htolerant hrecord₂) ?_ ?_ fun _ _ hx => hx
    · rintro _ r₃ t₃ ⟨rfl, hrestartable⟩
      refine ⟨hr₂.agrees, hrestartable.healthy, fun hclean hbase => ?_⟩
      rw [hr₂.agrees.pool] at hbase
      exact absurd (hfallible hbase) hclean
    · rintro e r₃ t₃ ⟨rfl, hrestartable⟩
      refine ⟨hr₂.agrees, hrestartable.healthy, fun hclean hbase => ?_⟩
      rw [hr₂.agrees.pool] at hbase
      exact absurd (hfallible hbase) hclean
  · refine ⟨hr₂.agrees, fun jail' hjail' => ?_, fun _ _ => ⟨rfl, ⟨jail, hjail, hmounted, hwired,
      Or.inl hrunning⟩, hdatasets⟩⟩
    cases hjail.symm.trans hjail'
    exact ⟨hmounted, fun _ => hwired⟩

/-- A jail that is there has its limits set, or is restarted, or left. -/
theorem wp_reconcileExisting {r₀ : Reconciler} (hr : r₀.Cooling name r) (hsturdy : Sturdy record)
    {jail : FakeJail} (hjail : t.world.jails.lookup (jailName name) = some jail)
    (hhealthy : Healthy r₀.pool name record t.world) {now : ℕ} :
    (Reconciler.reconcileExisting name record now : Method Text Unit).wp (Host.under allows)
      (fun result r' t' => r₀.AgreesBut name r' ∧ Healthy r₀.pool name record t'.world ∧
        (¬ Fallible allows → result = .ok () ∧ Converged r₀.pool name record t'.world ∧
          t.world.zfs.datasets ⊆ t'.world.zfs.datasets))
      (fun x _ => x = .crashed) r t := by
  obtain ⟨hmounted, hwired⟩ := hhealthy jail hjail
  rw [Reconciler.reconcileExisting]
  simp only [Proc.bind_eq]
  rw [Proc.wp_bind]
  refine wp_tryCall (fun _ => rfl) rfl ?_ ?_ fun e he => by cases he
  · exact fun x m hx hfails =>
      ⟨hr.agrees, hhealthy, fun hclean => absurd (fallible_of_fails hx hfails) hclean⟩
  rintro running hrunning
  have hrunning : running = jail.running := by
    cases hrunning
    rw [Host.isRunning, hjail, Option.any_some]
  subst hrunning
  dsimp only [Trace.push_world]
  split
  · rename_i hup
    have hwired := hwired (Or.inl hup)
    refine Proc.wp_mono ?_ (fun _ _ hx => hx) (wp_setLimits hsturdy.valid ?_)
    · rintro result r' t' ⟨rfl, hadjusted, hnet, hresult⟩
      obtain ⟨jail', hjail', hrunning', -, hcommand'⟩ := hadjusted.jail jail hjail
      have hlimited : Limited record jail' := by
        rcases hresult with ⟨e, -, -, hsame⟩ | ⟨-, jail'', hjail'', hlimited⟩
        · rw [hsame] at hjail'
          cases hjail.symm.trans hjail'
          exact hwired.limited
        · cases hjail'.symm.trans hjail''
          exact hlimited
      have hmounted' : Mounted r₀.pool name record t'.world := by
        intro v hv
        rw [hadjusted.mounts]
        exact hmounted v hv
      have hattached' : Attached name record t'.world := by
        rw [Attached, hnet]
        exact hwired.attached
      have hwired' : Wired name record t'.world jail' :=
        ⟨hattached', hlimited, hcommand'.trans hwired.started⟩
      refine ⟨hr.agrees, fun jail'' hjail'' => ?_, fun hclean => ?_⟩
      · cases hjail'.symm.trans hjail''
        exact ⟨hmounted', fun _ => hwired'⟩
      · rcases hresult with ⟨e, -, hfallible, -⟩ | ⟨hok, -⟩
        · exact absurd hfallible hclean
        · refine ⟨hok, ⟨jail', hjail', hmounted', hwired', Or.inl (hrunning'.trans hup)⟩, ?_⟩
          rw [hadjusted.zfs]
          exact fun _ hmem => hmem
    · rw [Trace.push_world, hjail]
      rfl
  · rename_i hdown
    split
    · rename_i hnever
      have hwired := hwired (Or.inr hnever)
      exact ⟨hr.agrees, hhealthy, fun _ => ⟨rfl, ⟨jail, hjail, hmounted, hwired, Or.inr hnever⟩,
        fun _ hmem => hmem⟩⟩
    · rename_i hpolicy
      rw [Proc.wp_bind, Proc.wp_attempt]
      refine Proc.wp_mono ?_ (fun _ _ hx => hx)
        (wp_restart hsturdy.valid hsturdy.fits hjail)
      rintro result r₁ t₁ ⟨rfl, hmounts, hzfs, jail', hjail', -, hresult⟩
      dsimp only
      rw [Proc.wp_bind]
      refine wp_recordAttempt hr fun r₂ hr₂ => ?_
      have hmounted' : Mounted r₀.pool name record t₁.world := by
        intro v hv
        rw [hmounts]
        exact hmounted v hv
      rcases hresult with ⟨e, rfl, hfallible, hrunning'⟩ | ⟨rfl, hrunning', hwired'⟩
      · refine ⟨hr₂.agrees, fun jail'' hjail'' => ⟨hmounted', ?_⟩,
          fun hclean => absurd hfallible hclean⟩
        cases hjail'.symm.trans hjail''
        rintro (hup | hnever)
        · exact absurd (hrunning'.symm.trans hup) hdown
        · exact absurd hnever hpolicy
      · refine ⟨hr₂.agrees, fun jail'' hjail'' => ?_, fun _ => ⟨rfl, ⟨jail', hjail', hmounted',
          hwired', Or.inl hrunning'⟩, ?_⟩⟩
        · cases hjail'.symm.trans hjail''
          exact ⟨hmounted', fun _ => hwired'⟩
        · rw [hzfs]
          exact fun _ hmem => hmem

/-- **A pass over one jail** leaves it healthy, and where nothing fails
and its cooldown is over, as its record says. -/
theorem wp_reconcileOne (hrecord : r.records.lookup name = some record)
    (hallows : Passable allows r.pool record t.world) (hsturdy : Sturdy record)
    (hhealthy : Healthy r.pool name record t.world) {now : ℕ} :
    (Reconciler.reconcileOne name now : Method Text Unit).wp (Host.under allows)
      (fun result r' t' => r.AgreesBut name r' ∧ Healthy r.pool name record t'.world ∧
        (¬ Fallible allows → (r.cooldown name).canRetry now = true →
          baseDatasetPath r.pool record.spec.spec.image ∈ t.world.zfs.datasets →
            result = .ok () ∧ Converged r.pool name record t'.world ∧
              t.world.zfs.datasets ⊆ t'.world.zfs.datasets))
      (fun x _ => x = .crashed) r t := by
  rw [Reconciler.reconcileOne]
  simp only [Proc.bind_eq]
  rw [Proc.wp_get_bind, hrecord, Checked.expect, Proc.ofChecked, Proc.ret_bind,
    Reconciler.reconcileRecord]
  simp only [Proc.bind_eq]
  rw [Proc.wp_bind]
  refine wp_checkCooldown fun r' hr' hcooldown => ?_
  have hcooling : r.Cooling name r' :=
    ⟨hr', Table.mem_of_lookup hcooldown⟩
  dsimp only
  by_cases hready : (r.cooldown name).canRetry now = true
  · rw [hready, if_pos rfl, Proc.wp_bind]
    refine wp_tryCall (fun _ => rfl) rfl ?_ ?_ fun e he => by cases he
    · exact fun x m hx hfails =>
        ⟨hr', hhealthy, fun hclean => absurd (fallible_of_fails hx hfails) hclean⟩
    rintro there hthere
    cases hthere
    dsimp only
    cases hjail : t.world.jails.lookup (jailName name) with
    | some jail =>
      rw [Option.isSome_some, if_pos rfl]
      refine Proc.wp_mono ?_ (fun _ _ hx => hx)
        (wp_reconcileExisting (t := t.push (.jailExists (jailName name)) t.world) hcooling hsturdy
          hjail hhealthy)
      rintro result r₁ t₁ ⟨hr₁, hhealthy₁, hdone⟩
      exact ⟨hr₁, hhealthy₁, fun hclean _ _ => hdone hclean⟩
    | none =>
      rw [Option.isSome_none, if_neg Bool.false_ne_true]
      refine Proc.wp_mono ?_ (fun _ _ hx => hx)
        (wp_reconcileAbsent (t := t.push (.jailExists (jailName name)) t.world) hallows hcooling
          hrecord hsturdy)
      rintro result r₁ t₁ ⟨hr₁, hhealthy₁, hdone⟩
      exact ⟨hr₁, hhealthy₁, fun hclean _ => hdone hclean⟩
  · rw [if_neg hready]
    exact ⟨hr', hhealthy, fun _ hready' => absurd hready' hready⟩

/-- It is about that jail alone. -/
theorem wp_reconcileOne_within (hrecord : r.records.lookup name = some record) {now : ℕ} :
    (Reconciler.reconcileOne name now : Method Text Unit).wp (Host.under allows)
      (fun _ _ t' => SameBut (.ofJail r.pool name record) t.world t'.world) (fun _ _ => True) r t := by
  have hkeeps : (Reconciler.reconcileOne name now : Method Text Unit).Keeps
      (Op.Within (.ofJail r.pool name record)) (fun _ _ => True) True
      (fun r' => r'.pool = r.pool ∧ r'.records = r.records) := by
    refine Reconciler.keeps_reconcileOne (fun r' record' hr' hrecord' _ c hc => ?_) ?_
      fun _ _ => ⟨fun _ => trivial, fun _ _ _ _ _ _ _ => trivial⟩
    · rw [hr'.2, hrecord] at hrecord'
      cases hrecord'
      rw [hr'.1] at hc
      exact hc.within
    · exact fun _ _ hr₁ hr₂ => ⟨hr₂.pool.trans hr₁.1, hr₂.records.trans hr₁.2⟩
  exact Proc.wp_mono (fun _ _ _ hq => hq.2) (fun _ _ _ => trivial)
    (wp_of_within (hkeeps r ⟨rfl, rfl⟩))

end One

/-! ## Apart from the rest -/

section Frame

variable {pool name : String} {record : JailRecord} {a : Parts} {h h' : Host Text}

/-- Some parts are none of a jail's. -/
structure Parts.Misses (a : Parts) (pool name : String) (record : JailRecord) : Prop where
  jail : jailName name ∉ a.jails
  epair : epairBaseName record.epairOrdinal ∉ a.epairs
  targets : ∀ v ∈ record.spec.spec.volumes,
    mountTarget (jailRootfsPath pool name) v.mountPath ∉ a.targets

theorem Parts.none_misses : Parts.none.Misses pool name record :=
  ⟨fun h => h, fun h => h, fun _ _ h => h⟩

/-- Another jail's parts. -/
theorem Reconciler.Apart.misses {r : Reconciler} (hr : r.Apart) {other : String}
    {record' : JailRecord} (hrecord : r.records.lookup name = some record)
    (hother : r.records.lookup other = some record') (hne : other ≠ name) :
    (Parts.ofJail pool other record').Misses pool name record := by
  refine ⟨fun hjail => ?_, fun hepair => ?_, fun v _ htarget => ?_⟩
  · exact hne (jailName_inj hjail).symm
  · exact hr.distinct other name record' record hother hrecord hne (epairBaseName_inj hepair).symm
  · obtain ⟨v', -, heq⟩ := htarget
    exact mountTarget_ne (hr.valid name record hrecord) (hr.valid other record' hother) hne.symm
      v.mountPath v'.mountPath heq

theorem Mounted.of_sameBut (hm : a.Misses pool name record) (hsame : SameBut a h h')
    (hmounted : Mounted pool name record h) : Mounted pool name record h' :=
  fun v hv => (hsame.mounts _ (hm.targets v hv)).2 (hmounted v hv)

theorem Wired.of_sameBut (hm : a.Misses pool name record) (hsame : SameBut a h h')
    {jail : FakeJail} (hwired : Wired name record h jail) : Wired name record h' jail := by
  refine ⟨?_, hwired.limited, hwired.started⟩
  rw [Attached, hsame.epairs _ hm.epair]
  exact hwired.attached

/-- What is done elsewhere leaves a jail healthy. -/
theorem Healthy.of_sameBut (hm : a.Misses pool name record) (hsame : SameBut a h h')
    (hhealthy : Healthy pool name record h) : Healthy pool name record h' := by
  intro jail hjail
  rw [hsame.jails _ hm.jail] at hjail
  obtain ⟨hmounted, hwired⟩ := hhealthy jail hjail
  exact ⟨hmounted.of_sameBut hm hsame, fun hup => (hwired hup).of_sameBut hm hsame⟩

/-- And as its record says. -/
theorem Converged.of_sameBut (hm : a.Misses pool name record) (hsame : SameBut a h h')
    (hconverged : Converged pool name record h) : Converged pool name record h' := by
  obtain ⟨jail, hjail, hmounted, hwired, hup⟩ := hconverged
  refine ⟨jail, ?_, hmounted.of_sameBut hm hsame, hwired.of_sameBut hm hsame, hup⟩
  rw [hsame.jails _ hm.jail]
  exact hjail

/-- **No jail misleads a pass**: those on record are healthy, and there
are no others. -/
structure Upright (r : Reconciler) (h : Host Text) : Prop where
  healthy : ∀ name record, r.records.lookup name = some record → Healthy r.pool name record h
  stray : ∀ name, r.records.lookup name = none → h.jails.lookup (jailName name) = none

/-- What is done for no jail. -/
theorem Upright.of_same {r : Reconciler} (hup : Upright r h) (hsame : SameBut .none h h') :
    Upright r h' := by
  refine ⟨fun name record hrecord => ?_, fun name hnone => ?_⟩
  · exact (hup.healthy name record hrecord).of_sameBut Parts.none_misses hsame
  · rw [hsame.jails _ fun h => h]
    exact hup.stray name hnone

/-- What is done for one jail. -/
theorem Upright.of_sameBut {r r' : Reconciler} (hup : Upright r h) (hr : r.Apart)
    (hpool : r'.pool = r.pool) (hrecords : r'.records = r.records)
    (hrecord : r.records.lookup name = some record)
    (hsame : SameBut (.ofJail r.pool name record) h h')
    (hhealthy : Healthy r.pool name record h') : Upright r' h' := by
  refine ⟨fun other record' hother => ?_, fun other hother => ?_⟩
  · rw [hrecords] at hother
    rw [hpool]
    by_cases heq : other = name
    · subst heq
      cases hrecord.symm.trans hother
      exact hhealthy
    · exact (hup.healthy other record' hother).of_sameBut
        (hr.misses hother hrecord fun h => heq h.symm) hsame
  · rw [hrecords] at hother
    rw [hsame.jails]
    · exact hup.stray other hother
    · intro hjail
      cases jailName_inj hjail
      rw [hrecord] at hother
      cases hother

end Frame

/-! ## A pass -/

section Pass

variable [Ipnet] {allows : {ρ : Type} → Outcome Text → Op Text ρ → Reconciler → Host Text → Prop}
variable {r : Reconciler} {t : Trace (Op Text) (Host Text)} {now : ℕ}

/-- Nothing is in the way of a pass over some jails: no call fails, every
image is there, and the cooldowns are over. -/
structure Ready (allows : {ρ : Type} → Outcome Text → Op Text ρ → Reconciler → Host Text → Prop)
    (r : Reconciler) (h : Host Text) (now : ℕ) (names : List String) : Prop where
  clean : ¬ Fallible allows
  images : ∀ name record, r.records.lookup name = some record →
    baseDatasetPath r.pool record.spec.spec.image ∈ h.zfs.datasets
  cooldowns : ∀ name ∈ names, (r.cooldown name).canRetry now = true

/-- What a pass over some jails comes to. -/
structure Passed (allows : {ρ : Type} → Outcome Text → Op Text ρ → Reconciler → Host Text → Prop)
    (now : ℕ) (names : List String) (r : Reconciler) (h : Host Text)
    (result : Except ReconcileError (List (String × ReconcileError))) (r' : Reconciler)
    (h' : Host Text) : Prop where
  pool : r'.pool = r.pool
  records : r'.records = r.records
  ingressRecords : r'.ingressRecords = r.ingressRecords
  upright : Upright r' h'
  result : Ready allows r h now names → result = .ok []
  converged : Ready allows r h now names → ∀ name ∈ names, ∀ record,
    r.records.lookup name = some record → Converged r.pool name record h'
  others : ∀ name, name ∉ names → ∀ record, r.records.lookup name = some record →
    Converged r.pool name record h → Converged r.pool name record h'

theorem wp_reconcileAll (hr : r.Apart)
    (hsturdy : ∀ name record, r.records.lookup name = some record → Sturdy record)
    {names : List String} (hnames : ∀ name ∈ names, name ∈ r.records) (hnodup : names.Nodup)
    (hallows : Ready allows r t.world now names ∨ Tolerant allows) (hup : Upright r t.world) :
    (Reconciler.reconcileAll now names : Method Text _).wp (Host.under allows)
      (fun result r' t' => Passed allows now names r t.world result r' t'.world)
      (fun x _ => x = .crashed) r t := by
  induction names generalizing r t with
  | nil =>
    exact ⟨rfl, rfl, rfl, hup, fun _ => rfl, fun _ name hname => absurd hname List.not_mem_nil,
      fun _ _ _ _ => id⟩
  | cons name names ih =>
    obtain ⟨hnotin, hnodup⟩ := List.nodup_cons.1 hnodup
    obtain ⟨record, hrecord⟩ := Table.exists_of_mem (hnames name List.mem_cons_self)
    have hone : Passable allows r.pool record t.world :=
      hallows.imp_left fun hready => ⟨hready.clean, hready.images name record hrecord⟩
    rw [Reconciler.reconcileAll]
    simp only [Proc.bind_eq]
    rw [Proc.wp_bind, Proc.wp_attempt]
    refine Proc.wp_mono ?_ (fun _ _ hx => hx.1) (Proc.wp_and
      (wp_reconcileOne hrecord hone (hsturdy name record hrecord)
        (hup.healthy name record hrecord)) (wp_reconcileOne_within hrecord))
    rintro result r₁ t₁ ⟨⟨hr₁, hhealthy, hdone⟩, hsame⟩
    dsimp only
    have hup₁ : Upright r₁ t₁.world :=
      hup.of_sameBut hr hr₁.pool hr₁.records hrecord hsame hhealthy
    have hapart₁ : r₁.Apart := hr.of_records hr₁.records
    have hdone : Ready allows r t.world now (name :: names) → result = .ok () ∧
        Converged r.pool name record t₁.world ∧ Ready allows r₁ t₁.world now names := by
      intro hready
      obtain ⟨hok, hconverged, hdatasets⟩ := hdone hready.clean
        (hready.cooldowns name List.mem_cons_self) (hready.images name record hrecord)
      refine ⟨hok, hconverged, hready.clean, fun m a ha => ?_, fun m hm => ?_⟩
      · rw [hr₁.records] at ha
        rw [hr₁.pool]
        exact hdatasets (hready.images m a ha)
      · have hne : m ≠ name := fun heq => hnotin (heq ▸ hm)
        rw [Reconciler.cooldown, hr₁.backoff m hne]
        exact hready.cooldowns m (List.mem_cons_of_mem name hm)
    -- whatever the rest of the pass comes to
    have hall : ∀ rest result' r₂ h₂, Passed allows now names r₁ t₁.world rest r₂ h₂ →
        (Ready allows r t.world now (name :: names) → result' = .ok []) →
        Passed allows now (name :: names) r t.world result' r₂ h₂ := by
      intro rest result' r₂ h₂ hpassed hresult'
      have hkept : ∀ m, m ∉ names → ∀ a, r.records.lookup m = some a →
          Converged r.pool m a t₁.world → Converged r.pool m a h₂ := by
        intro m hm a ha hconverged
        rw [← hr₁.pool]
        rw [← hr₁.pool] at hconverged
        exact hpassed.others m hm a (by rw [hr₁.records]; exact ha) hconverged
      refine ⟨hpassed.pool.trans hr₁.pool, hpassed.records.trans hr₁.records,
        hpassed.ingressRecords.trans hr₁.ingressRecords, hpassed.upright, hresult',
        fun hready m hm a ha => ?_, fun m hm a ha hconverged => ?_⟩
      · obtain ⟨-, hconverged, hready₁⟩ := hdone hready
        rcases List.mem_cons.1 hm with heq | hm
        · subst heq
          cases hrecord.symm.trans ha
          exact hkept m hnotin record hrecord hconverged
        · rw [← hr₁.pool]
          exact hpassed.converged hready₁ m hm a (by rw [hr₁.records]; exact ha)
      · rw [List.mem_cons, not_or] at hm
        exact hkept m hm.2 a ha
          (hconverged.of_sameBut (hr.misses ha hrecord fun heq => hm.1 heq.symm) hsame)
    refine Proc.wp_seq (ih hapart₁ (by rw [hr₁.records]; exact hsturdy)
      (fun m hm => by rw [hr₁.records]; exact hnames m (List.mem_cons_of_mem name hm)) hnodup
      (hallows.imp_left fun hready => (hdone hready).2.2) hup₁) ?_ ?_ fun _ _ hx => hx
    · rintro failures r₂ t₂ hpassed
      cases result with
      | ok u => exact hall _ _ _ _ hpassed fun hready => hpassed.result (hdone hready).2.2
      | error e =>
        refine hall _ _ _ _ hpassed fun hready => ?_
        cases (hdone hready).1
    · rintro e r₂ t₂ hpassed
      exact hall _ _ _ _ hpassed fun hready => hpassed.result (hdone hready).2.2

variable [SerdeYaml Text JailRecord] [SerdeYaml Text IngressRecord]

/-- **A pass**, while there is no ingress on record. -/
theorem wp_reconcile_passed {p : Pass} (hr : r.Apart) (hingress : NoIngress r)
    (hsturdy : ∀ name record, r.records.lookup name = some record → Sturdy record)
    (hallows : Ready allows r t.world p.now (p.order.apply r.records.keys) ∨ Tolerant allows)
    (hup : Upright r t.world) :
    (Reconciler.reconcile p : Method Text _).wp (Host.under allows)
      (fun result r' t' => ∃ nginxConfig, Passed allows p.now (p.order.apply r.records.keys) r
        { t.world with nginxConfig } result r' t'.world)
      (fun x _ => x = .crashed) r t := by
  rw [Reconciler.reconcile]
  simp only [Proc.bind_eq]
  refine Proc.wp_seq (wp_reconcileIngresses_idle hingress) ?_ ?_ fun _ _ hx => hx
  · rintro _ r₁ t₁ ⟨-, rfl, nginxConfig, ht₁⟩
    rw [Proc.wp_get_bind]
    have hready : ∀ names, Ready allows r₁ t.world p.now names →
        Ready allows r₁ t₁.world p.now names := by
      intro names hready
      rw [ht₁]
      exact ⟨hready.clean, hready.images, hready.cooldowns⟩
    have hall := wp_reconcileAll (t := t₁) hr hsturdy
      (fun name hname => AList.mem_keys.2 (p.order.mem_apply.1 hname))
      (p.order.nodup_apply r₁.records.keys_nodup) (hallows.imp_left (hready _))
      (hup.of_same (by rw [ht₁]; exact ⟨fun _ _ => rfl, fun _ _ => rfl, fun _ _ => Iff.rfl⟩))
    rw [ht₁] at hall
    exact Proc.wp_mono (fun _ _ _ hpassed => ⟨nginxConfig, hpassed⟩) (fun _ _ hx => hx) hall
  · rintro e r₁ t₁ ⟨he, -⟩
    cases he

end Pass

/-! ## What else happens -/

section Others

variable [Ipnet] [SerdeYaml Text JailRecord]
variable {allows : {ρ : Type} → Outcome Text → Op Text ρ → Reconciler → Host Text → Prop}
variable {r : Reconciler} {t : Trace (Op Text) (Host Text)}

/-- What is left upright, with the ingresses there were. -/
def StaysUpright (r r' : Reconciler) (h' : Host Text) : Prop :=
  r'.ingressRecords = r.ingressRecords ∧ Upright r' h'

omit [SerdeYaml Text JailRecord] in
/-- **A delete** leaves the jail healthy, or gone with its record. -/
theorem wp_delete_upright [SerdeYaml Text JailRecord] (hallows : Tolerant allows) (hr : r.Apart)
    (hup : Upright r t.world) {name : String} :
    (Reconciler.delete name : Method Text Unit).wp (Host.under allows)
      (fun _ r' t' => StaysUpright r r' t'.world) (fun _ _ => True) r t := by
  rw [Reconciler.delete]
  simp only [Proc.bind_eq]
  rw [Proc.wp_bind]
  refine wp_find (fun record hrecord => ?_) fun _ => ⟨rfl, hup⟩
  dsimp only
  rw [Proc.wp_get_bind]
  have hwithin : (Reconciler.tearDownJail r.pool name record : Method Text Unit).Keeps
      (Op.Within (.ofJail r.pool name record)) (fun _ _ => True) True (fun r' => r' = r) :=
    Reconciler.keeps_tearDownJail.imp (fun _ hc => hc.within) fun _ _ _ h => h
  refine Proc.wp_seq (Proc.wp_and (wp_tearDownJail hallows hrecord (hup.healthy name record hrecord))
    (wp_of_within (hwithin r rfl))) ?_ ?_ fun _ _ _ => trivial
  · rintro _ r₁ t₁ ⟨⟨rfl, hhealthy, hgone⟩, -, hsame⟩
    have hup₁ : Upright r₁ t₁.world := hup.of_sameBut hr rfl rfl hrecord hsame hhealthy
    have hremove : (store.remove name : Method Text Unit).Keeps (Op.Within .none)
        (fun _ _ => True) True (fun r' => r' = r₁) :=
      Reconciler.keeps_removeYaml.imp (fun _ hc => hc.within) fun _ _ _ h => h
    refine Proc.wp_seq (wp_of_within (hremove r₁ rfl)) ?_ ?_ fun _ _ _ => trivial
    · rintro _ r₂ t₂ ⟨rfl, hsame₂⟩
      have hup₂ : Upright r₂ t₂.world := hup₁.of_same hsame₂
      refine ⟨rfl, fun other record' hother => ?_, fun other hother => ?_⟩
      · change (r₂.records.erase name).lookup other = some record' at hother
        rw [Table.lookup_erase_eq] at hother
        split at hother
        · cases hother
        · exact hup₂.healthy other record' hother
      · change (r₂.records.erase name).lookup other = none at hother
        rw [Table.lookup_erase_eq] at hother
        split at hother
        · rename_i heq
          rw [hsame₂.jails _ fun h => h, heq]
          exact hgone rfl
        · exact hup₂.stray other hother
    · rintro e r₂ t₂ ⟨rfl, hsame₂⟩
      exact ⟨rfl, hup₁.of_same hsame₂⟩
  · rintro e r₁ t₁ ⟨⟨rfl, hhealthy, -⟩, -, hsame⟩
    exact ⟨rfl, hup.of_sameBut hr rfl rfl hrecord hsame hhealthy⟩

/-- **An apply** of a new name: there is no jail of that name. -/
theorem wp_apply_upright (hup : Upright r t.world) {spec : JailSpec}
    (hnew : r.records.lookup spec.metadata.name = none) :
    (Reconciler.apply spec : Method Text Unit).wp (Host.under allows)
      (fun _ r' t' => StaysUpright r r' t'.world) (fun _ _ => True) r t := by
  have hkeeps : (Reconciler.apply spec : Method Text Unit).Keeps (Op.Within .none)
      (fun _ _ => True) True (fun r' => r'.pool = r.pool ∧
        r'.ingressRecords = r.ingressRecords ∧
        ∀ m, m ≠ spec.metadata.name → r'.records.lookup m = r.records.lookup m) := by
    refine Reconciler.keeps_apply (fun _ hc => hc.within) (fun _ _ h => h) ?_
    rintro r' record ⟨hpool, hingress, hothers⟩
    refine ⟨hpool, hingress, fun m hm => ?_⟩
    rw [Table.lookup_insert_eq, if_neg hm]
    exact hothers m hm
  refine Proc.wp_mono ?_ (fun _ _ _ => trivial)
    (wp_of_within (hkeeps r ⟨rfl, rfl, fun _ _ => rfl⟩))
  rintro _ r' t' ⟨⟨hpool, hingress, hothers⟩, hsame⟩
  refine ⟨hingress, fun name record hrecord => ?_, fun name hnone => ?_⟩
  · rw [hpool]
    by_cases heq : name = spec.metadata.name
    · refine (restartable_of_absent ?_).healthy
      rw [hsame.jails _ fun h => h, heq]
      exact hup.stray _ hnew
    · rw [hothers name heq] at hrecord
      exact (hup.healthy name record hrecord).of_sameBut Parts.none_misses hsame
  · rw [hsame.jails _ fun h => h]
    by_cases heq : name = spec.metadata.name
    · rw [heq]
      exact hup.stray _ hnew
    · rw [hothers name heq] at hnone
      exact hup.stray name hnone

omit [Ipnet] [SerdeYaml Text JailRecord] in
/-- **A command that exits** leaves its jail healthy: it is to be
restarted, or was started. -/
theorem Upright.markExited {h : Host Text} (hup : Upright r h) (jail : String) :
    Upright r (h.markExited jail) := by
  have hlookup := h.lookup_withJail jail fun jail => { jail with running := false }
  obtain ⟨jails, hjails⟩ := h.withJail_eq jail fun jail => { jail with running := false }
  rw [Host.markExited]
  rw [hjails] at hlookup ⊢
  refine ⟨fun name record hrecord entry hentry => ?_, fun name hnone => ?_⟩
  · have hentry' := (hlookup (jailName name)).symm.trans hentry
    split at hentry'
    · obtain ⟨old, hold, rfl⟩ := Option.map_eq_some_iff.1 hentry'
      obtain ⟨hmounted, hwired⟩ := hup.healthy name record hrecord old hold
      refine ⟨hmounted, ?_⟩
      rintro (hrunning | hnever)
      · cases hrunning
      · have hwired := hwired (Or.inr hnever)
        exact ⟨hwired.attached, hwired.limited, hwired.started⟩
    · obtain ⟨hmounted, hwired⟩ := hup.healthy name record hrecord entry hentry'
      refine ⟨hmounted, fun hrun => ?_⟩
      have hwired := hwired hrun
      exact ⟨hwired.attached, hwired.limited, hwired.started⟩
  · refine (hlookup (jailName name)).trans ?_
    rw [hup.stray name hnone]
    split <;> rfl

end Others

/-! ## An agent's life -/

/-- What becomes of an agent of jails: a spec is applied, a jail deleted,
a pass made, or the command of a jail exits. -/
inductive Change
  | apply (spec : JailSpec)
  | delete (name : String)
  | pass (p : Pass)
  | exits (jail : String)

def Change.event : Change → Event Exit
  | .apply spec => .operation (.apply spec)
  | .delete name => .operation (.delete name)
  | .pass p => .operation (.reconcile p)
  | .exits jail => .outside (.exits jail)

/-- A spec is applied under a new name. -/
def Change.New (sys : System Text (Host Text)) : Change → Prop
  | .apply spec => ∀ r, sys.memory = some r → r.records.lookup spec.metadata.name = none
  | _ => True

section Life

variable [Ipnet] [SerdeYaml Text JailRecord] [SerdeYaml Text IngressRecord]

/-- The address of a spec has a gateway, and no call that fails is one
that may not. -/
def Change.Benign (choices : ℕ → Option (Outcome Text)) (sys : System Text (Host Text)) :
    Change → Prop
  | .apply spec => Reconciler.validate spec = .ok () → GatewayFits spec.spec.network.address
  | .delete name => ∀ r, sys.memory = some r → (Operation.delete name).method.Allowed
      (Host.under Op.Tolerated) choices r sys.trace
  | .pass p => ∀ r, sys.memory = some r → (Operation.reconcile p).method.Allowed
      (Host.under Op.Tolerated) choices r sys.trace
  | .exits _ => True

/-- An agent whose jails do not mislead a pass. -/
structure System.Upright (sys : System Text (Host Text)) : Prop where
  tracks : ∃ l, sys.Tracks Sturdy l
  upright : ∀ r, sys.memory = some r → NoIngress r ∧ Node.Upright r sys.trace.world

/-- A method whose calls are considered leaves an agent upright. -/
theorem System.upright_of_run
    {allows : {ρ : Type} → Outcome Text → Op Text ρ → Reconciler → Host Text → Prop}
    {sys : System Text (Host Text)} {op : Operation} {pool : String}
    {choices : ℕ → Option (Outcome Text)} {r : Reconciler} (hmemory : sys.memory = some r)
    (hingress : NoIngress r) (hallowed : op.method.Allowed (Host.under allows) choices r sys.trace)
    (hmethod : (op.method : Method Text Unit).wp (Host.under allows)
      (fun _ r' t' => StaysUpright r r' t'.world) (fun _ _ => True) r sys.trace) :
    ∀ r', (sys.step (Host.world pool choices) (.operation op)).memory = some r' → NoIngress r' ∧
      Node.Upright r' (sys.step (Host.world pool choices) (.operation op)).trace.world := by
  have hmeets := Proc.wp_run hmethod hallowed
  rw [Host.run_under] at hmeets
  simp only [System.step, hmemory]
  refine System.of_ended (I := fun sys => ∀ r', sys.memory = some r' → NoIngress r' ∧
    Node.Upright r' sys.trace.world) hmeets ?_ ?_
  · rintro result r' t' ⟨hsame, hup⟩ r'' hr''
    cases hr''
    refine ⟨?_, hup⟩
    rw [NoIngress, hsame]
    exact hingress
  · rintro x t' - r' hr'
    cases hr'

/-- **One change** that is benign leaves an agent upright. -/
theorem System.Upright.step (pool : String) (choices : ℕ → Option (Outcome Text))
    {sys : System Text (Host Text)} (h : sys.Upright) {change : Change} (hnew : change.New sys)
    (hbenign : change.Benign choices sys) :
    (sys.step (Host.world pool choices) change.event).Upright := by
  obtain ⟨l, hl⟩ := h.tracks
  obtain ⟨l', hl', -⟩ := hl.step pool choices change.event
    (fun r spec hr he => by
      cases change with
      | apply spec' =>
        cases he
        exact admits_sturdy fun hvalid _ => hbenign hvalid
      | delete name => cases he
      | pass p => cases he
      | exits jail => cases he)
    (fun _ replicateTo hrecord => hrecord.retarget replicateTo)
    (fun r hr hne => absurd (h.upright r hr).1 hne)
  refine ⟨⟨l', hl'⟩, ?_⟩
  cases hmemory : sys.memory with
  | none =>
    intro r hr
    cases change <;> · simp only [Change.event, System.step, hmemory] at hr; cases hr
  | some r =>
    obtain ⟨hingress, hup⟩ := h.upright r hmemory
    have hapart : r.Apart := (hl.memory r hmemory).apart hl.sound fun _ hrecord => hrecord.valid
    cases change with
    | apply spec =>
      have hallowed : (Operation.apply spec).method.Allowed (Host.under fun _ _ _ _ => True)
          choices r sys.trace := Proc.allowed_of_allows fun _ _ _ _ _ _ _ => trivial
      exact System.upright_of_run hmemory hingress hallowed (wp_apply_upright hup (hnew r hmemory))
    | delete name =>
      exact System.upright_of_run hmemory hingress (hbenign r hmemory)
        (wp_delete_upright (fun _ _ _ _ hx => hx) hapart hup)
    | pass p =>
      have hsturdy : ∀ name record, r.records.lookup name = some record → Sturdy record := by
        intro name record hrecord
        rw [(hl.memory r hmemory).records] at hrecord
        exact hl.sound.record name record hrecord
      refine System.upright_of_run hmemory hingress (hbenign r hmemory) ?_
      refine Proc.wp_seq (wp_reconcile_passed hapart hingress hsturdy
        (Or.inr fun _ _ _ _ hx => hx) hup) ?_ ?_ fun _ _ _ => trivial
      · rintro failures r' t' ⟨nginxConfig, hpassed⟩
        exact ⟨hpassed.ingressRecords, hpassed.upright⟩
      · rintro e r' t' ⟨nginxConfig, hpassed⟩
        exact ⟨hpassed.ingressRecords, hpassed.upright⟩
    | exits jail =>
      intro r' hr'
      cases hmemory.symm.trans hr'
      exact ⟨hingress, hup.markExited jail⟩

omit [SerdeYaml Text JailRecord] [SerdeYaml Text IngressRecord] in
/-- Before its first start an agent has nothing on record, and a start on
nothing leaves it so. -/
theorem System.upright_start [SerdeYaml Text JailRecord] [SerdeYaml Text IngressRecord]
    (pool : String) (choices : ℕ → Option (Outcome Text)) {machine : Host Text}
    (hstate : ∀ file content, machine.stateDir.lookup file = some content →
      extension file ≠ some "yaml")
    (hingress : ∀ file content, machine.ingressDir.lookup file = some content →
      extension file ≠ some "yaml")
    (hjails : ∀ name, machine.jails.lookup (jailName name) = none) :
    (machine.life pool choices [.start]).Upright := by
  have hfresh : (System.fresh machine).Tracks (P := Sturdy) ⟨fun _ => none, 1⟩ :=
    System.tracks_fresh hstate
  obtain ⟨l', hl', -⟩ := hfresh.step pool choices .start (fun _ _ hr => by cases hr)
    (fun _ replicateTo hrecord => hrecord.retarget replicateTo) (fun _ hr => by cases hr)
  refine ⟨⟨l', hl'⟩, ?_⟩
  have hmeets : Ended.Meets _ _ ((Reconciler.new pool).run Host.outside choices
      (Reconciler.blank pool) (System.fresh machine : System Text (Host Text)).trace) :=
    Host.meets_of_wp (Proc.wp_and (wp_new pool hfresh.holds hfresh.sound)
      (steady_new pool hfresh.holds hfresh.sound hingress))
  refine System.of_started (I := fun sys => ∀ r, sys.memory = some r → NoIngress r ∧
    Node.Upright r sys.trace.world) hmeets ?_ ?_ ?_
  · rintro r t ⟨⟨-, hread⟩, hsame, hnone⟩ r' hr'
    cases hr'
    obtain ⟨next, -, hr⟩ := hread rfl
    refine ⟨hnone rfl, fun name record hrecord => ?_, fun name _ => ?_⟩
    · rw [hr.records] at hrecord
      cases hrecord
    · rw [hsame]
      exact hjails name
  · rintro e r t - r' hr'
    cases hr'
  · rintro x t - r' hr'
    cases hr'

/-- **The agent converges.** After any history of specs applied under new
names, deletes, passes and commands that exit, in which any call may have
failed but those that may not, a pass without failures, cooldowns or
missing images brings every jail to its record. -/
theorem agent_converges (pool : String) (choices : ℕ → Option (Outcome Text))
    {machine : Host Text}
    (hstate : ∀ file content, machine.stateDir.lookup file = some content →
      extension file ≠ some "yaml")
    (hingress : ∀ file content, machine.ingressDir.lookup file = some content →
      extension file ≠ some "yaml")
    (hjails : ∀ name, machine.jails.lookup (jailName name) = none) {changes : List Change}
    (hnew : ∀ before change after, changes = before ++ change :: after →
      change.New (machine.life pool choices (.start :: before.map Change.event)))
    (hbenign : ∀ before change after, changes = before ++ change :: after →
      change.Benign choices (machine.life pool choices (.start :: before.map Change.event)))
    {r : Reconciler} {t : Trace (Op Text) (Host Text)}
    (hreached : machine.life pool choices (.start :: changes.map Change.event) = ⟨some r, t⟩)
    {p : Pass} {final : ℕ → Option (Outcome Text)} (hfinal : Reliable final)
    (hcooldowns : ∀ name b, r.backoff.lookup name = some b → b.canRetry p.now = true)
    (himages : ∀ name record, r.records.lookup name = some record →
      baseDatasetPath r.pool record.spec.spec.image ∈ t.world.zfs.datasets) :
    ∃ r' t', (Reconciler.reconcile p).run Host.outside final r t = (.returned (.ok []) r', t') ∧
      r'.records = r.records ∧ ∀ name record, r'.records.lookup name = some record →
        Converged r'.pool name record t'.world := by
  have hupright : ∀ before after, changes = before ++ after →
      (machine.life pool choices (.start :: before.map Change.event)).Upright := by
    intro before
    induction before using List.reverseRecOn with
    | nil => exact fun _ _ => System.upright_start pool choices hstate hingress hjails
    | append_singleton before change ih =>
      intro after hchanges
      rw [List.append_assoc, List.singleton_append] at hchanges
      have hstep := (ih _ hchanges).step pool choices (hnew before change after hchanges)
        (hbenign before change after hchanges)
      rw [List.map_append, ← List.cons_append, Host.life, System.after_append]
      exact hstep
  have hsys := hupright changes [] (List.append_nil changes).symm
  rw [hreached] at hsys
  obtain ⟨l, hl⟩ := hsys.tracks
  obtain ⟨hnone, hup⟩ := hsys.upright r rfl
  have hledger : l.Is r t.world := hl.memory r rfl
  have hapart : r.Apart := hledger.apart hl.sound fun _ hrecord => hrecord.valid
  have hsturdy : ∀ name record, r.records.lookup name = some record → Sturdy record := by
    intro name record hrecord
    rw [hledger.records] at hrecord
    exact hl.sound.record name record hrecord
  have hready : Ready (fun (x : Outcome Text) _ _ _ => x.fails = none) r t.world p.now
      (p.order.apply r.records.keys) := by
    refine ⟨not_fallible_of_works, himages, fun name _ => ?_⟩
    rw [Reconciler.cooldown]
    cases hlookup : r.backoff.lookup name with
    | none => rfl
    | some b => exact hcooldowns name b hlookup
  obtain ⟨result, r', t', hrun, nginxConfig, hpassed⟩ := Host.returns_of_wp
    (wp_reconcile_passed hapart hnone hsturdy (Or.inl hready) hup) hfinal
  have hready' : Ready (fun (x : Outcome Text) _ _ _ => x.fails = none) r
      { t.world with nginxConfig } p.now (p.order.apply r.records.keys) :=
    ⟨hready.clean, hready.images, hready.cooldowns⟩
  refine ⟨r', t', ?_, hpassed.records, fun name record hrecord => ?_⟩
  · rw [hrun, hpassed.result hready']
  · rw [hpassed.records] at hrecord
    rw [hpassed.pool]
    refine hpassed.converged hready' name ?_ record hrecord
    rw [IterOrder.mem_apply, ← AList.mem_keys, ← AList.lookup_isSome, hrecord]
    rfl

end Life

section

open Agent.Sample (jail)
open scoped Agent.Sample Node.Sample

/-- A call that destroys no jail and unmounts nothing. -/
def Op.spares {ρ : Type} : Op Text ρ → Bool
  | .destroy _ => false
  | .unmount _ => false
  | _ => true

theorem Op.tolerated_of_spares {ρ : Type} (x : Outcome Text) (c : Op Text ρ) (r : Reconciler)
    (h : Host Text) (hc : c.spares = true) : c.Tolerated x r h := by
  cases c <;> trivial

/-- A jail brought up, a delete that fails at its first call, and the
command exits. -/
theorem agent_converges_sample :
    ∃ r t r' t', Sample.host.life "zroot" (Sample.failing 23) (.start ::
        [Change.apply (jail "db-0" none), .pass (Sample.pass 0), .delete "db-0",
          .exits "keel-db-0"].map Change.event) = ⟨some r, t⟩ ∧ "db-0" ∈ r.records ∧
      (Reconciler.reconcile (Sample.pass (10 ^ 12))).run Host.outside (fun _ => some .works) r t =
        (.returned (.ok []) r', t') ∧
      r'.records = r.records ∧ ∀ name record, r'.records.lookup name = some record →
        Converged r'.pool name record t'.world := by
  obtain ⟨sys, hsys⟩ : ∃ sys, Sample.host.life "zroot" (Sample.failing 23) (.start ::
      [Change.apply (jail "db-0" none), .pass (Sample.pass 0), .delete "db-0",
        .exits "keel-db-0"].map Change.event) = sys := ⟨_, rfl⟩
  have hstate : (sys.memory.any fun r => r.backoff.entries.all (fun e => e.2.canRetry (10 ^ 12)) &&
      (decide ("db-0" ∈ r.records) && r.records.entries.all fun e =>
        decide (baseDatasetPath r.pool e.2.spec.spec.image ∈ sys.trace.world.zfs.datasets))) =
      true := by
    rw [← hsys]
    decide +kernel
  obtain ⟨r, hr, hstate⟩ := (Option.any_eq_true _ _).1 hstate
  obtain ⟨hcooldowns, hstate⟩ := Bool.and_eq_true_iff.1 hstate
  obtain ⟨hthere, himages⟩ := Bool.and_eq_true_iff.1 hstate
  have hreached : Sample.host.life "zroot" (Sample.failing 23) (.start ::
      [Change.apply (jail "db-0" none), .pass (Sample.pass 0), .delete "db-0",
        .exits "keel-db-0"].map Change.event) = ⟨some r, sys.trace⟩ := by rw [hsys, ← hr]
  have hnew : ∀ before change after, [Change.apply (jail "db-0" none), .pass (Sample.pass 0),
      .delete "db-0", .exits "keel-db-0"] = before ++ change :: after →
      change.New (Sample.host.life "zroot" (Sample.failing 23)
        (.start :: before.map Change.event)) := by
    rintro (_ | ⟨c₀, _ | ⟨c₁, _ | ⟨c₂, _ | ⟨c₃, before⟩⟩⟩⟩) change after hchanges
    · cases hchanges
      intro r hr
      have hfirst : (Sample.host.life "zroot" (Sample.failing 23) [.start]).memory.all
          (fun r => (r.records.lookup "db-0").isNone) = true := by decide +kernel
      rw [show (Sample.host.life "zroot" (Sample.failing 23) [.start]).memory = some r from hr]
        at hfirst
      exact Option.isNone_iff_eq_none.1 hfirst
    · cases hchanges
      trivial
    · cases hchanges
      trivial
    · cases hchanges
      trivial
    · simp at hchanges
  have hbenign : ∀ before change after, [Change.apply (jail "db-0" none), .pass (Sample.pass 0),
      .delete "db-0", .exits "keel-db-0"] = before ++ change :: after →
      change.Benign (Sample.failing 23) (Sample.host.life "zroot" (Sample.failing 23)
        (.start :: before.map Change.event)) := by
    rintro (_ | ⟨c₀, _ | ⟨c₁, _ | ⟨c₂, _ | ⟨c₃, before⟩⟩⟩⟩) change after hchanges
    · cases hchanges
      exact fun _ =>
        ⟨⟨Ipv4Addr.ofOctets 10 0 9 9, 24, by decide⟩, by decide +kernel, by decide +kernel⟩
    · cases hchanges
      intro r hr
      have hcalls : (Sample.host.life "zroot" (Sample.failing 23) (.start ::
          [Change.apply (jail "db-0" none)].map Change.event)).memory.all (fun r =>
            ((Operation.reconcile (Sample.pass 0)).method.run (Host.under Op.Tolerated)
              (Sample.failing 23) r (Sample.host.life "zroot" (Sample.failing 23) (.start ::
                [Change.apply (jail "db-0" none)].map Change.event)).trace).2.calls.all
                  fun c => c.2.spares) = true := by decide +kernel
      rw [hr] at hcalls
      exact Proc.allowed_of_calls Op.tolerated_of_spares (List.all_eq_true.1 hcalls)
    · cases hchanges
      intro r hr
      have hcalls : (Sample.host.life "zroot" (Sample.failing 23) (.start ::
          [Change.apply (jail "db-0" none), .pass (Sample.pass 0)].map
            Change.event)).memory.all (fun r =>
            ((Operation.delete "db-0").method.run (Host.under Op.Tolerated)
              (Sample.failing 23) r (Sample.host.life "zroot" (Sample.failing 23) (.start ::
                [Change.apply (jail "db-0" none), .pass (Sample.pass 0)].map
                  Change.event)).trace).2.calls.all fun c => c.2.spares) = true := by
        decide +kernel
      rw [hr] at hcalls
      exact Proc.allowed_of_calls Op.tolerated_of_spares (List.all_eq_true.1 hcalls)
    · cases hchanges
      trivial
    · simp at hchanges
  have hfinal : Reliable fun _ => some (Outcome.works : Outcome Sample.Doc) :=
    fun _ => ⟨_, rfl, rfl⟩
  obtain ⟨r', t', hrun, hrecords, hconverged⟩ := agent_converges "zroot" (Sample.failing 23)
    (fun file content hfile => by cases hfile) (fun file content hfile => by cases hfile)
    (fun name => rfl) hnew hbenign hreached (p := Sample.pass (10 ^ 12)) hfinal
    (fun name b hb => List.all_eq_true.1 hcooldowns _ (AList.mem_lookup_iff.1 hb))
    (fun name record hrecord =>
      of_decide_eq_true (List.all_eq_true.1 himages _ (AList.mem_lookup_iff.1 hrecord)))
  exact ⟨r, sys.trace, r', t', hreached, of_decide_eq_true hthere, hrun, hrecords, hconverged⟩

/-- The state a pass without failures leaves. -/
def Ended.passed {σ ε α : Type} : Ended σ ε (List α) → Option σ
  | .returned (.ok []) s => some s
  | _ => none

theorem Ended.eq_of_passed {σ ε α : Type} {e : Ended σ ε (List α)} {s : σ}
    (h : Ended.passed e = some s) : e = .returned (.ok []) s := by
  cases e with
  | returned result s' =>
    cases result with
    | error e => cases h
    | ok failures =>
      cases failures with
      | nil =>
        cases h
        rfl
      | cons failure failures => cases h
  | stopped x => cases h

/-- A jail that runs, a delete whose destroy fails, and a pass without
failures: the jail runs on, and its epair is not attached. -/
theorem agent_converges_not :
    ∃ r t, Sample.host.life "zroot" (Sample.failing 24) (.start ::
        [Change.apply (jail "db-0" none), .pass (Sample.pass 0), .delete "db-0"].map Change.event) =
          ⟨some r, t⟩ ∧
      (∀ name b, r.backoff.lookup name = some b → b.canRetry (10 ^ 12) = true) ∧
      (∀ name record, r.records.lookup name = some record →
        baseDatasetPath r.pool record.spec.spec.image ∈ t.world.zfs.datasets) ∧
      ∃ r' t' record, (Reconciler.reconcile (Sample.pass (10 ^ 12))).run Host.outside
          (fun _ => some .works) r t = (.returned (.ok []) r', t') ∧
        r'.records.lookup "db-0" = some record ∧ t'.world.isRunning (jailName "db-0") = true ∧
        ¬ Converged r'.pool "db-0" record t'.world := by
  obtain ⟨sys, hsys⟩ : ∃ sys, Sample.host.life "zroot" (Sample.failing 24) (.start ::
      [Change.apply (jail "db-0" none), .pass (Sample.pass 0), .delete "db-0"].map Change.event) =
        sys := ⟨_, rfl⟩
  have hstate : (sys.memory.any fun r => r.backoff.entries.all (fun e => e.2.canRetry (10 ^ 12)) &&
      r.records.entries.all fun e =>
        decide (baseDatasetPath r.pool e.2.spec.spec.image ∈ sys.trace.world.zfs.datasets)) =
      true := by
    rw [← hsys]
    decide +kernel
  have hpass : (sys.memory.any fun r => (Ended.passed ((Reconciler.reconcile
      (Sample.pass (10 ^ 12))).run Host.outside (fun _ => some .works) r sys.trace).1).any fun r' =>
        (r'.records.lookup "db-0").any fun record =>
          ((Reconciler.reconcile (Sample.pass (10 ^ 12))).run Host.outside
            (fun _ => some .works) r sys.trace).2.world.isRunning (jailName "db-0") &&
          (((Reconciler.reconcile (Sample.pass (10 ^ 12))).run Host.outside
            (fun _ => some .works) r sys.trace).2.world.net.attachments.lookup
              (epairBaseName record.epairOrdinal)).isNone) = true := by
    rw [← hsys]
    decide +kernel
  obtain ⟨r, hr, hstate⟩ := (Option.any_eq_true _ _).1 hstate
  obtain ⟨hcooldowns, himages⟩ := Bool.and_eq_true_iff.1 hstate
  obtain ⟨r₁, hr₁, hpass⟩ := (Option.any_eq_true _ _).1 hpass
  cases hr.symm.trans hr₁
  obtain ⟨r', hr', hpass⟩ := (Option.any_eq_true _ _).1 hpass
  obtain ⟨record, hrecord, hpass⟩ := (Option.any_eq_true _ _).1 hpass
  obtain ⟨hrunning, hdetached⟩ := Bool.and_eq_true_iff.1 hpass
  refine ⟨r, sys.trace, by rw [hsys, ← hr], fun name b hb => ?_, fun name record' hrecord' => ?_,
    r', _, record, Prod.ext (Ended.eq_of_passed hr') rfl, hrecord, hrunning, ?_⟩
  · exact List.all_eq_true.1 hcooldowns _ (AList.mem_lookup_iff.1 hb)
  · exact of_decide_eq_true (List.all_eq_true.1 himages _ (AList.mem_lookup_iff.1 hrecord'))
  · rintro ⟨entry, -, -, hwired, -⟩
    cases (Option.isNone_iff_eq_none.1 hdetached).symm.trans hwired.attached

end

end Node

end Keel
