import Keel.Node.Helpers.Plots
/-!
# Clearing a jail away

A teardown and a rollback make the same calls, which only take things
away: what one of them has removed, no later one brings back. Where they
all work nothing is left of the jail but its volumes' datasets.
-/

namespace Keel

namespace Node

open Agent (JailRecord)

variable {Text : Type}

/-! ## Taking away -/

/-- Nothing is there that was not there before. -/
structure Less (h h' : Host Text) : Prop where
  jails : ∀ jail, h.jails.lookup jail = none → h'.jails.lookup jail = none
  epairs : ∀ epair, h.net.attachments.lookup epair = none →
    h'.net.attachments.lookup epair = none
  mounts : h'.mounts ⊆ h.mounts
  datasets : h'.zfs.datasets ⊆ h.zfs.datasets
  busy : h'.zfs.busy = h.zfs.busy

theorem Less.refl (h : Host Text) : Less h h :=
  ⟨fun _ => id, fun _ => id, fun _ => id, fun _ => id, rfl⟩

theorem Less.trans {h h' h'' : Host Text} (h₁ : Less h h') (h₂ : Less h' h'') : Less h h'' :=
  ⟨fun jail hjail => h₂.jails jail (h₁.jails jail hjail),
    fun epair hepair => h₂.epairs epair (h₁.epairs epair hepair), h₂.mounts.trans h₁.mounts,
    h₂.datasets.trans h₁.datasets, h₂.busy.trans h₁.busy⟩

/-- A call that only takes away. -/
def Op.Removes : {ρ : Type} → Op Text ρ → Prop
  | _, .detachJail _ => True
  | _, .destroy _ => True
  | _, .unmount _ => True
  | _, .destroyDataset _ => True
  | _, .removeResourceLimits _ => True
  | _, _ => False

theorem Op.Removes.less [Ipnet] {ρ : Type} {c : Op Text ρ} (hc : c.Removes) (x : Outcome Text)
    (h : Host Text) : Less h (Host.call x c h).2 := by
  have hbusy : (Host.call x c h).2.zfs.busy = h.zfs.busy := h.busy_call x c
  rcases Host.call_snd x c h with heq | heq
  · rw [heq]
    exact .refl h
  rw [heq] at hbusy ⊢
  cases c with
  | detachJail epair =>
    refine ⟨fun _ => id, fun epair' hnone => ?_, fun _ => id, fun _ => id, rfl⟩
    refine (Table.lookup_erase_eq ..).trans ?_
    rw [hnone, ite_self]
  | destroy jail =>
    have hlookup := h.lookup_destroy jail
    obtain ⟨jails, hjails⟩ := h.destroy_eq jail
    rw [Op.effect]
    rw [hjails] at hlookup ⊢
    refine ⟨fun jail' hnone => ?_, fun _ => id, fun _ => id, fun _ => id, rfl⟩
    rw [hlookup, hnone, ite_self]
  | unmount target =>
    have hmounts : ∀ target', target' ∈ (h.unmount target).2.mounts ↔ _ :=
      fun target' => h.mem_unmount
    obtain ⟨mounts, hunmount⟩ := h.unmount_eq target
    rw [Op.effect]
    rw [hunmount] at hmounts ⊢
    exact ⟨fun _ => id, fun _ => id, fun target' hmem => ((hmounts target').1 hmem).2, fun _ => id,
      rfl⟩
  | destroyDataset dataset =>
    have hmem : (h.destroyDataset dataset).2.zfs.datasets ⊆ h.zfs.datasets := by
      intro dataset' hmem
      by_cases heq : dataset' = dataset
      · rw [Host.destroyDataset, Agent.FakeZfsManager.destroyDataset] at hmem
        by_cases hb : dataset ∈ h.zfs.busy
        · simpa [hb] using hmem
        · by_cases hd : dataset ∈ h.zfs.datasets
          · rwa [heq]
          · simpa [hb, hd] using hmem
      · exact (h.mem_datasets_destroyDataset heq).1 hmem
    obtain ⟨zfs, files, hidden, hzfs⟩ := h.destroyDataset_eq dataset
    rw [Op.effect] at hbusy ⊢
    rw [hzfs] at hmem hbusy ⊢
    exact ⟨fun _ => id, fun _ => id, fun _ => id, hmem, hbusy⟩
  | removeResourceLimits jail =>
    have hlookup := h.lookup_withJail jail
      fun jail => { jail with pcpuPercent := none, memoryBytes := none }
    obtain ⟨jails, hjails⟩ := h.withJail_eq jail
      fun jail => { jail with pcpuPercent := none, memoryBytes := none }
    rw [Op.effect]
    rw [hjails] at hlookup ⊢
    refine ⟨fun jail' hnone => ?_, fun _ => id, fun _ => id, fun _ => id, rfl⟩
    rw [hlookup, hnone, Option.map_none, ite_self]
  | _ => exact hc.elim

/-- A dataset that is not busy is gone once it is destroyed. -/
theorem Host.notMem_destroyDataset {h : Host Text} {dataset : String}
    (hbusy : dataset ∉ h.zfs.busy) : dataset ∉ (h.destroyDataset dataset).2.zfs.datasets := by
  rw [destroyDataset, Agent.FakeZfsManager.destroyDataset]
  by_cases hmem : dataset ∈ h.zfs.datasets
  · simp [hbusy, hmem]
  · simp [hbusy, hmem]

/-! ## What is left of a jail -/

/-- **Cleared away**: no jail, no dataset of its own, no mount of a volume,
and no epair. Its limits are with the jail. -/
structure Cleared (pool name : String) (record : JailRecord) (h : Host Text) : Prop where
  jail : h.jails.lookup (jailName name) = none
  dataset : jailDatasetPath pool name ∉ h.zfs.datasets
  mounts : ∀ v ∈ record.spec.spec.volumes,
    mountTarget (jailRootfsPath pool name) v.mountPath ∉ h.mounts
  epair : h.net.attachments.lookup (epairBaseName record.epairOrdinal) = none

section Does

variable [Ipnet] {allows : {ρ : Type} → Outcome Text → Op Text ρ → Reconciler → Host Text → Prop}
variable {pool name : String} {record : JailRecord} {r : Reconciler}
variable {t : Trace (Op Text) (Host Text)}

/-- A method that makes one call, which works, and goes on. -/
def Does (allows : {ρ : Type} → Outcome Text → Op Text ρ → Reconciler → Host Text → Prop)
    {ρ β : Type} (c : Op Text ρ) (m : Method Text β) (r : Reconciler)
    (t : Trace (Op Text) (Host Text)) : Prop :=
  m.wp (Host.under allows)
    (fun result r' t' => (∃ b, result = .ok b) ∧ r' = r ∧ t'.world = (Host.call .works c t.world).2)
    (fun x _ => x = .crashed) r t

theorem does_ask (hworks : ¬ Fallible allows) {δ : Type} {c : Op Text (Except δ Unit)}
    {error : String → δ}
    (hcall : ∀ x, Host.call x c t.world =
      x.unlessFails t.world error (Host.call .works c t.world)) :
    Does allows c (Proc.ask c) r t := by
  rw [Does, ← Proc.bind_ret (Proc.ask c)]
  refine wp_ask_bind hcall rfl ?_ fun _ _ _ => ⟨⟨_, rfl⟩, rfl, rfl⟩
  exact fun x m hx hfails => absurd (fallible_of_fails hx hfails) hworks

/-- A step of a teardown does its call, if what that may answer is passed
over. -/
theorem does_tearDown (hworks : ¬ Fallible allows) {δ : Type} {gone : δ → Bool}
    {f : δ → ReconcileError} {c : Op Text (Except δ Unit)} {error : String → δ}
    (hcall : ∀ x, Host.call x c t.world =
      x.unlessFails t.world error (Host.call .works c t.world))
    (hgone : ∀ e, (Host.call .works c t.world).1 = .error e → gone e = true) :
    Does allows c (tearDown gone f c) r t := by
  rw [Does, tearDown, Proc.bind_eq]
  refine wp_ask_bind hcall rfl ?_ fun _ _ _ => ?_
  · exact fun x m hx hfails => absurd (fallible_of_fails hx hfails) hworks
  · cases hanswer : (Host.call .works c t.world).1 with
    | ok u => exact ⟨⟨(), rfl⟩, rfl, rfl⟩
    | error e =>
      dsimp only
      rw [if_pos (hgone e hanswer)]
      exact ⟨⟨(), rfl⟩, rfl, rfl⟩

theorem less_of_does {ρ : Type} {c : Op Text ρ} {t' : Trace (Op Text) (Host Text)}
    (hc : c.Removes) (ht' : t'.world = (Host.call .works c t.world).2) : Less t.world t'.world := by
  rw [ht']
  exact hc.less .works t.world

/-- Every volume is unmounted. -/
theorem clear_forEach {rootfs : Path} {body : VolumeMount → Method Text Unit}
    (hbody : ∀ v r t, Does allows (.unmount (mountTarget rootfs v.mountPath)) (body v) r t)
    (volumes : List VolumeMount) : (Proc.forEach body volumes).wp (Host.under allows)
      (fun result r' t' => (∃ b, result = .ok b) ∧ r' = r ∧ Less t.world t'.world ∧
        ∀ v ∈ volumes, mountTarget rootfs v.mountPath ∉ t'.world.mounts)
      (fun x _ => x = .crashed) r t := by
  refine Proc.wp_mono ?_ (fun _ _ hx => hx) (Proc.wp_forEach (E := fun _ _ _ => False)
    (fun rest r' t' => r' = r ∧ Less t.world t'.world ∧
      ∀ v ∈ volumes, v ∈ rest ∨ mountTarget rootfs v.mountPath ∉ t'.world.mounts) ?_ volumes
    ⟨rfl, .refl _, fun _ hv => Or.inl hv⟩)
  · rintro (e | u) r' t' hr'
    · exact hr'.elim
    · refine ⟨⟨u, rfl⟩, hr'.1, hr'.2.1, fun v hv => ?_⟩
      exact (hr'.2.2 v hv).resolve_left List.not_mem_nil
  · rintro v rest r₁ t₁ ⟨rfl, hless, hdone⟩
    refine Proc.wp_mono ?_ (fun _ _ hx => hx) (hbody v r₁ t₁)
    rintro _ r₂ t₂ ⟨⟨b, rfl⟩, rfl, ht₂⟩
    have hmounts : ∀ target, target ∈ t₂.world.mounts ↔
        target ≠ mountTarget rootfs v.mountPath ∧ target ∈ t₁.world.mounts := by
      intro target
      rw [ht₂]
      exact t₁.world.mem_unmount
    refine ⟨rfl, hless.trans (less_of_does (by trivial) ht₂), fun w hw => ?_⟩
    rcases hdone w hw with hrest | hgone
    · rcases List.mem_cons.1 hrest with rfl | hrest
      · exact Or.inr fun hmem => ((hmounts _).1 hmem).1 rfl
      · exact Or.inl hrest
    · exact Or.inr fun hmem => hgone ((hmounts _).1 hmem).2

/-- **Clearing away.** The five kinds of calls, one after the other, each
by a method of its own. -/
theorem clear_of_does {α₁ α₂ α₄ β : Type} {detach : Method Text α₁} {destroy : Method Text α₂}
    {unmount : VolumeMount → Method Text Unit} {destroyDataset : Method Text α₄}
    {removeLimits : Method Text β}
    (hdetach : ∀ t, Does allows (.detachJail (epairBaseName record.epairOrdinal)) detach r t)
    (hdestroy : ∀ t, Does allows (.destroy (jailName name)) destroy r t)
    (hunmount : ∀ v r t, Does allows
      (.unmount (mountTarget (jailRootfsPath pool name) v.mountPath)) (unmount v) r t)
    (hdataset : ∀ t, jailDatasetPath pool name ∉ t.world.zfs.busy →
      Does allows (.destroyDataset (jailDatasetPath pool name)) destroyDataset r t)
    (hlimits : ∀ t, Does allows (.removeResourceLimits (jailName name)) removeLimits r t)
    (hbusy : jailDatasetPath pool name ∉ t.world.zfs.busy) :
    (detach.bind fun _ => destroy.bind fun _ =>
      (Proc.forEach unmount record.spec.spec.volumes).bind fun _ =>
        destroyDataset.bind fun _ => removeLimits).wp (Host.under allows)
      (fun result r' t' => (∃ b, result = .ok b) ∧ r' = r ∧ Cleared pool name record t'.world)
      (fun x _ => x = .crashed) r t := by
  refine Proc.wp_seq (hdetach t) ?_ (fun e _ _ he => by cases he.1.choose_spec) fun _ _ hx => hx
  rintro _ _ t₁ ⟨-, rfl, ht₁⟩
  have hless₁ : Less t.world t₁.world := less_of_does (by trivial) ht₁
  have hepair : t₁.world.net.attachments.lookup (epairBaseName record.epairOrdinal) = none := by
    rw [ht₁]
    exact AList.lookup_erase _ _
  refine Proc.wp_seq (hdestroy t₁) ?_ (fun e _ _ he => by cases he.1.choose_spec) fun _ _ hx => hx
  rintro _ _ t₂ ⟨-, rfl, ht₂⟩
  have hless₂ : Less t₁.world t₂.world := less_of_does (by trivial) ht₂
  have hjail : t₂.world.jails.lookup (jailName name) = none := by
    rw [ht₂]
    exact (t₁.world.lookup_destroy _ _).trans (if_pos rfl)
  refine Proc.wp_seq (clear_forEach hunmount record.spec.spec.volumes) ?_
    (fun e _ _ he => by cases he.1.choose_spec) fun _ _ hx => hx
  rintro _ _ t₃ ⟨-, rfl, hless₃, hmounts⟩
  have hbusy₃ : jailDatasetPath pool name ∉ t₃.world.zfs.busy := by
    rw [hless₃.busy, hless₂.busy, hless₁.busy]
    exact hbusy
  refine Proc.wp_seq (hdataset t₃ hbusy₃) ?_ (fun e _ _ he => by cases he.1.choose_spec)
    fun _ _ hx => hx
  rintro _ _ t₄ ⟨-, rfl, ht₄⟩
  have hless₄ : Less t₃.world t₄.world := less_of_does (by trivial) ht₄
  have hgone : jailDatasetPath pool name ∉ t₄.world.zfs.datasets := by
    rw [ht₄]
    exact Host.notMem_destroyDataset hbusy₃
  refine Proc.wp_mono ?_ (fun _ _ hx => hx) (hlimits t₄)
  rintro result _ t₅ ⟨hresult, rfl, ht₅⟩
  have hless₅ : Less t₄.world t₅.world := less_of_does (by trivial) ht₅
  have hrest : Less t₂.world t₅.world := hless₃.trans (hless₄.trans hless₅)
  exact ⟨hresult, rfl, hrest.jails _ hjail, fun hmem => hgone (hless₅.datasets hmem),
    fun v hv hmem => hmounts v hv ((hless₄.trans hless₅).mounts hmem),
    (hless₂.trans hrest).epairs _ hepair⟩

end Does

/-! ## A teardown and a rollback -/

section Clear

variable [Ipnet] {allows : {ρ : Type} → Outcome Text → Op Text ρ → Reconciler → Host Text → Prop}
variable {pool name : String} {record : JailRecord} {r : Reconciler}
variable {t : Trace (Op Text) (Host Text)}

omit [Ipnet] in
theorem Host.gone_of_destroy {h : Host Text} {jail : String} {e : JailError}
    (he : (h.destroy jail).1 = .error e) : e.isNotFound = true := by
  rw [destroy] at he
  split at he
  · cases he
    rfl
  · cases he

omit [Ipnet] in
theorem Host.gone_of_withJail {h : Host Text} {jail : String} {f : FakeJail → FakeJail}
    {e : JailError} (he : (h.withJail jail f).1 = .error e) : e.isNotFound = true := by
  rw [withJail] at he
  split at he
  · cases he
    rfl
  · cases he

omit [Ipnet] in
theorem Host.gone_of_unmount {h : Host Text} {target : Path} {e : MountError}
    (he : (h.unmount target).1 = .error e) : e.isNotMounted = true := by
  rw [unmount] at he
  split at he
  · cases he
  · cases he
    rfl

omit [Ipnet] in
theorem Host.gone_of_destroyDataset {h : Host Text} {dataset : String}
    (hbusy : dataset ∉ h.zfs.busy) {e : Agent.ZfsError}
    (he : (h.destroyDataset dataset).1 = .error e) : zfsNotFound e = true := by
  rw [destroyDataset, Agent.FakeZfsManager.destroyDataset] at he
  by_cases hmem : dataset ∈ h.zfs.datasets
  · simp [hbusy, hmem] at he
  · simp only [hbusy, hmem, if_false] at he
    cases he
    rfl

/-- **A teardown** without failures clears the jail away. -/
theorem clear_tearDownJail (hworks : ¬ Fallible allows)
    (hbusy : jailDatasetPath pool name ∉ t.world.zfs.busy) :
    (Reconciler.tearDownJail pool name record : Method Text Unit).wp (Host.under allows)
      (fun result r' t' => (∃ b, result = .ok b) ∧ r' = r ∧ Cleared pool name record t'.world)
      (fun x _ => x = .crashed) r t := by
  rw [Reconciler.tearDownJail]
  simp only [Proc.bind_eq]
  refine clear_of_does (fun t => ?_) (fun t => ?_) (fun v r t => ?_) (fun t hbusy => ?_)
    (fun t => ?_) hbusy
  · refine wp_tryCall (fun _ => rfl) rfl ?_ ?_ fun e he => by cases he
    · exact fun x m hx hfails => absurd (fallible_of_fails hx hfails) hworks
    · exact fun u _ => ⟨⟨u, rfl⟩, rfl, rfl⟩
  · exact does_tearDown hworks (fun _ => rfl) fun e he => Host.gone_of_destroy he
  · exact does_tearDown hworks (fun _ => rfl) fun e he => Host.gone_of_unmount he
  · exact does_tearDown hworks (fun _ => rfl) fun e he => Host.gone_of_destroyDataset hbusy he
  · exact does_tearDown hworks (fun _ => rfl) fun e he => Host.gone_of_withJail he

/-- **A rollback** whose calls work clears it away too. -/
theorem clear_rollbackProvision (hworks : ¬ Fallible allows)
    (hbusy : jailDatasetPath pool name ∉ t.world.zfs.busy) :
    (Reconciler.rollbackProvision pool name record : Method Text Unit).wp (Host.under allows)
      (fun result r' t' => (∃ b, result = .ok b) ∧ r' = r ∧ Cleared pool name record t'.world)
      (fun x _ => x = .crashed) r t := by
  have hlast : ∀ {ρ : Type} {c : Op Text ρ} {m : Method Text ρ} {r t}, Does allows c m r t →
      Does allows c (m.bind fun _ => Proc.ret ()) r t := by
    intro ρ c m r t hm
    refine Proc.wp_seq hm (fun a r' t' hq => ?_) (fun e _ _ he => by cases he.1.choose_spec)
      fun _ _ hx => hx
    exact ⟨⟨(), rfl⟩, hq.2⟩
  rw [Reconciler.rollbackProvision]
  simp only [Proc.bind_eq, Proc.pure_eq]
  refine clear_of_does (fun t => ?_) (fun t => ?_) (fun v r t => hlast ?_) (fun t _ => ?_)
    (fun t => hlast ?_) hbusy
  · exact does_ask hworks fun _ => rfl
  · exact does_ask hworks fun _ => rfl
  · exact does_ask hworks fun _ => rfl
  · exact does_ask hworks fun _ => rfl
  · exact does_ask hworks fun _ => rfl

end Clear

end Node

end Keel
