import Mathlib.Data.Set.Insert
import Keel.Node.Helpers.Apart
/-!
# Parts of the machine

The jails, the epairs and the mount targets that some calls are about: no
call changes any other. Of two jails with valid names and their own
ordinals, neither's calls change a part of the other.
-/

namespace Keel

namespace Node

open Agent (JailRecord)

/-- Some jails, some epairs, and some mount targets. -/
structure Parts where
  jails : Set String
  epairs : Set String
  targets : Set Path

namespace Parts

def none : Parts := ⟨∅, ∅, ∅⟩

/-- Those of one jail. -/
def ofJail (pool name : String) (record : JailRecord) : Parts :=
  ⟨{jailName name}, {epairBaseName record.epairOrdinal},
    {target | ∃ v ∈ record.spec.spec.volumes,
      target = mountTarget (jailRootfsPath pool name) v.mountPath}⟩

end Parts

variable {Text : Type}

/-- A call that changes no other parts. -/
def Op.Within (a : Parts) : {ρ : Type} → Op Text ρ → Prop
  | _, .create jail _ _ => jail ∈ a.jails
  | _, .startCommand jail _ => jail ∈ a.jails
  | _, .destroy jail => jail ∈ a.jails
  | _, .setResourceLimits jail _ _ => jail ∈ a.jails
  | _, .removeResourceLimits jail => jail ∈ a.jails
  | _, .attachJail _ _ epair _ => epair ∈ a.epairs
  | _, .detachJail epair => epair ∈ a.epairs
  | _, .mountNullfs _ target => target ∈ a.targets
  | _, .unmount target => target ∈ a.targets
  | _, _ => True

/-- Two machines that differ in these parts at most. -/
structure SameBut (a : Parts) (h h' : Host Text) : Prop where
  jails : ∀ jail, jail ∉ a.jails → h'.jails.lookup jail = h.jails.lookup jail
  epairs : ∀ epair, epair ∉ a.epairs →
    h'.net.attachments.lookup epair = h.net.attachments.lookup epair
  mounts : ∀ target, target ∉ a.targets → (target ∈ h'.mounts ↔ target ∈ h.mounts)

section Within

variable {a : Parts}

theorem SameBut.refl (h : Host Text) : SameBut a h h :=
  ⟨fun _ _ => rfl, fun _ _ => rfl, fun _ _ => Iff.rfl⟩

theorem SameBut.trans {h h' h'' : Host Text} (h₁ : SameBut a h h') (h₂ : SameBut a h' h'') :
    SameBut a h h'' :=
  ⟨fun jail hjail => (h₂.jails jail hjail).trans (h₁.jails jail hjail),
    fun epair hepair => (h₂.epairs epair hepair).trans (h₁.epairs epair hepair),
    fun target htarget => (h₂.mounts target htarget).trans (h₁.mounts target htarget)⟩

theorem SameBut.withJail (h : Host Text) {jail : String} (hjail : jail ∈ a.jails)
    (f : FakeJail → FakeJail) : SameBut a h (h.withJail jail f).2 := by
  have hlookup := h.lookup_withJail jail f
  obtain ⟨jails, hjails⟩ := h.withJail_eq jail f
  rw [hjails] at hlookup ⊢
  refine ⟨fun jail' hjail' => ?_, fun _ _ => rfl, fun _ _ => Iff.rfl⟩
  rw [hlookup, if_neg]
  rintro rfl
  exact hjail' hjail

/-- **One call** changes no other parts than its own. -/
theorem Op.Within.sameBut [Ipnet] {ρ : Type} {c : Op Text ρ} (hc : c.Within a) (x : Outcome Text)
    (h : Host Text) : SameBut a h (Host.call x c h).2 := by
  have hne : ∀ {β : Type} {s : Set β} {b b' : β}, b ∈ s → b' ∉ s → b' ≠ b := by
    rintro β s b b' hb hb' rfl
    exact hb' hb
  rcases Host.call_snd x c h with heq | heq
  · rw [heq]
    exact .refl h
  rw [heq]
  cases c with
  | create jail rootfs vnet =>
    refine ⟨fun jail' hjail' => ?_, fun _ _ => rfl, fun _ _ => Iff.rfl⟩
    exact AList.lookup_insert_ne (hne hc hjail')
  | startCommand jail command => exact .withJail h hc _
  | setResourceLimits jail pcpuPercent memoryBytes => exact .withJail h hc _
  | removeResourceLimits jail => exact .withJail h hc _
  | destroy jail =>
    have hlookup := h.lookup_destroy jail
    obtain ⟨jails, hjails⟩ := h.destroy_eq jail
    rw [Op.effect]
    rw [hjails] at hlookup ⊢
    refine ⟨fun jail' hjail' => ?_, fun _ _ => rfl, fun _ _ => Iff.rfl⟩
    rw [hlookup, if_neg (hne hc hjail')]
  | destroyDataset dataset =>
    obtain ⟨zfs, files, hidden, hzfs⟩ := h.destroyDataset_eq dataset
    rw [Op.effect, hzfs]
    exact ⟨fun _ _ => rfl, fun _ _ => rfl, fun _ _ => Iff.rfl⟩
  | attachJail jail bridge epair address =>
    have hattached := h.lookup_attachJail jail bridge epair address
    obtain ⟨net, hnet⟩ := h.attachJail_eq jail bridge epair address
    rw [Op.effect]
    rw [hnet] at hattached ⊢
    refine ⟨fun _ _ => rfl, fun epair' hepair' => ?_, fun _ _ => Iff.rfl⟩
    rcases hattached epair' with hsame | ⟨heq, -⟩
    · exact hsame
    · exact absurd heq (hne hc hepair')
  | detachJail epair =>
    refine ⟨fun _ _ => rfl, fun epair' hepair' => ?_, fun _ _ => Iff.rfl⟩
    exact AList.lookup_erase_ne (hne hc hepair')
  | mountNullfs source target =>
    refine ⟨fun _ _ => rfl, fun _ _ => rfl, fun target' htarget' => ?_⟩
    exact Finset.mem_insert.trans (or_iff_right (hne hc htarget'))
  | unmount target =>
    have hmounts : ∀ target', target' ∈ (h.unmount target).2.mounts ↔ _ :=
      fun target' => h.mem_unmount
    obtain ⟨mounts, hunmount⟩ := h.unmount_eq target
    rw [Op.effect]
    rw [hunmount] at hmounts ⊢
    refine ⟨fun _ _ => rfl, fun _ _ => rfl, fun target' htarget' => ?_⟩
    exact (hmounts target').trans (and_iff_right (hne hc htarget'))
  | writeFile d file content =>
    obtain ⟨stateDir, ingressDir, hdir, -⟩ :=
      h.setDir_eq d ((h.dir d).insert file (x.written content))
    rw [Op.effect, hdir]
    exact ⟨fun _ _ => rfl, fun _ _ => rfl, fun _ _ => Iff.rfl⟩
  | renameFile d old new =>
    obtain ⟨stateDir, ingressDir, hdir, -⟩ := h.renameFile_eq d old new
    rw [Op.effect, hdir]
    exact ⟨fun _ _ => rfl, fun _ _ => rfl, fun _ _ => Iff.rfl⟩
  | removeFile d file =>
    obtain ⟨stateDir, ingressDir, hdir, -⟩ := h.removeFile_eq d file
    rw [Op.effect, hdir]
    exact ⟨fun _ _ => rfl, fun _ _ => rfl, fun _ _ => Iff.rfl⟩
  | _ => exact ⟨fun _ _ => rfl, fun _ _ => rfl, fun _ _ => Iff.rfl⟩

theorem Op.OfJail.within {pool name : String} {record : JailRecord} {ρ : Type} {c : Op Text ρ}
    (h : c.OfJail pool name record) : c.Within (.ofJail pool name record) := by
  cases c <;> first | exact h | exact trivial

theorem Op.OfFile.within {dir : Dir} {file : String} {ρ : Type} {c : Op Text ρ}
    (h : c.OfFile dir file) : c.Within a := by
  cases c <;> first | exact trivial | exact h.elim

variable [Ipnet] {allows : {ρ : Type} → Outcome Text → Op Text ρ → Reconciler → Host Text → Prop}
variable {r : Reconciler} {t : Trace (Op Text) (Host Text)}

/-- A method whose calls are all within some parts leaves the rest. -/
theorem wp_of_within {α : Type} {m : Method Text α}
    {K : Except ReconcileError α → Reconciler → Prop}
    (hm : m.Makes (Op.Within a) (fun _ _ => True) True K r) :
    m.wp (Host.under allows) (fun result r' t' => K result r' ∧ SameBut a t.world t'.world)
      (fun _ t' => SameBut a t.world t'.world) r t := by
  refine Proc.wp_mono (fun _ _ _ hq => ⟨hq.1, hq.2.1⟩) (fun _ _ hx => hx.2.1)
    (Proc.wp_of_makes (I := SameBut a t.world) ?_ hm (.refl _) t.since_self)
  intro ρ x c s w hc hw _
  exact ⟨trivial, hw.trans (hc.sameBut x w)⟩

end Within

end Node

end Keel
