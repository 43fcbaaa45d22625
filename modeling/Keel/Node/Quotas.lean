import Keel.Spec.Sizes
import Keel.Node.Helpers.Footprint
/-!
# Quotas

A volume's size is checked when its record is applied, and handed to `zfs`
as it stands when the volume is created. What passes the check is a size,
or one with a plus sign before it, which `zfs` is then given as well
(`sizes_exact_iff`).
-/

namespace Keel

namespace Node

open Agent (JailRecord volumeDatasetPath)

variable {Text : Type}

/-- A call that gives `zfs` a size for a quota, if it gives it one. -/
def Op.PassesSize : {ρ : Type} → Op Text ρ → Prop
  | _, .createVolume _ quota => ∃ n, IsSize quota n
  | _, _ => True

namespace Reconciler

variable {pool name : String} {record : JailRecord} {K : Reconciler → Prop} {r : Reconciler}

theorem passesSize_configureNetworkingAndLimits :
    (configureNetworkingAndLimits name record : Method Text Unit).Keeps Op.PassesSize
      (fun _ _ => True) True K := by
  refine (keeps_configureNetworkingAndLimits fun _ _ _ _ _ => trivial).imp (fun c hc => ?_)
    fun _ _ _ h => h
  cases c <;> trivial

theorem passesSize_mountVolume {rootfs : Path} {volume : VolumeMount}
    (h : ∃ n, IsSize volume.size n) :
    (mountVolume pool rootfs volume : Method Text Unit).Keeps Op.PassesSize (fun _ _ => True) True
      K := by
  refine Proc.keeps_bind (Proc.keeps_tryCall trivial) fun _ => Proc.keeps_bind ?_ fun _ => ?_
  · refine Proc.keeps_bind (Proc.keeps_tryCall trivial) fun there => ?_
    exact Proc.keeps_ite Proc.keeps_ret (Proc.keeps_tryCall h)
  · refine Proc.keeps_bind (Proc.keeps_tryCall trivial) fun mounted => ?_
    exact Proc.keeps_ite Proc.keeps_ret (Proc.keeps_tryCall trivial)

theorem passesSize_provision (h : ∀ v ∈ record.spec.spec.volumes, ∃ n, IsSize v.size n) :
    (provision pool name record : Method Text Unit).Keeps Op.PassesSize (fun _ _ => True) True
      K := by
  refine Proc.keeps_bind ?_ fun _ => ?_
  · refine Proc.keeps_bind (Proc.keeps_tryCall trivial) fun there => ?_
    exact Proc.keeps_ite Proc.keeps_ret Proc.keeps_fail
  refine Proc.keeps_bind (Proc.keeps_tryCall trivial) fun _ => ?_
  refine Proc.keeps_bind (Proc.keeps_tryCall trivial) fun _ => ?_
  refine Proc.keeps_bind
    (Proc.keeps_forEach fun v hv => passesSize_mountVolume (h v hv)) fun _ => ?_
  refine Proc.keeps_bind passesSize_configureNetworkingAndLimits fun _ => ?_
  exact Proc.keeps_tryCall trivial

/-- **Every volume's size can become a quota**: where nothing fails and no
volume is there yet, each is created with its own. -/
theorem sizes_of_forEach {rootfs : Path} {rest : Unit → Method Text Unit}
    {volumes : List VolumeMount}
    (h : ((Proc.forEach (mountVolume pool rootfs) volumes).bind rest).Makes Op.PassesSize
      (fun _ _ => True) True (fun _ _ => True) r) : ∀ v ∈ volumes, ∃ n, IsSize v.size n := by
  induction volumes with
  | nil => exact fun v hv => absurd hv List.not_mem_nil
  | cons volume volumes ih =>
    rw [Proc.forEach, Proc.bind_assoc, mountVolume, Proc.bind_eq, Proc.bind_assoc,
      Proc.makes_tryCall_bind] at h
    have hvolume := h.2.1 () trivial
    rw [Proc.bind_eq, Proc.bind_assoc, ensureVolume, Proc.bind_eq, Proc.bind_assoc,
      Proc.makes_tryCall_bind] at hvolume
    have hcreated := hvolume.2.1 false trivial
    rw [if_neg Bool.false_ne_true, Proc.makes_tryCall_bind] at hcreated
    obtain ⟨hsize, hmounted, -⟩ := hcreated
    have hmount := hmounted () trivial
    rw [ensureMounted, Proc.bind_eq, Proc.bind_assoc, Proc.makes_tryCall_bind] at hmount
    have hnext := hmount.2.1 true trivial
    rw [if_pos rfl] at hnext
    intro v hv
    rcases List.mem_cons.1 hv with rfl | hv
    · exact hsize
    · exact ih hnext v hv

/-- A provision gives `zfs` sizes only if all the volumes have one. -/
theorem passesSize_provision_iff :
    (provision pool name record : Method Text Unit).Makes Op.PassesSize (fun _ _ => True) True
      (fun _ _ => True) r ↔ ∀ v ∈ record.spec.spec.volumes, ∃ n, IsSize v.size n := by
  constructor
  · intro h
    rw [provision, requireBaseImage] at h
    simp only [Proc.bind_eq] at h
    rw [Proc.bind_assoc, Proc.makes_tryCall_bind] at h
    have hclone := h.2.1 true trivial
    rw [if_pos rfl, Proc.pure_eq, Proc.ret_bind, Proc.makes_tryCall_bind] at hclone
    have hcreate := hclone.2.1 () trivial
    rw [Proc.makes_tryCall_bind] at hcreate
    exact sizes_of_forEach (hcreate.2.1 () trivial)
  · intro h
    exact Proc.makes_mono (fun _ _ _ => trivial) (passesSize_provision (K := fun _ => True) h r
      trivial)

end Reconciler

/-- **Sizes are what is read**, by `parse_memory_bytes` and by
`parse_zfs_quota`, exactly where no text is a size with a plus sign; and so
what a provision of accepted volumes passes to `zfs` is a size, whatever it
is answered, if and only if none of them has a size with a plus sign. -/
theorem sizes_exact_iff :
    (∀ s, (∀ v, parseMemoryBytes s = .ok v ↔ IsSize s v) ↔ ¬ IsSigned s) ∧
    (∀ s, (∀ v, parseZfsQuota s = .ok v ↔ IsSize s v) ↔ ¬ IsSigned s) ∧
    ∀ (pool name : String) (record : JailRecord) (r : Reconciler),
      validateVolumes record.spec.spec.volumes = .ok () →
      ((∀ v ∈ record.spec.spec.volumes, ∃ n, IsSize v.size n) ↔
        ∀ v ∈ record.spec.spec.volumes, ¬ IsSigned v.size) ∧
      ((Reconciler.provision pool name record : Method Text Unit).Makes Op.PassesSize
        (fun _ _ => True) True (fun _ _ => True) r ↔
          ∀ v ∈ record.spec.spec.volumes, ¬ IsSigned v.size) := by
  refine ⟨parseMemoryBytes_exact_iff, parseMemoryBytes_exact_iff, fun pool name record r h => ?_⟩
  have hsizes := sizes_of_validateVolumes h
  exact ⟨hsizes, Reconciler.passesSize_provision_iff.trans hsizes⟩

/-- A quota of `+1G` is accepted, and is no size. -/
theorem signed_size_accepted :
    parseMemoryBytes "+1G" = .ok (1024 ^ 3) ∧
    validateVolumes [⟨"data", "/data", "+1G"⟩] = .ok () ∧ ∀ v, ¬ IsSize "+1G" v := by
  refine ⟨by decide +kernel, by decide +kernel, fun v => ?_⟩
  exact not_isSize_of_plus "1G"

end Node

end Keel
