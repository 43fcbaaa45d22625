import Keel.Node.Helpers.Ledger
import Keel.Node.Helpers.Parts
import Keel.Node.Volumes
/-!
# Plots

What there is of a jail on a machine: the parts that are named after it,
and some datasets. A call that misses a plot leaves it as it is, whatever
it is answered; the calls for one jail miss the plots of all others.
-/

namespace Keel

namespace Node

open Agent (JailRecord volumeDatasetPath)

variable {Text : Type}

/-! ## Datasets -/

section Datasets

variable [Ipnet]

/-- A call that has to do with no dataset, or only asks. -/
def Op.OffZfs : {ρ : Type} → Op Text ρ → Prop
  | _, .cloneFromBase _ _ => False
  | _, .createVolume _ _ => False
  | _, .destroyDataset _ => False
  | _, _ => True

theorem Host.zfs_call {ρ : Type} (x : Outcome Text) {c : Op Text ρ} (h : Host Text)
    (hc : c.OffZfs) : (Host.call x c h).2.zfs = h.zfs := by
  rcases Host.call_snd x c h with heq | heq
  · rw [heq]
  rw [heq]
  cases c with
  | startCommand name command =>
    obtain ⟨jails, hjails⟩ := h.withJail_eq name
      fun jail => { jail with running := true, command := some command }
    rw [Op.effect, hjails]
  | setResourceLimits name pcpuPercent memoryBytes =>
    obtain ⟨jails, hjails⟩ := h.withJail_eq name fun jail =>
      { jail with pcpuPercent := some pcpuPercent, memoryBytes := some memoryBytes }
    rw [Op.effect, hjails]
  | removeResourceLimits name =>
    obtain ⟨jails, hjails⟩ := h.withJail_eq name fun jail =>
      { jail with pcpuPercent := none, memoryBytes := none }
    rw [Op.effect, hjails]
  | destroy name =>
    obtain ⟨jails, hjails⟩ := h.destroy_eq name
    rw [Op.effect, hjails]
  | attachJail name bridge epairBase address =>
    obtain ⟨net, hnet⟩ := h.attachJail_eq name bridge epairBase address
    rw [Op.effect, hnet]
  | unmount target =>
    obtain ⟨mounts, hmounts⟩ := h.unmount_eq target
    rw [Op.effect, hmounts]
  | writeFile d file content =>
    obtain ⟨stateDir, ingressDir, hdir, -⟩ :=
      h.setDir_eq d ((h.dir d).insert file (x.written content))
    rw [Op.effect, hdir]
  | renameFile d old new =>
    obtain ⟨stateDir, ingressDir, hdir, -⟩ := h.renameFile_eq d old new
    rw [Op.effect, hdir]
  | removeFile d file =>
    obtain ⟨stateDir, ingressDir, hdir, -⟩ := h.removeFile_eq d file
    rw [Op.effect, hdir]
  | cloneFromBase base target => exact hc.elim
  | createVolume dataset quota => exact hc.elim
  | destroyDataset dataset => exact hc.elim
  | _ => rfl

/-- A call that destroys another dataset at most. -/
def Op.Retains (dataset : String) : {ρ : Type} → Op Text ρ → Prop
  | _, .destroyDataset d => d ≠ dataset
  | _, _ => True

/-- A call that neither destroys a dataset nor makes it. -/
def Op.OffDataset (dataset : String) : {ρ : Type} → Op Text ρ → Prop
  | _, .cloneFromBase _ target => target ≠ dataset
  | _, .createVolume d _ => d ≠ dataset
  | _, .destroyDataset d => d ≠ dataset
  | _, _ => True

theorem Host.mem_datasets_call {ρ : Type} (x : Outcome Text) {c : Op Text ρ} (h : Host Text)
    {dataset : String} (hc : c.Retains dataset) (hmem : dataset ∈ h.zfs.datasets) :
    dataset ∈ (Host.call x c h).2.zfs.datasets := by
  have hoff : c.OffZfs → (Host.call x c h).2.zfs = h.zfs := h.zfs_call x
  rcases Host.call_snd x c h with heq | heq
  · rw [heq]
    exact hmem
  cases c with
  | cloneFromBase base target =>
    rw [heq]
    exact h.mem_datasets_cloneFromBase hmem
  | createVolume d quota =>
    rw [heq]
    exact Finset.mem_insert_of_mem hmem
  | destroyDataset d =>
    rw [heq]
    exact (h.mem_datasets_destroyDataset (Ne.symm hc)).2 hmem
  | _ =>
    rw [hoff trivial]
    exact hmem

theorem Host.mem_datasets_call_iff {ρ : Type} (x : Outcome Text) {c : Op Text ρ} (h : Host Text)
    {dataset : String} (hc : c.OffDataset dataset) :
    dataset ∈ (Host.call x c h).2.zfs.datasets ↔ dataset ∈ h.zfs.datasets := by
  have hoff : c.OffZfs → (Host.call x c h).2.zfs = h.zfs := h.zfs_call x
  rcases Host.call_snd x c h with heq | heq
  · rw [heq]
  cases c with
  | cloneFromBase base target =>
    rw [heq, Op.effect, Host.cloneFromBase, Agent.FakeZfsManager.cloneFromBase]
    have hne : dataset ≠ target := Ne.symm hc
    by_cases hbase : base ∈ h.zfs.datasets
    · simp [hbase, hne]
    · simp [hbase]
  | createVolume d quota =>
    rw [heq]
    exact Finset.mem_insert.trans (or_iff_right (Ne.symm hc))
  | destroyDataset d =>
    rw [heq]
    exact h.mem_datasets_destroyDataset (Ne.symm hc)
  | _ => rw [hoff trivial]

omit [Ipnet] in
theorem Host.busy_destroyDataset (h : Host Text) (dataset : String) :
    (h.destroyDataset dataset).2.zfs.busy = h.zfs.busy := by
  rw [destroyDataset, Agent.FakeZfsManager.destroyDataset]
  by_cases hbusy : dataset ∈ h.zfs.busy
  · simp [hbusy]
  · by_cases hmem : dataset ∈ h.zfs.datasets
    · simp [hbusy, hmem]
    · simp [hbusy, hmem]

/-- No call makes a dataset busy, or frees one. -/
theorem Host.busy_call {ρ : Type} (x : Outcome Text) (c : Op Text ρ) (h : Host Text) :
    (Host.call x c h).2.zfs.busy = h.zfs.busy := by
  have hoff : c.OffZfs → (Host.call x c h).2.zfs = h.zfs := h.zfs_call x
  rcases Host.call_snd x c h with heq | heq
  · rw [heq]
  cases c with
  | cloneFromBase base target =>
    rw [heq, Op.effect, Host.cloneFromBase, Agent.FakeZfsManager.cloneFromBase]
    by_cases hbase : base ∈ h.zfs.datasets
    · simp [hbase]
    · simp [hbase]
  | createVolume d quota =>
    rw [heq]
    rfl
  | destroyDataset d =>
    rw [heq]
    exact h.busy_destroyDataset d
  | _ => rw [hoff trivial]

omit [Ipnet] in
theorem Op.Spares.retains {pool volume : String} {ρ : Type} {c : Op Text ρ} (h : c.Spares pool) :
    c.Retains (volumeDatasetPath pool volume) := by
  cases c <;> first | exact trivial | exact h volume

omit [Ipnet] in
/-- What is done for a jail destroys its own dataset only. -/
theorem Op.OfJail.retains {pool name dataset : String} {record : JailRecord} {ρ : Type}
    {c : Op Text ρ} (h : c.OfJail pool name record) (hne : dataset ≠ jailDatasetPath pool name) :
    c.Retains dataset := by
  cases c with
  | destroyDataset d =>
    intro heq
    exact hne (heq.symm.trans h)
  | _ => exact trivial

end Datasets

/-! ## Plots -/

/-- Parts of a machine, and some datasets. -/
structure Plot extends Parts where
  datasets : Set String

/-- What the reconciler keeps for a jail, but for its volumes' datasets. -/
def Plot.ofJail (pool name : String) (record : JailRecord) : Plot :=
  { Parts.ofJail pool name record with datasets := {jailDatasetPath pool name} }

/-- The same, with the datasets a pass over the jail asks about. -/
def Plot.around (pool name : String) (record : JailRecord) : Plot :=
  { Parts.ofJail pool name record with
    datasets := {dataset | dataset = jailDatasetPath pool name ∨
      dataset = baseDatasetPath pool record.spec.spec.image ∨
      ∃ v ∈ record.spec.spec.volumes, dataset = volumeDatasetPath pool v.name} }

/-- A call that changes nothing on a plot. -/
def Op.Misses (a : Plot) : {ρ : Type} → Op Text ρ → Prop
  | _, .create jail _ _ => jail ∉ a.jails
  | _, .startCommand jail _ => jail ∉ a.jails
  | _, .destroy jail => jail ∉ a.jails
  | _, .setResourceLimits jail _ _ => jail ∉ a.jails
  | _, .removeResourceLimits jail => jail ∉ a.jails
  | _, .cloneFromBase _ target => target ∉ a.datasets
  | _, .createVolume dataset _ => dataset ∉ a.datasets
  | _, .destroyDataset dataset => dataset ∉ a.datasets
  | _, .attachJail _ _ epair _ => epair ∉ a.epairs
  | _, .detachJail epair => epair ∉ a.epairs
  | _, .mountNullfs _ target => target ∉ a.targets
  | _, .unmount target => target ∉ a.targets
  | _, _ => True

/-- Two machines that are the same on a plot. -/
structure SameOn (a : Plot) (h h' : Host Text) : Prop where
  jails : ∀ jail ∈ a.jails, h'.jails.lookup jail = h.jails.lookup jail
  epairs : ∀ epair ∈ a.epairs,
    h'.net.attachments.lookup epair = h.net.attachments.lookup epair
  mounts : ∀ target ∈ a.targets, (target ∈ h'.mounts ↔ target ∈ h.mounts)
  datasets : ∀ dataset ∈ a.datasets,
    (dataset ∈ h'.zfs.datasets ↔ dataset ∈ h.zfs.datasets)
  busy : h'.zfs.busy = h.zfs.busy

namespace SameOn

variable {a : Plot} {h h' h'' : Host Text}

theorem refl (h : Host Text) : SameOn a h h :=
  ⟨fun _ _ => rfl, fun _ _ => rfl, fun _ _ => Iff.rfl, fun _ _ => Iff.rfl, rfl⟩

theorem symm (hs : SameOn a h h') : SameOn a h' h :=
  ⟨fun jail hjail => (hs.jails jail hjail).symm, fun epair hepair => (hs.epairs epair hepair).symm,
    fun target htarget => (hs.mounts target htarget).symm,
    fun dataset hdataset => (hs.datasets dataset hdataset).symm, hs.busy.symm⟩

theorem trans (h₁ : SameOn a h h') (h₂ : SameOn a h' h'') : SameOn a h h'' :=
  ⟨fun jail hjail => (h₂.jails jail hjail).trans (h₁.jails jail hjail),
    fun epair hepair => (h₂.epairs epair hepair).trans (h₁.epairs epair hepair),
    fun target htarget => (h₂.mounts target htarget).trans (h₁.mounts target htarget),
    fun dataset hdataset => (h₂.datasets dataset hdataset).trans (h₁.datasets dataset hdataset),
    h₂.busy.trans h₁.busy⟩

end SameOn

section Misses

variable {a : Plot}

/-- The parts that are on no plot. -/
def Plot.rest (a : Plot) : Parts := ⟨a.jailsᶜ, a.epairsᶜ, a.targetsᶜ⟩

theorem Op.Misses.within {ρ : Type} {c : Op Text ρ} (hc : c.Misses a) : c.Within a.rest := by
  cases c <;> first | exact hc | exact trivial

/-- **One call** that misses a plot. -/
theorem Op.Misses.sameOn [Ipnet] {ρ : Type} {c : Op Text ρ} (hc : c.Misses a) (x : Outcome Text)
    (h : Host Text) : SameOn a h (Host.call x c h).2 := by
  have hsame := hc.within.sameBut x h
  refine ⟨fun jail hjail => hsame.jails jail fun hnot => hnot hjail,
    fun epair hepair => hsame.epairs epair fun hnot => hnot hepair,
    fun target htarget => hsame.mounts target fun hnot => hnot htarget,
    fun dataset hdataset => h.mem_datasets_call_iff x ?_, h.busy_call x c⟩
  cases c with
  | cloneFromBase base target =>
    rintro rfl
    exact hc hdataset
  | createVolume d quota =>
    rintro rfl
    exact hc hdataset
  | destroyDataset d =>
    rintro rfl
    exact hc hdataset
  | _ => exact trivial

theorem Op.OfFile.misses {dir : Dir} {file : String} {ρ : Type} {c : Op Text ρ}
    (h : c.OfFile dir file) : c.Misses a := by
  cases c <;> first | exact trivial | exact h.elim

theorem Op.OfIngress.misses {ρ : Type} {c : Op Text ρ} (h : c.OfIngress) : c.Misses a := by
  cases c <;> first | exact trivial | exact h.elim

/-- A plot that has nothing of a jail. -/
structure Plot.Lacks (a : Plot) (pool name : String) (record : JailRecord) : Prop where
  jail : jailName name ∉ a.jails
  epair : epairBaseName record.epairOrdinal ∉ a.epairs
  targets : ∀ v ∈ record.spec.spec.volumes,
    mountTarget (jailRootfsPath pool name) v.mountPath ∉ a.targets
  dataset : jailDatasetPath pool name ∉ a.datasets
  volumes : ∀ v ∈ record.spec.spec.volumes, volumeDatasetPath pool v.name ∉ a.datasets

/-- What is done for a jail misses every such plot. -/
theorem Op.OfJail.misses {pool name : String} {record : JailRecord} {ρ : Type} {c : Op Text ρ}
    (h : c.OfJail pool name record) (ha : a.Lacks pool name record) : c.Misses a := by
  have hjail : ∀ {jail : String}, jail = jailName name → jail ∉ a.jails := by
    rintro _ rfl
    exact ha.jail
  have hepair : ∀ {epair : String}, epair = epairBaseName record.epairOrdinal →
      epair ∉ a.epairs := by
    rintro _ rfl
    exact ha.epair
  have htarget : ∀ {target : Path}, (∃ v ∈ record.spec.spec.volumes,
      target = mountTarget (jailRootfsPath pool name) v.mountPath) → target ∉ a.targets := by
    rintro _ ⟨v, hv, rfl⟩
    exact ha.targets v hv
  have hdataset : ∀ {dataset : String}, dataset = jailDatasetPath pool name →
      dataset ∉ a.datasets := by
    rintro _ rfl
    exact ha.dataset
  cases c with
  | create jail rootfs vnet => exact hjail h
  | startCommand jail command => exact hjail h
  | destroy jail => exact hjail h
  | setResourceLimits jail pcpuPercent memoryBytes => exact hjail h
  | removeResourceLimits jail => exact hjail h
  | cloneFromBase base target => exact hdataset h
  | createVolume dataset quota =>
    obtain ⟨v, hv, rfl⟩ := h
    exact ha.volumes v hv
  | destroyDataset dataset => exact hdataset h
  | attachJail jail bridge epair address => exact hepair h
  | detachJail epair => exact hepair h
  | mountNullfs source target => exact htarget h
  | unmount target => exact htarget h
  | _ => exact trivial

/-- **Jails are apart.** One jail's parts, with datasets that are not
another's, are a plot that has nothing of the other. -/
theorem Reconciler.Apart.lacks {r : Reconciler} (hr : r.Apart) {name other : String}
    {record record' : JailRecord} (hrecord : r.records.lookup name = some record)
    (hother : r.records.lookup other = some record') (hne : other ≠ name) {datasets : Set String}
    (hdataset : jailDatasetPath r.pool other ∉ datasets)
    (hvolumes : ∀ v ∈ record'.spec.spec.volumes, volumeDatasetPath r.pool v.name ∉ datasets) :
    Plot.Lacks { Parts.ofJail r.pool name record with datasets } r.pool other record' := by
  refine ⟨fun heq => hne (jailName_inj heq), fun heq => ?_, ?_, hdataset, hvolumes⟩
  · exact hr.distinct other name record' record hother hrecord hne (epairBaseName_inj heq)
  · rintro v' - ⟨v, -, heq⟩
    exact mountTarget_ne (hr.valid other record' hother) (hr.valid name record hrecord) hne
      v'.mountPath v.mountPath heq

/-- What the reconciler keeps for one jail is none of another's business. -/
theorem Reconciler.Apart.lacksJail {r : Reconciler} (hr : r.Apart) {name other : String}
    {record record' : JailRecord} (hrecord : r.records.lookup name = some record)
    (hother : r.records.lookup other = some record') (hne : other ≠ name) :
    (Plot.ofJail r.pool name record).Lacks r.pool other record' := by
  refine hr.lacks hrecord hother hne (fun heq => hne (jailDatasetPath_inj heq)) fun v _ heq => ?_
  exact jailDatasetPath_ne_volumeDatasetPath r.pool name v.name heq.symm

end Misses

end Node

end Keel
