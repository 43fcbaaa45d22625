import Keel.Agent.Helpers.Agreement
import Keel.Node.Helpers.Ledger
import Keel.Node.Volumes
/-!
# What methods do to records and volumes

The calls of a method, by what they can do to the two things that outlive
a process: the files of the records, and the volumes. What is left is a
call that writes no record, destroys no volume, and creates none but
those of a set (`Op.Tends`). A machine such calls have been made on has
the same files, and the volumes it had and perhaps some of the set
(`Tended`).
-/

namespace Keel

namespace Node

open Agent (JailRecord volumeDatasetPath volumes FakeZfsManager)

variable {Text : Type}

/-- A call that writes no record, and that does nothing to a volume but to
create one of `V`. -/
def Op.Tends (pool : String) (V : Set String) : {ρ : Type} → Op Text ρ → Prop
  | _, .createVolume dataset _ => ∃ v ∈ V, dataset = volumeDatasetPath pool v
  | _, .cloneFromBase _ target => target ∉ volumes pool
  | _, .destroyDataset dataset => dataset ∉ volumes pool
  | _, .writeFile dir _ _ => dir ≠ .state
  | _, .renameFile dir _ _ => dir ≠ .state
  | _, .removeFile dir _ => dir ≠ .state
  | _, _ => True

theorem jailDatasetPath_notMem_volumes (pool name : String) :
    jailDatasetPath pool name ∉ volumes pool := by
  rintro ⟨volume, hvolume⟩
  exact jailDatasetPath_ne_volumeDatasetPath pool name volume hvolume.symm

theorem Op.OfJail.tends {pool name : String} {record : JailRecord} {V : Set String}
    (hV : ∀ v ∈ record.spec.spec.volumes, v.name ∈ V) {ρ : Type} {c : Op Text ρ}
    (h : c.OfJail pool name record) : c.Tends pool V := by
  cases c with
  | createVolume dataset quota =>
    obtain ⟨v, hv, hdataset⟩ := h
    exact ⟨v.name, hV v hv, hdataset⟩
  | cloneFromBase base target =>
    rw [show target = _ from h]
    exact jailDatasetPath_notMem_volumes pool name
  | destroyDataset dataset =>
    rw [show dataset = _ from h]
    exact jailDatasetPath_notMem_volumes pool name
  | _ => first | exact trivial | exact h.elim

theorem Op.OfIngress.tends {pool : String} {V : Set String} {ρ : Type} {c : Op Text ρ}
    (h : c.OfIngress) : c.Tends pool V := by
  have hother : ∀ {d : Dir}, d = .ingress → d ≠ .state := by
    rintro d rfl hd
    cases hd
  cases c <;> first | exact trivial | exact h.elim | exact hother h

theorem Op.Asks.tends {pool : String} {V : Set String} {ρ : Type} {c : Op Text ρ} (h : c.Asks) :
    c.Tends pool V := by
  cases c <;> first | exact trivial | exact h.elim

/-- The files of the records as they were, and the volumes, with some of
`V` added. -/
structure Tended (pool : String) (V : Set String) (h₀ h : Host Text) : Prop where
  stateDir : h.stateDir = h₀.stateDir
  kept : ∀ name, volumeDatasetPath pool name ∈ h₀.zfs.datasets →
    volumeDatasetPath pool name ∈ h.zfs.datasets
  created : ∀ name, volumeDatasetPath pool name ∈ h.zfs.datasets →
    volumeDatasetPath pool name ∈ h₀.zfs.datasets ∨ name ∈ V
  snapshots : h.zfs.snapshots = h₀.zfs.snapshots
  busy : h.zfs.busy = h₀.zfs.busy

namespace Tended

variable {pool : String} {V : Set String} {h₀ h h' : Host Text}

theorem refl (pool : String) (V : Set String) (h : Host Text) : Tended pool V h h :=
  ⟨rfl, fun _ hname => hname, fun _ hname => Or.inl hname, rfl, rfl⟩

/-- Other jails, networks, mounts and files elsewhere do not matter. -/
theorem of_same (ht : Tended pool V h₀ h) (hdir : h'.stateDir = h.stateDir)
    (hzfs : h'.zfs = h.zfs) :
    Tended pool V h₀ h' := by
  refine ⟨hdir.trans ht.stateDir, fun name hname => ?_, fun name hname => ?_, ?_, ?_⟩
  · rw [hzfs]
    exact ht.kept name hname
  · rw [hzfs] at hname
    exact ht.created name hname
  · rw [hzfs]
    exact ht.snapshots
  · rw [hzfs]
    exact ht.busy

theorem of_datasets (ht : Tended pool V h₀ h) (datasets : Finset String)
    (hdir : h'.stateDir = h.stateDir) (hzfs : h'.zfs = { h.zfs with datasets })
    (hdatasets : ∀ name, (volumeDatasetPath pool name ∈ datasets ↔
      volumeDatasetPath pool name ∈ h.zfs.datasets ∨
        volumeDatasetPath pool name ∈ datasets ∧ name ∈ V)) : Tended pool V h₀ h' := by
  refine ⟨hdir.trans ht.stateDir, fun name hname => ?_, fun name hname => ?_, ?_, ?_⟩
  · rw [hzfs]
    exact (hdatasets name).2 (Or.inl (ht.kept name hname))
  · rw [hzfs] at hname
    rcases (hdatasets name).1 hname with hbefore | ⟨-, hV⟩
    · exact ht.created name hbefore
    · exact Or.inr hV
  · rw [hzfs]
    exact ht.snapshots
  · rw [hzfs]
    exact ht.busy

/-- The same volumes, and others. -/
theorem agreeOn (ht : Tended pool ∅ h₀ h) : h.zfs.AgreeOn (volumes pool) h₀.zfs := by
  refine ⟨?_, fun d _ name => by rw [ht.snapshots], fun d _ => by rw [ht.busy]⟩
  rintro _ ⟨name, rfl⟩
  refine ⟨fun hname => ?_, ht.kept name⟩
  exact (ht.created name hname).resolve_right (Set.notMem_empty name)

/-- **One call.** -/
theorem call [Ipnet] (ht : Tended pool V h₀ h) {ρ : Type} (x : Outcome Text) {c : Op Text ρ}
    (hc : c.Tends pool V) : Tended pool V h₀ (Host.call x c h).2 := by
  rcases Host.call_snd x c h with heq | heq
  · rw [heq]
    exact ht
  rw [heq]
  cases c with
  | startCommand name command =>
    obtain ⟨jails, hjails⟩ := h.withJail_eq name
      fun jail => { jail with running := true, command := some command }
    rw [Op.effect, hjails]
    exact ht.of_same rfl rfl
  | setResourceLimits name pcpuPercent memoryBytes =>
    obtain ⟨jails, hjails⟩ := h.withJail_eq name fun jail =>
      { jail with pcpuPercent := some pcpuPercent, memoryBytes := some memoryBytes }
    rw [Op.effect, hjails]
    exact ht.of_same rfl rfl
  | removeResourceLimits name =>
    obtain ⟨jails, hjails⟩ := h.withJail_eq name fun jail =>
      { jail with pcpuPercent := none, memoryBytes := none }
    rw [Op.effect, hjails]
    exact ht.of_same rfl rfl
  | destroy name =>
    obtain ⟨jails, hjails⟩ := h.destroy_eq name
    rw [Op.effect, hjails]
    exact ht.of_same rfl rfl
  | attachJail name bridge epairBase address =>
    obtain ⟨net, hnet⟩ := h.attachJail_eq name bridge epairBase address
    rw [Op.effect, hnet]
    exact ht.of_same rfl rfl
  | unmount target =>
    obtain ⟨mounts, hmounts⟩ := h.unmount_eq target
    rw [Op.effect, hmounts]
    exact ht.of_same rfl rfl
  | writeFile d file content =>
    cases d with
    | state => exact absurd rfl hc
    | ingress => exact ht.of_same rfl rfl
  | renameFile d old new =>
    obtain ⟨stateDir, ingressDir, hdir, hother⟩ := h.renameFile_eq d old new
    rw [Op.effect, hdir]
    exact ht.of_same (hother .state hc) rfl
  | removeFile d file =>
    obtain ⟨stateDir, ingressDir, hdir, hother⟩ := h.removeFile_eq d file
    rw [Op.effect, hdir]
    exact ht.of_same (hother .state hc) rfl
  | createVolume dataset quota =>
    obtain ⟨v, hv, rfl⟩ := hc
    refine ht.of_datasets (insert (volumeDatasetPath pool v) h.zfs.datasets) rfl rfl
      fun name => ?_
    rw [Finset.mem_insert, Agent.volumeDatasetPath_inj]
    constructor
    · rintro (rfl | hname)
      · exact Or.inr ⟨Or.inl rfl, hv⟩
      · exact Or.inl hname
    · rintro (hname | ⟨hname, -⟩)
      · exact Or.inr hname
      · exact hname
  | cloneFromBase base target =>
    have hagree : (h.zfs.cloneFromBase base target).2.AgreeOn _ h.zfs :=
      FakeZfsManager.agreeOn_cloneFromBase hc
    refine ⟨ht.stateDir, fun name hname => ?_, fun name hname => ?_, ?_, ?_⟩
    · exact (hagree.datasets _ ⟨name, rfl⟩).2 (ht.kept name hname)
    · exact ht.created name ((hagree.datasets _ ⟨name, rfl⟩).1 hname)
    · refine Eq.trans ?_ ht.snapshots
      simp only [Op.effect, Host.cloneFromBase, FakeZfsManager.cloneFromBase]
      split <;> rfl
    · refine Eq.trans ?_ ht.busy
      simp only [Op.effect, Host.cloneFromBase, FakeZfsManager.cloneFromBase]
      split <;> rfl
  | destroyDataset dataset =>
    have hdatasets : ∀ name,
        volumeDatasetPath pool name ∈ (h.destroyDataset dataset).2.zfs.datasets ↔
        volumeDatasetPath pool name ∈ h.zfs.datasets := by
      intro name
      refine h.mem_datasets_destroyDataset ?_
      rintro rfl
      exact hc ⟨name, rfl⟩
    have hrest : (h.destroyDataset dataset).2.zfs.snapshots = h.zfs.snapshots ∧
        (h.destroyDataset dataset).2.zfs.busy = h.zfs.busy ∧
          (h.destroyDataset dataset).2.stateDir = h.stateDir := by
      rw [Host.destroyDataset, FakeZfsManager.destroyDataset]
      by_cases hbusy : dataset ∈ h.zfs.busy
      · rw [if_pos hbusy]
        exact ⟨rfl, rfl, rfl⟩
      rw [if_neg hbusy]
      split
      · rename_i heq
        split at heq
        · cases heq
          exact ⟨rfl, rfl, rfl⟩
        · cases heq
      · exact ⟨rfl, rfl, rfl⟩
    exact ⟨hrest.2.2.trans ht.stateDir, fun name hname => (hdatasets name).2 (ht.kept name hname),
      fun name hname => ht.created name ((hdatasets name).1 hname), hrest.1.trans ht.snapshots,
      hrest.2.1.trans ht.busy⟩
  | _ => exact ht.of_same rfl rfl

end Tended

/-! ## Methods that tend -/

section Methods

variable [Ipnet]
variable {allows : {ρ : Type} → Outcome Text → Op Text ρ → Reconciler → Host Text → Prop}
variable {r : Reconciler} {t : Trace (Op Text) (Host Text)} {α : Type}

/-- **A method that tends** leaves the machine tended, wherever it is cut
off. -/
theorem wp_tends {pool : String} {V : Set String} {m : Method Text α} {K : Reconciler → Prop}
    (hm : m.Keeps (Op.Tends pool V) (fun _ _ => True) True K) (hr : K r) :
    m.wp (Host.under allows) (fun _ r' t' => K r' ∧ Tended pool V t.world t'.world)
      (fun _ t' => Tended pool V t.world t'.world) r t := by
  refine Proc.wp_mono ?_ ?_ (Proc.wp_of_makes (I := Tended pool V t.world) ?_ (hm r hr)
    (.refl pool V t.world) t.since_self)
  · rintro _ r' t' ⟨hr', ht', -⟩
    exact ⟨hr', ht'⟩
  · rintro _ t' ⟨-, ht', -⟩
    exact ht'
  · intro ρ x c s w hc hw _
    exact ⟨trivial, hw.call x hc⟩

variable {R : {ρ : Type} → Op Text ρ → ρ → Prop} {N : Prop} {K : Reconciler → Prop}

omit [Ipnet] in
/-- Tearing a jail down creates no volume. -/
theorem tends_tearDownJail {pool name : String} {record : JailRecord} :
    (Reconciler.tearDownJail pool name record : Method Text Unit).Keeps (Op.Tends pool ∅) R N
      K := by
  refine Proc.keeps_bind (Proc.keeps_tryCall trivial) fun _ => ?_
  refine Proc.keeps_bind (Reconciler.keeps_tearDown trivial) fun _ => ?_
  refine Proc.keeps_bind
    (Proc.keeps_forEach fun v hv => Reconciler.keeps_tearDown trivial) fun _ => ?_
  refine Proc.keeps_bind (Reconciler.keeps_tearDown ?_) fun _ => Reconciler.keeps_tearDown trivial
  exact jailDatasetPath_notMem_volumes pool name

/-- The reconciler of the same pool, with the same records and next
ordinal. -/
def Steady (r r' : Reconciler) : Prop :=
  r'.pool = r.pool ∧ r'.records = r.records ∧ r'.nextEpairOrdinal = r.nextEpairOrdinal

/-- The volumes of the records. -/
def Reconciler.volumeNames (r : Reconciler) : Set String :=
  { v | ∃ name record, r.records.lookup name = some record ∧
    v ∈ record.spec.spec.volumes.map VolumeMount.name }

omit [Ipnet] in
theorem tends_of_ofIngress {pool : String} {V : Set String} {m : Method Text α}
    (hm : ∀ r₀, m.Keeps Op.OfIngress (fun _ _ => True) True (Reconciler.AgreesOnJails r₀)) :
    m.Keeps (Op.Tends pool V) (fun _ _ => True) True (Steady r) :=
  Reconciler.keeps_of_ofIngress hm (fun _ => Op.OfIngress.tends) fun _ _ hr hr' =>
    ⟨hr'.pool.trans hr.1, hr'.records.trans hr.2.1, hr'.nextEpairOrdinal.trans hr.2.2⟩

omit [Ipnet] in
/-- A pass over the jails creates volumes of the records at most. -/
theorem tends_reconcileAll {now : ℕ} {names : List String} :
    (Reconciler.reconcileAll now names : Method Text _).Keeps (Op.Tends r.pool r.volumeNames)
      (fun _ _ => True) True (Steady r) := by
  refine Reconciler.keeps_reconcileAll fun name _ => Reconciler.keeps_reconcileOne ?_ ?_ ?_
  · rintro r' record hr' hrecord ρ c hc
    rw [hr'.1] at hc
    rw [hr'.2.1] at hrecord
    refine Op.OfJail.tends (V := r.volumeNames) (fun v hv => ?_) hc
    exact ⟨name, record, hrecord, List.mem_map_of_mem hv⟩
  · intro r' r'' hr' hr''
    exact ⟨hr''.pool.trans hr'.1, hr''.records.trans hr'.2.1,
      hr''.nextEpairOrdinal.trans hr'.2.2⟩
  · exact fun _ _ => ⟨fun _ => trivial, fun _ _ _ _ _ _ _ => trivial⟩

end Methods

end Node

end Keel
