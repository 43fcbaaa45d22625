import Keel.Node.Helpers.Files
/-!
# What a call leaves alone

Each manager keeps to its own part of the machine.
-/

namespace Keel

namespace Node

open Agent (JailRecord)

variable {Text : Type}

namespace Host

variable (h : Host Text)

theorem withJail_eq (name : String) (f : FakeJail → FakeJail) :
    ∃ jails, (h.withJail name f).2 = { h with jails } := by
  rw [withJail]
  split
  · exact ⟨h.jails, rfl⟩
  · exact ⟨_, rfl⟩

theorem destroy_eq (name : String) : ∃ jails, (h.destroy name).2 = { h with jails } := by
  rw [destroy]
  split
  · exact ⟨h.jails, rfl⟩
  · exact ⟨_, rfl⟩

theorem cloneFromBase_eq {base : String} (target : String) (hbase : base ∈ h.zfs.datasets) :
    ∃ rootfsFiles hiddenFiles, h.cloneFromBase base target = (.ok (), { h with
      zfs := { h.zfs with datasets := insert target h.zfs.datasets }
      rootfsFiles
      hiddenFiles }) := by
  rw [cloneFromBase, Agent.FakeZfsManager.cloneFromBase, if_pos hbase]
  exact ⟨_, _, rfl⟩

theorem destroyDataset_eq (dataset : String) :
    ∃ zfs rootfsFiles hiddenFiles,
      (h.destroyDataset dataset).2 = { h with zfs, rootfsFiles, hiddenFiles } := by
  rw [destroyDataset]
  split
  · exact ⟨_, _, _, rfl⟩
  · exact ⟨h.zfs, h.rootfsFiles, h.hiddenFiles, rfl⟩

theorem attachJail_eq [Ipnet] (name bridge epairBase address : String) :
    ∃ net, (h.attachJail name bridge epairBase address).2 = { h with net } := by
  rw [attachJail]
  split
  · split
    · exact ⟨h.net, rfl⟩
    · exact ⟨_, rfl⟩
  · exact ⟨h.net, rfl⟩

theorem unmount_eq (target : Path) : ∃ mounts, (h.unmount target).2 = { h with mounts } := by
  rw [unmount]
  split
  · exact ⟨_, rfl⟩
  · exact ⟨h.mounts, rfl⟩

theorem lookup_withJail (name : String) (f : FakeJail → FakeJail) (jail : String) :
    (h.withJail name f).2.jails.lookup jail =
      if jail = name then (h.jails.lookup jail).map f else h.jails.lookup jail := by
  rw [withJail]
  cases hname : h.jails.lookup name with
  | none =>
    simp only
    split
    · rename_i heq
      rw [heq, hname, Option.map_none]
    · rfl
  | some j =>
    simp only [Table.lookup_insert_eq]
    split
    · rename_i heq
      rw [heq, hname, Option.map_some]
    · rfl

theorem lookup_destroy (name jail : String) :
    (h.destroy name).2.jails.lookup jail = if jail = name then none else h.jails.lookup jail := by
  rw [destroy]
  cases hname : h.jails.lookup name with
  | none =>
    simp only
    split
    · rename_i heq
      rw [heq, hname]
    · rfl
  | some j => exact Table.lookup_erase_eq ..

theorem mem_unmount {target target' : Path} :
    target' ∈ (h.unmount target).2.mounts ↔ target' ≠ target ∧ target' ∈ h.mounts := by
  rw [unmount]
  split
  · exact Finset.mem_erase
  · rename_i hnot
    refine (and_iff_right_of_imp ?_).symm
    rintro hmem rfl
    exact hnot hmem

theorem mem_datasets_destroyDataset {dataset dataset' : String} (hne : dataset' ≠ dataset) :
    dataset' ∈ (h.destroyDataset dataset).2.zfs.datasets ↔ dataset' ∈ h.zfs.datasets := by
  rw [destroyDataset, Agent.FakeZfsManager.destroyDataset]
  by_cases hbusy : dataset ∈ h.zfs.busy
  · simp [hbusy]
  · by_cases hmem : dataset ∈ h.zfs.datasets
    · simp [hbusy, hmem, hne]
    · simp [hbusy, hmem]

theorem mem_datasets_cloneFromBase {base target dataset : String}
    (hmem : dataset ∈ h.zfs.datasets) : dataset ∈ (h.cloneFromBase base target).2.zfs.datasets := by
  rw [cloneFromBase, Agent.FakeZfsManager.cloneFromBase]
  by_cases hbase : base ∈ h.zfs.datasets
  · simp [hbase, hmem]
  · simp [hbase, hmem]

/-- What an attach leaves attached. -/
theorem lookup_attachJail [Ipnet] (name bridge epair address epair' : String) :
    (h.attachJail name bridge epair address).2.net.attachments.lookup epair' =
        h.net.attachments.lookup epair' ∨
      epair' = epair ∧ (h.attachJail name bridge epair address).2.net.attachments.lookup epair' =
        some (name, bridge, address) := by
  rw [attachJail]
  split
  · split
    · exact Or.inl rfl
    · simp only [Table.lookup_insert_eq]
      split
      · rename_i heq
        exact Or.inr ⟨heq, rfl⟩
      · exact Or.inl rfl
  · exact Or.inl rfl

/-- Files of one directory at most. -/
theorem setDir_eq (d : Dir) (files : Table Text) : ∃ stateDir ingressDir,
    h.setDir d files = { h with stateDir, ingressDir } ∧
      ∀ d', d ≠ d' → ({ h with stateDir, ingressDir } : Host Text).dir d' = h.dir d' := by
  cases d with
  | state =>
    refine ⟨files, h.ingressDir, rfl, fun d' hd => ?_⟩
    cases d' with
    | state => exact absurd rfl hd
    | ingress => rfl
  | ingress =>
    refine ⟨h.stateDir, files, rfl, fun d' hd => ?_⟩
    cases d' with
    | state => rfl
    | ingress => exact absurd rfl hd

theorem renameFile_eq (d : Dir) (old new : String) : ∃ stateDir ingressDir,
    (h.renameFile d old new).2 = { h with stateDir, ingressDir } ∧
      ∀ d', d ≠ d' → ({ h with stateDir, ingressDir } : Host Text).dir d' = h.dir d' := by
  rw [renameFile]
  split
  · exact ⟨h.stateDir, h.ingressDir, rfl, fun _ _ => rfl⟩
  · exact h.setDir_eq d _

theorem removeFile_eq (d : Dir) (file : String) : ∃ stateDir ingressDir,
    (h.removeFile d file).2 = { h with stateDir, ingressDir } ∧
      ∀ d', d ≠ d' → ({ h with stateDir, ingressDir } : Host Text).dir d' = h.dir d' := by
  rw [removeFile]
  split
  · exact h.setDir_eq d _
  · exact ⟨h.stateDir, h.ingressDir, rfl, fun _ _ => rfl⟩

end Host

theorem Outcome.unlessFails_snd {α ε : Type} (o : Outcome Text) (h : Host Text)
    (error : String → ε) (result : Except ε α × Host Text) :
    (o.unlessFails h error result).2 = h ∨ (o.unlessFails h error result).2 = result.2 := by
  rw [unlessFails]
  cases o.fails with
  | some m => exact Or.inl rfl
  | none => exact Or.inr rfl

/-- What a write leaves of what it writes. -/
def Outcome.written (x : Outcome Text) (content : Text) : Text :=
  match x.fails with
  | none => content
  | some _ => x.left.getD content

/-- What a call does to the machine when it does something. -/
def Op.effect [Ipnet] (x : Outcome Text) : {ρ : Type} → Op Text ρ → Host Text → Host Text
  | _, .create name rootfs vnet, h => h.create name rootfs vnet
  | _, .startCommand name command, h =>
    (h.withJail name fun jail => { jail with running := true, command := some command }).2
  | _, .destroy name, h => (h.destroy name).2
  | _, .setResourceLimits name pcpuPercent memoryBytes, h => (h.withJail name fun jail =>
      { jail with pcpuPercent := some pcpuPercent, memoryBytes := some memoryBytes }).2
  | _, .removeResourceLimits name, h => (h.withJail name fun jail =>
      { jail with pcpuPercent := none, memoryBytes := none }).2
  | _, .cloneFromBase baseDataset targetDataset, h =>
    (h.cloneFromBase baseDataset targetDataset).2
  | _, .createVolume dataset _, h => { h with zfs := h.zfs.createVolume dataset }
  | _, .destroyDataset dataset, h => (h.destroyDataset dataset).2
  | _, .ensureBridgeExists bridge, h =>
    { h with net := { h.net with bridges := insert bridge h.net.bridges } }
  | _, .attachJail name bridge epairBase address, h =>
    (h.attachJail name bridge epairBase address).2
  | _, .detachJail epairBase, h =>
    { h with net := { h.net with attachments := h.net.attachments.erase epairBase } }
  | _, .mountNullfs _ target, h => { h with mounts := insert target h.mounts }
  | _, .unmount target, h => (h.unmount target).2
  | _, .writeFile d file content, h => h.setDir d ((h.dir d).insert file (x.written content))
  | _, .renameFile d old new, h => (h.renameFile d old new).2
  | _, .removeFile d file, h => (h.removeFile d file).2
  | _, .writeRootfsFile path content, h =>
    h.writeRootfsFile path (if x.fails = none then content else x.torn.getD content)
  | _, .writeConfig name config, h => { h with nginxConfig := h.nginxConfig.insert name config }
  | _, c, h => (Host.call { x with fails := none } c h).2

/-- **A call** leaves the machine as it was, or has its effect. -/
theorem Host.call_snd [Ipnet] {ρ : Type} (x : Outcome Text) (c : Op Text ρ) (h : Host Text) :
    (Host.call x c h).2 = h ∨ (Host.call x c h).2 = c.effect x h := by
  cases c with
  | attachJail name bridge epairBase address =>
    rw [Host.call]
    split
    · exact Or.inl rfl
    · exact Or.inr rfl
  | writeFile d file content =>
    rw [Host.call, Op.effect, Outcome.written]
    split
    · rename_i hfails
      rw [hfails]
      exact Or.inr rfl
    · exact Or.inl rfl
    · rename_i hfails hleft
      rw [hfails, hleft]
      exact Or.inr rfl
  | writeRootfsFile path content =>
    rw [Host.call, Op.effect]
    split
    · rename_i hfails
      rw [if_pos hfails]
      exact Or.inr rfl
    · exact Or.inl rfl
    · rename_i hfails htorn
      rw [if_neg (by rw [hfails]; exact Option.some_ne_none _), htorn]
      exact Or.inr rfl
  | isFile path => exact Or.inl rfl
  | instantNow => exact Or.inl rfl
  | serviceVip service => exact Or.inl rfl
  | _ => exact Outcome.unlessFails_snd ..

/-! ## Asking memory -/

theorem wp_find {O W : Type} {out : Outside (Op Text) O Reconciler W} {name : String}
    {Q : Except ReconcileError JailRecord → Reconciler → Trace (Op Text) W → Prop}
    {X : Stop → Trace (Op Text) W → Prop} {r : Reconciler} {t : Trace (Op Text) W}
    (hsome : ∀ record, r.records.lookup name = some record → Q (.ok record) r t)
    (hnone : r.records.lookup name = none → Q (.error (.notFound name)) r t) :
    (Reconciler.find name : Method Text JailRecord).wp out Q X r t := by
  rw [Reconciler.find, Proc.bind_eq, Proc.wp_bind, Proc.wp_get]
  cases hlookup : r.records.lookup name with
  | none =>
    simp only [hlookup]
    exact hnone hlookup
  | some record =>
    simp only [hlookup]
    exact hsome record hlookup

/-- The cooldown of a jail, that of a new one if there is none yet. -/
def Reconciler.cooldown (r : Reconciler) (name : String) : BackoffState :=
  (r.backoff.lookup name).getD .new

/-- The cooldown is looked at, and on the books from then on. -/
theorem wp_checkCooldown {O W : Type} {out : Outside (Op Text) O Reconciler W} {name : String}
    {now : ℕ} {Q : Except ReconcileError Bool → Reconciler → Trace (Op Text) W → Prop}
    {X : Stop → Trace (Op Text) W → Prop} {r : Reconciler} {t : Trace (Op Text) W}
    (hQ : ∀ r', r.AgreesBut name r' → r'.backoff.lookup name = some (r.cooldown name) →
      Q (.ok ((r.cooldown name).canRetry now)) r' t) :
    (Reconciler.checkCooldown name now : Method Text Bool).wp out Q X r t := by
  rw [Reconciler.checkCooldown, Proc.wp]
  rw [Reconciler.cooldown] at hQ
  cases hlookup : r.backoff.lookup name with
  | some b =>
    rw [hlookup] at hQ
    exact hQ r (.refl name r) hlookup
  | none =>
    rw [hlookup] at hQ
    refine hQ _ ((Reconciler.AgreesBut.refl name r).setBackoff fun m hm => ?_) ?_
    · exact AList.lookup_insert_ne hm
    · exact AList.lookup_insert _

/-! ## The directories -/

/-- A call that writes no file of a directory. -/
def Op.Leaves (dir : Dir) : {ρ : Type} → Op Text ρ → Prop
  | _, .writeFile d _ _ => d ≠ dir
  | _, .renameFile d _ _ => d ≠ dir
  | _, .removeFile d _ => d ≠ dir
  | _, _ => True

theorem Host.dir_call [Ipnet] {dir : Dir} {ρ : Type} (x : Outcome Text) {c : Op Text ρ}
    (h : Host Text) (hc : c.Leaves dir) : (Host.call x c h).2.dir dir = h.dir dir := by
  have hsame : ∀ {jails zfs net mounts rootfsFiles hiddenFiles nginxConfig},
      ({ h with jails, zfs, net, mounts, rootfsFiles, hiddenFiles, nginxConfig } : Host Text).dir
        dir = h.dir dir := by
    intro jails zfs net mounts rootfsFiles hiddenFiles nginxConfig
    cases dir with
    | state => rfl
    | ingress => rfl
  rcases Host.call_snd x c h with heq | heq
  · rw [heq]
  rw [heq]
  cases c with
  | startCommand name command =>
    obtain ⟨jails, hjails⟩ := h.withJail_eq name
      fun jail => { jail with running := true, command := some command }
    rw [Op.effect, hjails]
    exact hsame
  | setResourceLimits name pcpuPercent memoryBytes =>
    obtain ⟨jails, hjails⟩ := h.withJail_eq name fun jail =>
      { jail with pcpuPercent := some pcpuPercent, memoryBytes := some memoryBytes }
    rw [Op.effect, hjails]
    exact hsame
  | removeResourceLimits name =>
    obtain ⟨jails, hjails⟩ := h.withJail_eq name fun jail =>
      { jail with pcpuPercent := none, memoryBytes := none }
    rw [Op.effect, hjails]
    exact hsame
  | destroy name =>
    obtain ⟨jails, hjails⟩ := h.destroy_eq name
    rw [Op.effect, hjails]
    exact hsame
  | destroyDataset dataset =>
    obtain ⟨zfs, files, hidden, hzfs⟩ := h.destroyDataset_eq dataset
    rw [Op.effect, hzfs]
    exact hsame
  | attachJail name bridge epairBase address =>
    obtain ⟨net, hnet⟩ := h.attachJail_eq name bridge epairBase address
    rw [Op.effect, hnet]
    exact hsame
  | unmount target =>
    obtain ⟨mounts, hmounts⟩ := h.unmount_eq target
    rw [Op.effect, hmounts]
    exact hsame
  | writeFile d file content =>
    obtain ⟨stateDir, ingressDir, hdir, hstate⟩ :=
      h.setDir_eq d ((h.dir d).insert file (x.written content))
    rw [Op.effect, hdir]
    exact hstate dir hc
  | renameFile d old new =>
    obtain ⟨stateDir, ingressDir, hdir, hstate⟩ := h.renameFile_eq d old new
    rw [Op.effect, hdir]
    exact hstate dir hc
  | removeFile d file =>
    obtain ⟨stateDir, ingressDir, hdir, hstate⟩ := h.removeFile_eq d file
    rw [Op.effect, hdir]
    exact hstate dir hc
  | _ => exact hsame

end Node

end Keel
