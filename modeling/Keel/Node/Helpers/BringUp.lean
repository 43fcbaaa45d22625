import Keel.Node.Helpers.Sturdy
/-!
# Bringing a jail up

What a jail is when it is as its record says. A provisioning and a restart
leave it so, where no call fails.
-/

namespace Keel

namespace Node

open Agent (JailRecord volumeDatasetPath)

variable {Text : Type}

/-! ## A jail as its record says -/

/-- The epair of a jail is on its bridge, under its address. -/
def Attached (name : String) (record : JailRecord) (h : Host Text) : Prop :=
  h.net.attachments.lookup (epairBaseName record.epairOrdinal) =
    some (jailName name, record.spec.spec.network.bridge, record.spec.spec.network.address)

/-- Every volume is mounted where it belongs. -/
def Mounted (pool name : String) (record : JailRecord) (h : Host Text) : Prop :=
  ∀ v ∈ record.spec.spec.volumes,
    mountTarget (jailRootfsPath pool name) v.mountPath ∈ h.mounts

/-- The limits of a jail are those of its spec. -/
def Limited (record : JailRecord) (jail : FakeJail) : Prop :=
  ∃ cores memoryBytes, parseCpuCores record.spec.spec.resources.cpu = .ok cores ∧
    parseMemoryBytes record.spec.spec.resources.memory = .ok memoryBytes ∧
    jail.pcpuPercent = some (coresToPcpuPercent cores) ∧ jail.memoryBytes = some memoryBytes

/-- A jail that has been set up: its network, its limits, its command. -/
structure Wired (name : String) (record : JailRecord) (h : Host Text) (jail : FakeJail) : Prop where
  attached : Attached name record h
  limited : Limited record jail
  started : jail.command = some record.spec.spec.command

/-- **As its record says**: there, set up, with its volumes, and running
unless it is not to be started again. -/
def Converged (pool name : String) (record : JailRecord) (h : Host Text) : Prop :=
  ∃ jail, h.jails.lookup (jailName name) = some jail ∧ Mounted pool name record h ∧
    Wired name record h jail ∧
    (jail.running = true ∨ record.spec.spec.restartPolicy = .never)

/-- A jail that runs, as it was set up, on a virtual network of its own or
not. -/
def Up (pool name : String) (record : JailRecord) (vnet : Bool) (h : Host Text) : Prop :=
  ∃ jail, h.jails.lookup (jailName name) = some jail ∧ jail.running = true ∧ jail.vnet = vnet ∧
    Mounted pool name record h ∧ Wired name record h jail

/-- **Provisioned**: its dataset is there, and the jail is up as its record
says. -/
structure Provisioned (pool name : String) (record : JailRecord) (h : Host Text) : Prop where
  dataset : jailDatasetPath pool name ∈ h.zfs.datasets
  up : Up pool name record record.spec.spec.network.vnet h

/-! ## Its network and its limits -/

section Configure

variable [Ipnet] {allows : {ρ : Type} → Outcome Text → Op Text ρ → Reconciler → Host Text → Prop}
variable {name : String} {record : JailRecord} {r : Reconciler} {t : Trace (Op Text) (Host Text)}

omit [Ipnet] in
/-- What setting up a jail leaves as it was. -/
structure Adjusted (name : String) (h h' : Host Text) : Prop where
  jail : ∀ jail, h.jails.lookup (jailName name) = some jail → ∃ jail',
    h'.jails.lookup (jailName name) = some jail' ∧ jail'.running = jail.running ∧
      jail'.vnet = jail.vnet ∧ jail'.command = jail.command
  mounts : h'.mounts = h.mounts
  zfs : h'.zfs = h.zfs

omit [Ipnet] in
theorem Adjusted.of_net (h : Host Text) (net : FakeNetManager) :
    Adjusted name h { h with net } :=
  ⟨fun jail hjail => ⟨jail, hjail, rfl, rfl, rfl⟩, rfl, rfl⟩

omit [Ipnet] in
theorem Adjusted.refl (h : Host Text) : Adjusted name h h := .of_net h h.net

omit [Ipnet] in
theorem Adjusted.trans {h h' h'' : Host Text} (h₁ : Adjusted name h h')
    (h₂ : Adjusted name h' h'') : Adjusted name h h'' := by
  refine ⟨fun jail hjail => ?_, h₂.mounts.trans h₁.mounts, h₂.zfs.trans h₁.zfs⟩
  obtain ⟨jail₁, hjail₁, hrunning₁, hvnet₁, hcommand₁⟩ := h₁.jail jail hjail
  obtain ⟨jail₂, hjail₂, hrunning₂, hvnet₂, hcommand₂⟩ := h₂.jail jail₁ hjail₁
  exact ⟨jail₂, hjail₂, hrunning₂.trans hrunning₁, hvnet₂.trans hvnet₁,
    hcommand₂.trans hcommand₁⟩

/-- The limits of a jail that is there are set, unless the call fails. -/
theorem wp_setLimits (hvalid : Validated record)
    (hjail : (t.world.jails.lookup (jailName name)).isSome) :
    (Reconciler.setLimits name record : Method Text Unit).wp (Host.under allows)
      (fun result r' t' => r' = r ∧ Adjusted name t.world t'.world ∧
        t'.world.net = t.world.net ∧
        ((∃ e, result = .error e ∧ Fallible allows ∧ t'.world = t.world) ∨
          result = .ok () ∧ ∃ jail, t'.world.jails.lookup (jailName name) = some jail ∧
            Limited record jail))
      (fun x _ => x = .crashed) r t := by
  obtain ⟨⟨cores, hcores⟩, memoryBytes, hmemory⟩ := hvalid.resources
  obtain ⟨jail, hjail⟩ := Option.isSome_iff_exists.1 hjail
  let f : FakeJail → FakeJail := fun jail =>
    { jail with pcpuPercent := some (coresToPcpuPercent cores), memoryBytes := some memoryBytes }
  have hset : t.world.withJail (jailName name) (fun jail => { jail with
      pcpuPercent := some (coresToPcpuPercent cores), memoryBytes := some memoryBytes }) =
      (.ok (), { t.world with jails := t.world.jails.insert (jailName name) (f jail) }) := by
    rw [Host.withJail, hjail]
  have hlookup : (t.world.jails.insert (jailName name) (f jail)).lookup (jailName name) =
      some (f jail) := AList.lookup_insert _
  rw [Reconciler.setLimits, hcores, hmemory]
  simp only [Proc.ofExcept, Proc.bind_eq, Proc.ret_bind]
  refine wp_tryCall (fun _ => rfl) rfl ?_ ?_ ?_
  · exact fun x m hx hfails =>
      ⟨rfl, .refl _, rfl, Or.inl ⟨_, rfl, fallible_of_fails hx hfails, rfl⟩⟩
  · intro _ _
    rw [hset]
    refine ⟨rfl, ⟨fun jail' hjail' => ⟨f jail, hlookup, ?_⟩, rfl, rfl⟩, rfl,
      Or.inr ⟨rfl, f jail, hlookup, cores, memoryBytes, hcores, hmemory, rfl, rfl⟩⟩
    cases hjail.symm.trans hjail'
    exact ⟨rfl, rfl, rfl⟩
  · intro e he
    rw [hset] at he
    cases he

/-- An epair is attached to a bridge that is there, unless the call
fails. -/
theorem wp_attachJail {jail bridge epair address : String} (hfits : GatewayFits address)
    (hbridge : bridge ∈ t.world.net.bridges) :
    (Reconciler.attachJail jail bridge epair address : Method Text Unit).wp (Host.under allows)
      (fun result r' t' => r' = r ∧ ∃ net, t'.world = { t.world with net } ∧
        ((∃ e, result = .error e ∧ Fallible allows) ∨
          result = .ok () ∧ net.attachments.lookup epair = some (jail, bridge, address)))
      (fun x _ => x = .crashed) r t := by
  obtain ⟨gateway, hgateway⟩ := exists_bridgeGateway_iff.2 hfits
  rw [Reconciler.attachJail]
  simp only [Proc.bind_eq]
  refine Proc.wp_bind.2 ⟨rfl, fun x hx => ?_⟩
  cases hfails : x.fails with
  | some m =>
    have hcall : (Host.under allows).call x (.attachJail jail bridge epair address) t.world =
        (.ok (.error (.commandFailed m)), t.world) := by
      simp only [Host.under, Host.call, hfails]
    simp only [Outside.after, hcall]
    exact ⟨rfl, t.world.net, rfl, Or.inl ⟨_, rfl, fallible_of_fails hx hfails⟩⟩
  | none =>
    have hcall : (Host.under allows).call x (.attachJail jail bridge epair address) t.world =
        (.ok (.ok ()), { t.world with net := { t.world.net with
          bridgeAddresses := t.world.net.bridgeAddresses.insert bridge gateway
          attachments := t.world.net.attachments.insert epair (jail, bridge, address) } }) := by
      simp only [Host.under, Host.call, hfails, Host.attachJail, hgateway, if_pos hbridge]
    simp only [Outside.after, hcall]
    exact ⟨rfl, _, rfl, Or.inr ⟨rfl, AList.lookup_insert _⟩⟩

/-- **The network and the limits** of a jail that is there. -/
theorem wp_configureNetworkingAndLimits (hvalid : Validated record)
    (hfits : GatewayFits record.spec.spec.network.address)
    (hjail : (t.world.jails.lookup (jailName name)).isSome) :
    (Reconciler.configureNetworkingAndLimits name record : Method Text Unit).wp (Host.under allows)
      (fun result r' t' => r' = r ∧ Adjusted name t.world t'.world ∧
        ((∃ e, result = .error e ∧ Fallible allows) ∨
          result = .ok () ∧ Attached name record t'.world ∧
            ∃ jail, t'.world.jails.lookup (jailName name) = some jail ∧ Limited record jail))
      (fun x _ => x = .crashed) r t := by
  rw [Reconciler.configureNetworkingAndLimits]
  simp only [Proc.bind_eq]
  rw [Proc.wp_bind]
  refine wp_tryCall (fun _ => rfl) rfl ?_ ?_ fun e he => by cases he
  · exact fun x m hx hfails => ⟨rfl, .refl _, Or.inl ⟨_, rfl, fallible_of_fails hx hfails⟩⟩
  intro _ _
  dsimp only
  refine Proc.wp_seq (wp_attachJail hfits (Finset.mem_insert_self _ _)) ?_ ?_ fun _ _ hx => hx
  · rintro _ r₁ t₁ ⟨hr₁, net, ht₁, hattached⟩
    rcases hattached with ⟨e, he, -⟩ | ⟨-, hattached⟩
    · cases he
    have hjail₁ : (t₁.world.jails.lookup (jailName name)).isSome := by
      rw [ht₁]
      exact hjail
    refine Proc.wp_mono ?_ (fun _ _ hx => hx) (wp_setLimits hvalid hjail₁)
    rintro result r₂ t₂ ⟨hr₂, hadjusted, hnet, hresult⟩
    refine ⟨hr₂.trans hr₁, ?_, ?_⟩
    · rw [ht₁] at hadjusted
      exact (Adjusted.of_net t.world net).trans hadjusted
    · rcases hresult with ⟨e, he, hfallible, -⟩ | ⟨hok, hlimited⟩
      · exact Or.inl ⟨e, he, hfallible⟩
      · refine Or.inr ⟨hok, ?_, hlimited⟩
        rw [Attached, hnet, ht₁]
        exact hattached
  · rintro e r₁ t₁ ⟨hr₁, net, ht₁, hattached⟩
    rcases hattached with ⟨e', he, hfallible⟩ | ⟨hok, -⟩
    · refine ⟨hr₁, ?_, Or.inl ⟨_, rfl, hfallible⟩⟩
      rw [ht₁]
      exact .of_net t.world net
    · cases hok

/-- **A restart** of a jail that is there. -/
theorem wp_restart (hvalid : Validated record) (hfits : GatewayFits record.spec.spec.network.address)
    {jail : FakeJail} (hjail : t.world.jails.lookup (jailName name) = some jail) :
    (Reconciler.restart name record : Method Text Unit).wp (Host.under allows)
      (fun result r' t' => r' = r ∧ t'.world.mounts = t.world.mounts ∧ t'.world.zfs = t.world.zfs ∧
        ∃ jail', t'.world.jails.lookup (jailName name) = some jail' ∧ jail'.vnet = jail.vnet ∧
        ((∃ e, result = .error e ∧ Fallible allows ∧ jail'.running = jail.running) ∨
          result = .ok () ∧ jail'.running = true ∧ Wired name record t'.world jail'))
      (fun x _ => x = .crashed) r t := by
  rw [Reconciler.restart]
  simp only [Proc.bind_eq]
  refine Proc.wp_seq (wp_configureNetworkingAndLimits hvalid hfits (by rw [hjail]; rfl)) ?_ ?_
    fun _ _ hx => hx
  · rintro _ r₁ t₁ ⟨hr₁, hadjusted, hresult⟩
    obtain ⟨jail₁, hjail₁, hrunning, hvnet, -⟩ := hadjusted.jail jail hjail
    rcases hresult with ⟨e, he, -⟩ | ⟨-, hattached, jail', hjail', hlimited⟩
    · cases he
    cases hjail₁.symm.trans hjail'
    have hstart : t₁.world.withJail (jailName name) (fun jail => { jail with
        running := true, command := some record.spec.spec.command }) =
        (.ok (), { t₁.world with jails := t₁.world.jails.insert (jailName name) { jail₁ with
          running := true, command := some record.spec.spec.command } }) := by
      rw [Host.withJail, hjail₁]
    refine wp_tryCall (fun _ => rfl) rfl ?_ ?_ ?_
    · exact fun x m hx hfails => ⟨hr₁, hadjusted.mounts, hadjusted.zfs, jail₁, hjail₁,
        hvnet, Or.inl ⟨_, rfl, fallible_of_fails hx hfails, hrunning⟩⟩
    · intro _ _
      rw [hstart]
      exact ⟨hr₁, hadjusted.mounts, hadjusted.zfs, _, AList.lookup_insert _, hvnet,
        Or.inr ⟨rfl, rfl, hattached, hlimited, rfl⟩⟩
    · intro e he
      rw [hstart] at he
      cases he
  · rintro e r₁ t₁ ⟨hr₁, hadjusted, hresult⟩
    obtain ⟨jail₁, hjail₁, hrunning, hvnet, -⟩ := hadjusted.jail jail hjail
    rcases hresult with ⟨e', -, hfallible⟩ | ⟨hok, -⟩
    · exact ⟨hr₁, hadjusted.mounts, hadjusted.zfs, jail₁, hjail₁, hvnet,
        Or.inl ⟨_, rfl, hfallible, hrunning⟩⟩
    · cases hok

end Configure

/-! ## Its volumes -/

section Provision

variable [Ipnet] {allows : {ρ : Type} → Outcome Text → Op Text ρ → Reconciler → Host Text → Prop}
variable {pool name : String} {record : JailRecord} {r : Reconciler}
variable {t : Trace (Op Text) (Host Text)}

omit [Ipnet] in
/-- Mounting volumes adds mounts and datasets. -/
structure Grown (h h' : Host Text) : Prop where
  jails : h'.jails = h.jails
  mounts : h.mounts ⊆ h'.mounts
  datasets : h.zfs.datasets ⊆ h'.zfs.datasets

omit [Ipnet] in
theorem Grown.refl (h : Host Text) : Grown h h := ⟨rfl, fun _ => id, fun _ => id⟩

omit [Ipnet] in
theorem Grown.trans {h h' h'' : Host Text} (h₁ : Grown h h') (h₂ : Grown h' h'') : Grown h h'' :=
  ⟨h₂.jails.trans h₁.jails, h₁.mounts.trans h₂.mounts, h₁.datasets.trans h₂.datasets⟩

theorem wp_ensureVolume {dataset quota : String} :
    (Reconciler.ensureVolume dataset quota : Method Text Unit).wp (Host.under allows)
      (fun result r' t' => r' = r ∧ Grown t.world t'.world ∧
        ∀ e, result = .error e → Fallible allows)
      (fun x _ => x = .crashed) r t := by
  rw [Reconciler.ensureVolume]
  simp only [Proc.bind_eq]
  rw [Proc.wp_bind]
  refine wp_tryCall (fun _ => rfl) rfl ?_ ?_ fun e he => by cases he
  · exact fun x m hx hfails => ⟨rfl, .refl _, fun _ _ => fallible_of_fails hx hfails⟩
  intro there _
  dsimp only
  split
  · exact ⟨rfl, .refl _, fun e he => by cases he⟩
  · refine wp_tryCall (fun _ => rfl) rfl ?_ ?_ fun e he => by cases he
    · exact fun x m hx hfails => ⟨rfl, .refl _, fun _ _ => fallible_of_fails hx hfails⟩
    · exact fun _ _ => ⟨rfl, ⟨rfl, fun _ => id, fun _ => Finset.mem_insert_of_mem⟩,
        fun e he => by cases he⟩

theorem wp_ensureMounted {source target : Path} :
    (Reconciler.ensureMounted source target : Method Text Unit).wp (Host.under allows)
      (fun result r' t' => r' = r ∧ Grown t.world t'.world ∧
        ((∃ e, result = .error e ∧ Fallible allows) ∨ result = .ok () ∧ target ∈ t'.world.mounts))
      (fun x _ => x = .crashed) r t := by
  rw [Reconciler.ensureMounted]
  simp only [Proc.bind_eq]
  rw [Proc.wp_bind]
  refine wp_tryCall (fun _ => rfl) rfl ?_ ?_ fun e he => by cases he
  · exact fun x m hx hfails => ⟨rfl, .refl _, Or.inl ⟨_, rfl, fallible_of_fails hx hfails⟩⟩
  intro there hthere
  dsimp only
  split
  · rename_i hyes
    cases hthere
    exact ⟨rfl, .refl _, Or.inr ⟨rfl, of_decide_eq_true hyes⟩⟩
  · refine wp_tryCall (fun _ => rfl) rfl ?_ ?_ fun e he => by cases he
    · exact fun x m hx hfails => ⟨rfl, .refl _, Or.inl ⟨_, rfl, fallible_of_fails hx hfails⟩⟩
    · exact fun _ _ => ⟨rfl, ⟨rfl, fun _ => Finset.mem_insert_of_mem, fun _ => id⟩,
        Or.inr ⟨rfl, Finset.mem_insert_self _ _⟩⟩

/-- One volume is mounted, unless a call fails. -/
theorem wp_mountVolume {rootfs : Path} {v : VolumeMount} :
    (Reconciler.mountVolume pool rootfs v : Method Text Unit).wp (Host.under allows)
      (fun result r' t' => r' = r ∧ Grown t.world t'.world ∧
        ((∃ e, result = .error e ∧ Fallible allows) ∨
          result = .ok () ∧ mountTarget rootfs v.mountPath ∈ t'.world.mounts))
      (fun x _ => x = .crashed) r t := by
  rw [Reconciler.mountVolume]
  simp only [Proc.bind_eq]
  rw [Proc.wp_bind]
  refine wp_tryCall (fun _ => rfl) rfl ?_ ?_ fun e he => by cases he
  · exact fun x m hx hfails => ⟨rfl, .refl _, Or.inl ⟨_, rfl, fallible_of_fails hx hfails⟩⟩
  intro _ _
  dsimp only
  refine Proc.wp_seq wp_ensureVolume ?_ ?_ fun _ _ hx => hx
  · rintro _ r₁ t₁ ⟨hr₁, hgrown, -⟩
    refine Proc.wp_mono ?_ (fun _ _ hx => hx) wp_ensureMounted
    rintro result r₂ t₂ ⟨hr₂, hgrown', hresult⟩
    exact ⟨hr₂.trans hr₁, hgrown.trans hgrown', hresult⟩
  · rintro e r₁ t₁ ⟨hr₁, hgrown, herror⟩
    exact ⟨hr₁, hgrown, Or.inl ⟨e, rfl, herror e rfl⟩⟩

/-- **The volumes** of a jail, one after the other. -/
theorem wp_mountVolumes {rootfs : Path} (volumes : List VolumeMount) :
    (Proc.forEach (Reconciler.mountVolume pool rootfs) volumes : Method Text Unit).wp
      (Host.under allows)
      (fun result r' t' => r' = r ∧ Grown t.world t'.world ∧
        ((∃ e, result = .error e ∧ Fallible allows) ∨
          result = .ok () ∧ ∀ v ∈ volumes, mountTarget rootfs v.mountPath ∈ t'.world.mounts))
      (fun x _ => x = .crashed) r t := by
  -- what is left to mount, and what is mounted
  refine Proc.wp_mono ?_ (fun _ _ hx => hx) (Proc.wp_forEach
    (E := fun _ r' t' => r' = r ∧ Grown t.world t'.world ∧ Fallible allows)
    (fun rest r' t' => r' = r ∧ Grown t.world t'.world ∧
      ∀ v ∈ volumes, v ∈ rest ∨ mountTarget rootfs v.mountPath ∈ t'.world.mounts) ?_ volumes
    ⟨rfl, .refl _, fun v hv => Or.inl hv⟩)
  · rintro (e | u) r' t' hr'
    · exact ⟨hr'.1, hr'.2.1, Or.inl ⟨e, rfl, hr'.2.2⟩⟩
    · refine ⟨hr'.1, hr'.2.1, Or.inr ⟨rfl, fun v hv => ?_⟩⟩
      exact (hr'.2.2 v hv).resolve_left List.not_mem_nil
  · rintro v rest r₁ t₁ ⟨hr₁, hgrown, hmounted⟩
    refine Proc.wp_mono ?_ (fun _ _ hx => hx) wp_mountVolume
    rintro result r₂ t₂ ⟨hr₂, hgrown', hresult⟩
    rcases hresult with ⟨e, rfl, hfallible⟩ | ⟨rfl, hv⟩
    · exact ⟨hr₂.trans hr₁, hgrown.trans hgrown', hfallible⟩
    · refine ⟨hr₂.trans hr₁, hgrown.trans hgrown', fun w hw => ?_⟩
      rcases hmounted w hw with hrest | hdone
      · rcases List.mem_cons.1 hrest with rfl | hrest
        · exact Or.inr hv
        · exact Or.inl hrest
      · exact Or.inr (hgrown'.mounts hdone)

/-- The image must be there, or the call fails. -/
theorem wp_requireBaseImage {baseDataset : String} :
    (Reconciler.requireBaseImage baseDataset : Method Text Unit).wp (Host.under allows)
      (fun result r' t' => r' = r ∧ t'.world = t.world ∧
        ((∃ e, result = .error e ∧ (baseDataset ∈ t.world.zfs.datasets → Fallible allows)) ∨
          result = .ok () ∧ baseDataset ∈ t.world.zfs.datasets))
      (fun x _ => x = .crashed) r t := by
  rw [Reconciler.requireBaseImage]
  simp only [Proc.bind_eq]
  rw [Proc.wp_bind]
  refine wp_tryCall (fun _ => rfl) rfl ?_ ?_ fun e he => by cases he
  · exact fun x m hx hfails => ⟨rfl, rfl, Or.inl ⟨_, rfl, fun _ => fallible_of_fails hx hfails⟩⟩
  intro there hthere
  cases hthere
  dsimp only
  split
  · rename_i hyes
    exact ⟨rfl, rfl, Or.inr ⟨rfl, of_decide_eq_true hyes⟩⟩
  · rename_i hno
    exact ⟨rfl, rfl, Or.inl ⟨_, rfl, fun hmem => absurd (decide_eq_true hmem) hno⟩⟩

/-- A jail that was created is given its volumes, and started. -/
theorem wp_equip (hvalid : Validated record) (hfits : GatewayFits record.spec.spec.network.address)
    {jail : FakeJail} (hjail : t.world.jails.lookup (jailName name) = some jail) :
    ((Proc.forEach (Reconciler.mountVolume pool (jailRootfsPath pool name))
      record.spec.spec.volumes).bind fun _ => Reconciler.restart name record : Method Text Unit).wp
      (Host.under allows)
      (fun result r' t' => r' = r ∧ t.world.zfs.datasets ⊆ t'.world.zfs.datasets ∧
        ((∃ e, result = .error e ∧ Fallible allows) ∨
          result = .ok () ∧ Up pool name record jail.vnet t'.world))
      (fun x _ => x = .crashed) r t := by
  refine Proc.wp_seq (wp_mountVolumes _) ?_ ?_ fun _ _ hx => hx
  · rintro _ r₁ t₁ ⟨hr₁, hgrown, hresult⟩
    rcases hresult with ⟨e, he, -⟩ | ⟨-, hmounted⟩
    · cases he
    refine Proc.wp_mono ?_ (fun _ _ hx => hx)
      (wp_restart hvalid hfits (by rw [hgrown.jails]; exact hjail))
    rintro result r₂ t₂ ⟨hr₂, hmounts, hzfs, jail', hjail', hvnet, hresult'⟩
    refine ⟨hr₂.trans hr₁, by rw [hzfs]; exact hgrown.datasets, ?_⟩
    rcases hresult' with ⟨e, he, hfallible, -⟩ | ⟨hok, hrunning, hwired⟩
    · exact Or.inl ⟨e, he, hfallible⟩
    · refine Or.inr ⟨hok, jail', hjail', hrunning, hvnet, fun v hv => ?_, hwired⟩
      rw [hmounts]
      exact hmounted v hv
  · rintro e r₁ t₁ ⟨hr₁, hgrown, hresult⟩
    refine ⟨hr₁, hgrown.datasets, Or.inl ⟨e, rfl, ?_⟩⟩
    rcases hresult with ⟨e', -, hfallible⟩ | ⟨hok, -⟩
    · exact hfallible
    · cases hok

/-- **A provisioning** brings a jail up, where the image is there and no
call fails. -/
theorem wp_provision (hvalid : Validated record)
    (hfits : GatewayFits record.spec.spec.network.address) :
    (Reconciler.provision pool name record : Method Text Unit).wp (Host.under allows)
      (fun result r' t' => r' = r ∧ t.world.zfs.datasets ⊆ t'.world.zfs.datasets ∧
        ((∃ e, result = .error e ∧ (baseDatasetPath pool record.spec.spec.image ∈
            t.world.zfs.datasets → Fallible allows)) ∨
          result = .ok () ∧ Provisioned pool name record t'.world))
      (fun x _ => x = .crashed) r t := by
  rw [Reconciler.provision]
  simp only [Proc.bind_eq]
  refine Proc.wp_seq wp_requireBaseImage ?_ ?_ fun _ _ hx => hx
  · rintro _ r₁ t₁ ⟨rfl, ht₁, hresult⟩
    rcases hresult with ⟨e, he, -⟩ | ⟨-, hbase⟩
    · cases he
    rw [← ht₁] at hbase ⊢
    obtain ⟨files, hidden, hclone⟩ :=
      t₁.world.cloneFromBase_eq (jailDatasetPath pool name) hbase
    rw [Proc.wp_bind]
    refine wp_tryCall (fun _ => rfl) rfl ?_ ?_ ?_
    · exact fun x m hx hfails =>
        ⟨rfl, fun _ => id, Or.inl ⟨_, rfl, fun _ => fallible_of_fails hx hfails⟩⟩
    · intro _ _
      rw [hclone]
      dsimp only
      rw [Proc.wp_bind]
      refine wp_tryCall (fun _ => rfl) rfl ?_ ?_ fun e he => by cases he
      · exact fun x m hx hfails => ⟨rfl, fun _ => Finset.mem_insert_of_mem,
          Or.inl ⟨_, rfl, fun _ => fallible_of_fails hx hfails⟩⟩
      intro _ _
      dsimp only
      refine Proc.wp_mono ?_ (fun _ _ hx => hx) (wp_equip hvalid hfits (AList.lookup_insert _))
      rintro result r₂ t₂ ⟨hr₂, hdatasets, hresult⟩
      refine ⟨hr₂, fun _ hmem => hdatasets (Finset.mem_insert_of_mem hmem), ?_⟩
      rcases hresult with ⟨e, he, hfallible⟩ | ⟨hok, hup⟩
      · exact Or.inl ⟨e, he, fun _ => hfallible⟩
      · exact Or.inr ⟨hok, hdatasets (Finset.mem_insert_self _ _), hup⟩
    · intro e he
      rw [hclone] at he
      cases he
  · rintro e r₁ t₁ ⟨hr₁, ht₁, hresult⟩
    rcases hresult with ⟨e', -, hfallible⟩ | ⟨hok, -⟩
    · exact ⟨hr₁, by rw [ht₁], Or.inl ⟨e, rfl, hfallible⟩⟩
    · cases hok

end Provision

end Node

end Keel
