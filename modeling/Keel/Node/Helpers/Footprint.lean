import Keel.Node.Model.Run
/-!
# What the reconciler calls on

The calls each method can make, and what it can change in memory,
whatever it is answered. A pass over one jail calls on that jail, its
dataset, its epair and its mounts, on the datasets of its volumes to
create them, and on bridges; saving a record calls on its two files.
-/

namespace Keel

namespace Node

open Agent (JailRecord volumeDatasetPath)

variable {Text : Type}

/-- A call for the jail of a record. -/
def Op.OfJail (pool name : String) (record : JailRecord) : {ρ : Type} → Op Text ρ → Prop
  | _, .create jail _ _ => jail = jailName name
  | _, .jailExists jail => jail = jailName name
  | _, .startCommand jail _ => jail = jailName name
  | _, .destroy jail => jail = jailName name
  | _, .isRunning jail => jail = jailName name
  | _, .setResourceLimits jail _ _ => jail = jailName name
  | _, .removeResourceLimits jail => jail = jailName name
  | _, .datasetExists _ => True
  | _, .cloneFromBase _ target => target = jailDatasetPath pool name
  | _, .createVolume dataset _ =>
    ∃ v ∈ record.spec.spec.volumes, dataset = volumeDatasetPath pool v.name
  | _, .destroyDataset dataset => dataset = jailDatasetPath pool name
  | _, .ensureBridgeExists _ => True
  | _, .attachJail _ _ epair _ => epair = epairBaseName record.epairOrdinal
  | _, .detachJail epair => epair = epairBaseName record.epairOrdinal
  | _, .ensureMountPoint _ => True
  | _, .mountNullfs _ target => ∃ v ∈ record.spec.spec.volumes,
      target = mountTarget (jailRootfsPath pool name) v.mountPath
  | _, .unmount target => ∃ v ∈ record.spec.spec.volumes,
      target = mountTarget (jailRootfsPath pool name) v.mountPath
  | _, .isMounted _ => True
  | _, _ => False

/-- A call that leaves a jail that is there in place: the only ones a
pass makes for it. -/
def Op.Gentle (name : String) (record : JailRecord) : {ρ : Type} → Op Text ρ → Prop
  | _, .jailExists jail => jail = jailName name
  | _, .startCommand jail command => jail = jailName name ∧ command = record.spec.spec.command
  | _, .isRunning jail => jail = jailName name
  | _, .setResourceLimits jail _ _ => jail = jailName name
  | _, .ensureBridgeExists _ => True
  | _, .attachJail jail bridge epair address => jail = jailName name ∧
      bridge = record.spec.spec.network.bridge ∧ epair = epairBaseName record.epairOrdinal ∧
      address = record.spec.spec.network.address
  | _, _ => False

/-- A call that sets a jail's limits, to those of its spec. -/
def Op.SetsLimits (name : String) (record : JailRecord) : {ρ : Type} → Op Text ρ → Prop
  | _, .setResourceLimits jail pcpuPercent memoryBytes => jail = jailName name ∧
      (∃ cores, parseCpuCores record.spec.spec.resources.cpu = .ok cores ∧
        pcpuPercent = coresToPcpuPercent cores) ∧
      parseMemoryBytes record.spec.spec.resources.memory = .ok memoryBytes
  | _, _ => False

/-- A call on the file of a record, or on the one it is written to
first. -/
def Op.OfFile (dir : Dir) (name : String) : {ρ : Type} → Op Text ρ → Prop
  | _, .createDirAll d => d = dir
  | _, .writeFile d file _ => d = dir ∧ file = tmpFile name
  | _, .renameFile d old new => d = dir ∧ old = tmpFile name ∧ new = stateFile name
  | _, .removeFile d file => d = dir ∧ file = stateFile name
  | _, _ => False

/-- A call for serving ingresses. -/
def Op.OfIngress : {ρ : Type} → Op Text ρ → Prop
  | _, .createDirAll d => d = .ingress
  | _, .writeFile d _ _ => d = .ingress
  | _, .renameFile d _ _ => d = .ingress
  | _, .removeFile d _ => d = .ingress
  | _, .isFile _ => True
  | _, .createRootfsDir _ => True
  | _, .writeRootfsFile _ _ => True
  | _, .requestCertificate _ _ => True
  | _, .writeConfig _ _ => True
  | _, .testConfig _ => True
  | _, .reload _ => True
  | _, .instantNow => True
  | _, .serviceVip _ => True
  | _, _ => False

/-- A call for the config of the ingress jail. -/
def Op.OfConfig : {ρ : Type} → Op Text ρ → Prop
  | _, .writeConfig _ _ => True
  | _, .testConfig _ => True
  | _, .reload _ => True
  | _, .serviceVip _ => True
  | _, _ => False

/-- A call that only asks. -/
def Op.Asks : {ρ : Type} → Op Text ρ → Prop
  | _, .isRunning _ => True
  | _, .datasetExists _ => True
  | _, .createDirAll _ => True
  | _, .readDir _ => True
  | _, .readToString _ _ => True
  | _, _ => False

namespace Reconciler

variable {R : {ρ : Type} → Op Text ρ → ρ → Prop} {N : Prop} {K : Reconciler → Prop}

/-- The same but for the cooldown of one jail. -/
structure AgreesBut (name : String) (r₀ r : Reconciler) : Prop where
  pool : r.pool = r₀.pool
  records : r.records = r₀.records
  nextEpairOrdinal : r.nextEpairOrdinal = r₀.nextEpairOrdinal
  ingressRecords : r.ingressRecords = r₀.ingressRecords
  backoff : ∀ m, m ≠ name → r.backoff.lookup m = r₀.backoff.lookup m

theorem AgreesBut.refl (name : String) (r : Reconciler) : AgreesBut name r r :=
  ⟨rfl, rfl, rfl, rfl, fun _ _ => rfl⟩

theorem AgreesBut.trans {name : String} {r r' r'' : Reconciler} (h : AgreesBut name r r')
    (h' : AgreesBut name r' r'') : AgreesBut name r r'' :=
  ⟨h'.pool.trans h.pool, h'.records.trans h.records,
    h'.nextEpairOrdinal.trans h.nextEpairOrdinal, h'.ingressRecords.trans h.ingressRecords,
    fun m hm => (h'.backoff m hm).trans (h.backoff m hm)⟩

/-- The same but for what serving ingresses keeps. -/
structure AgreesOnJails (r₀ r : Reconciler) : Prop where
  pool : r.pool = r₀.pool
  records : r.records = r₀.records
  nextEpairOrdinal : r.nextEpairOrdinal = r₀.nextEpairOrdinal
  backoff : r.backoff = r₀.backoff

theorem AgreesOnJails.refl (r : Reconciler) : AgreesOnJails r r := ⟨rfl, rfl, rfl, rfl⟩

section Jail

variable {pool name : String} {record : JailRecord}

theorem keeps_tearDown {P : {ρ : Type} → Op Text ρ → Prop} {δ : Type} {gone : δ → Bool}
    {f : δ → ReconcileError} {c : Op Text (Except δ Unit)} (hc : P c) :
    (tearDown gone f c).Keeps P R N K := by
  refine Proc.keeps_bind (Proc.keeps_ask hc) fun result => ?_
  cases result with
  | ok u => exact Proc.keeps_ret
  | error e => exact Proc.keeps_ite Proc.keeps_ret Proc.keeps_fail

theorem keeps_setLimits :
    (setLimits name record : Method Text Unit).Keeps (Op.SetsLimits name record) R N K := by
  rw [setLimits]
  cases hcpu : parseCpuCores record.spec.spec.resources.cpu with
  | error e => exact Proc.keeps_fail
  | ok cores =>
    cases hmemory : parseMemoryBytes record.spec.spec.resources.memory with
    | error e => exact Proc.keeps_fail
    | ok memoryBytes => exact Proc.keeps_tryCall ⟨rfl, ⟨cores, hcpu, rfl⟩, hmemory⟩

theorem SetsLimits.gentle {ρ : Type} {c : Op Text ρ} (h : c.SetsLimits name record) :
    c.Gentle name record := by
  cases c <;> first | exact h.1 | exact h.elim

/-- The manager panics on an address only where `N` lets it. -/
def AttachPanics (R : {ρ : Type} → Op Text ρ → ρ → Prop) (N : Prop) (address : String) : Prop :=
  ∀ jail bridge epair p, R (.attachJail jail bridge epair address) (.error p) → N

theorem keeps_configureNetworkingAndLimits
    (hN : AttachPanics R N record.spec.spec.network.address) :
    (configureNetworkingAndLimits name record : Method Text Unit).Keeps (Op.Gentle name record) R N
      K := by
  refine Proc.keeps_bind (Proc.keeps_tryCall trivial) fun _ => ?_
  refine Proc.keeps_bind ?_ fun _ =>
    keeps_setLimits.imp (fun _ => SetsLimits.gentle) fun _ _ _ hr => hr
  refine Proc.keeps_ask_bind ⟨rfl, rfl, rfl, rfl⟩ fun result hresult => ?_
  refine Proc.keeps_bind (Proc.keeps_ofChecked fun p hp => ?_) fun _ => Proc.keeps_ofExcept
  rw [hp] at hresult
  exact hN _ _ _ p hresult

theorem keeps_restart (hN : AttachPanics R N record.spec.spec.network.address) :
    (restart name record : Method Text Unit).Keeps (Op.Gentle name record) R N K :=
  Proc.keeps_bind (keeps_configureNetworkingAndLimits hN) fun _ => Proc.keeps_tryCall ⟨rfl, rfl⟩

theorem Gentle.ofJail {ρ : Type} {c : Op Text ρ} (h : c.Gentle name record) :
    c.OfJail pool name record := by
  cases c <;> first | exact h | exact h.1 | exact h.2.2.1 | exact h.elim

theorem keeps_mountVolume {v : VolumeMount} (hv : v ∈ record.spec.spec.volumes) :
    (mountVolume pool (jailRootfsPath pool name) v : Method Text Unit).Keeps
      (Op.OfJail pool name record) R N K := by
  refine Proc.keeps_bind (Proc.keeps_tryCall trivial) fun _ => Proc.keeps_bind ?_ fun _ => ?_
  · refine Proc.keeps_bind (Proc.keeps_tryCall trivial) fun _ => ?_
    exact Proc.keeps_ite Proc.keeps_ret (Proc.keeps_tryCall ⟨v, hv, rfl⟩)
  · refine Proc.keeps_bind (Proc.keeps_tryCall trivial) fun _ => ?_
    exact Proc.keeps_ite Proc.keeps_ret (Proc.keeps_tryCall ⟨v, hv, rfl⟩)

theorem keeps_provision (hN : AttachPanics R N record.spec.spec.network.address) :
    (provision pool name record : Method Text Unit).Keeps (Op.OfJail pool name record) R N K := by
  refine Proc.keeps_bind ?_ fun _ => ?_
  · refine Proc.keeps_bind (Proc.keeps_tryCall trivial) fun _ => ?_
    exact Proc.keeps_ite Proc.keeps_ret Proc.keeps_fail
  refine Proc.keeps_bind (Proc.keeps_tryCall rfl) fun _ => ?_
  refine Proc.keeps_bind (Proc.keeps_tryCall rfl) fun _ => ?_
  refine Proc.keeps_bind (Proc.keeps_forEach fun v hv => keeps_mountVolume hv) fun _ => ?_
  refine Proc.keeps_bind ?_ fun _ => Proc.keeps_tryCall rfl
  exact (keeps_configureNetworkingAndLimits hN).imp (fun _ => Gentle.ofJail) fun _ _ _ hr => hr

theorem keeps_rollbackProvision :
    (rollbackProvision pool name record : Method Text Unit).Keeps (Op.OfJail pool name record) R N
      K := by
  refine Proc.keeps_bind (Proc.keeps_ask rfl) fun _ => ?_
  refine Proc.keeps_bind (Proc.keeps_ask rfl) fun _ => ?_
  refine Proc.keeps_bind (Proc.keeps_forEach fun v hv => ?_) fun _ => ?_
  · exact Proc.keeps_bind (Proc.keeps_ask ⟨v, hv, rfl⟩) fun _ => Proc.keeps_ret
  refine Proc.keeps_bind (Proc.keeps_ask rfl) fun _ => ?_
  exact Proc.keeps_bind (Proc.keeps_ask rfl) fun _ => Proc.keeps_ret

theorem keeps_tearDownJail :
    (tearDownJail pool name record : Method Text Unit).Keeps (Op.OfJail pool name record) R N K := by
  refine Proc.keeps_bind (Proc.keeps_tryCall rfl) fun _ => ?_
  refine Proc.keeps_bind (keeps_tearDown rfl) fun _ => ?_
  refine Proc.keeps_bind (Proc.keeps_forEach fun v hv => keeps_tearDown ⟨v, hv, rfl⟩) fun _ => ?_
  exact Proc.keeps_bind (keeps_tearDown rfl) fun _ => keeps_tearDown rfl

theorem AgreesBut.setBackoff {r₀ r : Reconciler} {backoff : Table BackoffState}
    (h : AgreesBut name r₀ r) (hb : ∀ m, m ≠ name → backoff.lookup m = r.backoff.lookup m) :
    AgreesBut name r₀ { r with backoff } :=
  ⟨h.pool, h.records, h.nextEpairOrdinal, h.ingressRecords,
    fun m hm => (hb m hm).trans (h.backoff m hm)⟩

/-- The same but for the cooldown of one jail, which has one. -/
structure Cooling (name : String) (r₀ r : Reconciler) : Prop where
  agrees : AgreesBut name r₀ r
  cooldown : name ∈ r.backoff

/-- A jail whose cooldown was looked at has one. -/
theorem makes_checkCooldown {P : {ρ : Type} → Op Text ρ → Prop} {r₀ r : Reconciler} {now : ℕ}
    (hr : AgreesBut name r₀ r) :
    (checkCooldown name now : Method Text Bool).Makes P R N (fun _ => Cooling name r₀) r := by
  rw [checkCooldown, Proc.Makes]
  cases hlookup : r.backoff.lookup name with
  | some b => exact ⟨hr, Table.mem_of_lookup hlookup⟩
  | none =>
    refine ⟨hr.setBackoff fun m hm => AList.lookup_insert_ne hm, ?_⟩
    exact AList.mem_insert _ |>.2 (Or.inl rfl)

/-- So its attempt is recorded. -/
theorem keeps_recordAttempt {P : {ρ : Type} → Op Text ρ → Prop} {r₀ : Reconciler} {now : ℕ} :
    (recordAttempt name now : Method Text Unit).Keeps P R N (Cooling name r₀) := by
  refine Proc.keeps_get_bind fun r hr => Proc.keeps_expect_bind (fun hnone => ?_) fun b _ => ?_
  · exact absurd hr.cooldown (AList.lookup_eq_none.1 hnone)
  · refine Proc.keeps_modify fun r hr => ⟨hr.agrees.setBackoff fun m hm => ?_, ?_⟩
    · exact AList.lookup_insert_ne hm
    · exact AList.mem_insert _ |>.2 (Or.inl rfl)

theorem keeps_reconcileAbsent {r₀ : Reconciler} {now : ℕ}
    (hN : AttachPanics R N record.spec.spec.network.address) :
    (reconcileAbsent pool name record now : Method Text Unit).Keeps (Op.OfJail pool name record) R N
      (Cooling name r₀) := by
  refine Proc.keeps_bind (Proc.keeps_attempt (keeps_provision hN)) fun result => ?_
  refine Proc.keeps_bind keeps_recordAttempt fun _ => ?_
  cases result with
  | ok u => exact Proc.keeps_ret
  | error e => exact Proc.keeps_bind keeps_rollbackProvision fun _ => Proc.keeps_fail

theorem keeps_reconcileExisting {r₀ : Reconciler} {now : ℕ}
    (hN : AttachPanics R N record.spec.spec.network.address) :
    (reconcileExisting name record now : Method Text Unit).Keeps (Op.Gentle name record) R N
      (Cooling name r₀) := by
  refine Proc.keeps_bind (Proc.keeps_tryCall rfl) fun _ => Proc.keeps_ite
    (keeps_setLimits.imp (fun _ => SetsLimits.gentle) fun _ _ _ hr => hr) ?_
  refine Proc.keeps_ite Proc.keeps_ret ?_
  refine Proc.keeps_bind (Proc.keeps_attempt (keeps_restart hN)) fun _ => ?_
  exact Proc.keeps_bind keeps_recordAttempt fun _ => Proc.keeps_ofExcept

theorem keeps_reconcileRecord {r₀ : Reconciler} {now : ℕ}
    (hN : AttachPanics R N record.spec.spec.network.address) :
    (reconcileRecord pool name record now : Method Text Unit).Keeps (Op.OfJail pool name record) R N
      (AgreesBut name r₀) := by
  have hready : ∀ ready : Bool, (if ready then do
      if ← Proc.tryCall .jail (.jailExists (jailName name)) then reconcileExisting name record now
      else reconcileAbsent pool name record now
      else pure () : Method Text Unit).Keeps (Op.OfJail pool name record) R N (Cooling name r₀) := by
    intro ready
    refine Proc.keeps_ite (Proc.keeps_bind (Proc.keeps_tryCall rfl) fun _ => ?_) Proc.keeps_ret
    refine Proc.keeps_ite ?_ (keeps_reconcileAbsent hN)
    exact (keeps_reconcileExisting hN).imp (fun _ => Gentle.ofJail) fun _ _ _ hr => hr
  intro r hr
  rw [reconcileRecord, Proc.bind_eq, Proc.makes_bind]
  refine Proc.makes_mono ?_ (makes_checkCooldown hr)
  intro result r' hr'
  cases result with
  | error e => exact hr'.agrees
  | ok ready => exact Proc.makes_mono (fun _ _ hr => hr.agrees) (hready ready r' hr')

/-- **A pass over one jail** calls on that jail only, and changes no more
than its cooldown. -/
theorem keeps_reconcileOne {now : ℕ} {P : {ρ : Type} → Op Text ρ → Prop}
    (hP : ∀ r record, K r → r.records.lookup name = some record →
      ∀ {ρ : Type} (c : Op Text ρ), c.OfJail r.pool name record → P c)
    (hK : ∀ r r', K r → AgreesBut name r r' → K r')
    (hN : ∀ r, K r → (r.records.lookup name = none → N) ∧
      ∀ record, r.records.lookup name = some record →
        AttachPanics R N record.spec.spec.network.address) :
    (reconcileOne name now : Method Text Unit).Keeps P R N K := by
  intro r hr
  have hone : (reconcileOne name now : Method Text Unit).Keeps P R N (AgreesBut name r) := by
    refine Proc.keeps_get_bind fun r₁ hr₁ => Proc.keeps_expect_bind (fun hnone => ?_)
      fun record hrecord => ?_
    · rw [hr₁.records] at hnone
      exact (hN r hr).1 hnone
    · rw [hr₁.records] at hrecord
      rw [hr₁.pool]
      exact (keeps_reconcileRecord ((hN r hr).2 record hrecord)).imp (hP r record hr hrecord)
        fun _ _ _ h => h
  exact Proc.makes_mono (fun _ r' hr' => hK r r' hr hr') (hone r (.refl name r))

end Jail

/-! ## Files -/

section Files

variable {P : {ρ : Type} → Op Text ρ → Prop} {dir : Dir} {name : String}

theorem keeps_saveYaml {content : Text} :
    (saveYaml dir name content).Keeps (Op.OfFile dir name) R N K := by
  refine Proc.keeps_bind (Proc.keeps_tryCall rfl) fun _ => ?_
  refine Proc.keeps_bind (Proc.keeps_tryCall ⟨rfl, rfl⟩) fun _ => ?_
  exact Proc.keeps_tryCall ⟨rfl, rfl, rfl⟩

theorem keeps_removeYaml :
    (removeYaml dir name : Method Text Unit).Keeps (Op.OfFile dir name) R N K := by
  refine Proc.keeps_bind (Proc.keeps_ask ⟨rfl, rfl⟩) fun result => ?_
  rcases result with e | u
  · cases e with
    | notFound => exact Proc.keeps_ret
    | other m => exact Proc.keeps_fail
  · exact Proc.keeps_ret

theorem keeps_loadYaml {α : Type} {fromYaml : Text → Except String α} :
    (loadYaml dir fromYaml).Keeps Op.Asks R N K := by
  have hfiles : ∀ files : List String, (loadFiles dir fromYaml files).Keeps Op.Asks R N K := by
    intro files
    induction files with
    | nil => exact Proc.keeps_ret
    | cons file files ih =>
      refine Proc.keeps_ite ih ?_
      refine Proc.keeps_bind (Proc.keeps_tryCall trivial) fun _ => ?_
      refine Proc.keeps_bind Proc.keeps_ofExcept fun _ => ?_
      exact Proc.keeps_bind ih fun _ => Proc.keeps_ret
  refine Proc.keeps_bind (Proc.keeps_tryCall trivial) fun _ => ?_
  exact Proc.keeps_bind (Proc.keeps_tryCall trivial) hfiles

end Files

/-! ## Ingresses -/

section Ingress

theorem OfFile.ofIngress {name : String} {ρ : Type} {c : Op Text ρ} (h : c.OfFile .ingress name) :
    c.OfIngress := by
  cases c <;> first | exact h | exact h.1 | exact h.elim

/-- What may change while ingresses are served. -/
theorem AgreesOnJails.setIngress {r₀ r : Reconciler} (h : AgreesOnJails r₀ r)
    (ingressRecords : Table IngressRecord) (ingressBackoff : Table BackoffState) :
    AgreesOnJails r₀ { r with ingressRecords, ingressBackoff } :=
  ⟨h.pool, h.records, h.nextEpairOrdinal, h.backoff⟩

/-- **Serving ingresses** calls on what serves them, and changes no more
than what it keeps. -/
theorem keeps_of_ofIngress {P : {ρ : Type} → Op Text ρ → Prop} {α : Type} {m : Method Text α}
    (hm : ∀ r₀, m.Keeps Op.OfIngress R N (AgreesOnJails r₀))
    (hP : ∀ {ρ : Type} (c : Op Text ρ), c.OfIngress → P c)
    (hK : ∀ r r', K r → AgreesOnJails r r' → K r') : m.Keeps P R N K := by
  intro r hr
  have hcalls : m.Keeps P R N (AgreesOnJails r) := (hm r).imp hP fun _ _ _ h => h
  exact Proc.makes_mono (fun _ r' hr' => hK r r' hr hr') (hcalls r (.refl r))

variable {r₀ : Reconciler}

theorem keeps_recordIngressAttempt {name : String} :
    (recordIngressAttempt name : Method Text Unit).Keeps Op.OfIngress R True (AgreesOnJails r₀) := by
  refine Proc.keeps_get_bind fun r _ => Proc.keeps_expect_bind (fun _ => trivial) fun b _ => ?_
  refine Proc.keeps_bind (Proc.keeps_ask trivial) fun _ => Proc.keeps_modify fun r hr => ?_
  exact hr.setIngress _ _

theorem keeps_ingressBackends {entries : List (String × IngressRecord)} :
    (ingressBackends entries : Method Text _).Keeps Op.OfConfig R N K := by
  induction entries with
  | nil => exact Proc.keeps_ret
  | cons entry entries ih =>
    refine Proc.keeps_bind (Proc.keeps_ask trivial) fun vip => Proc.keeps_bind ih fun _ => ?_
    cases vip with
    | none => exact Proc.keeps_ret
    | some entry => exact Proc.keeps_ret

theorem keeps_reconcileIngressConfig {p : Pass} :
    (reconcileIngressConfig p : Method Text Unit).Keeps Op.OfConfig R N K := by
  refine Proc.keeps_get_bind fun r _ => Proc.keeps_bind keeps_ingressBackends fun _ => ?_
  refine Proc.keeps_bind (Proc.keeps_ask trivial) fun written => ?_
  cases written with
  | error e => exact Proc.keeps_ret
  | ok u =>
    refine Proc.keeps_bind (Proc.keeps_ask trivial) fun tested => ?_
    cases tested with
    | error e => exact Proc.keeps_ret
    | ok u => exact Proc.keeps_bind (Proc.keeps_ask trivial) fun _ => Proc.keeps_ret

theorem OfConfig.ofIngress {ρ : Type} {c : Op Text ρ} (h : c.OfConfig) : c.OfIngress := by
  cases c <;> first | exact h | exact h.elim

theorem keeps_deleteIngress {name : String} :
    (deleteIngress name : Method Text Unit).Keeps Op.OfIngress R N (AgreesOnJails r₀) := by
  refine Proc.keeps_get_bind fun r _ => Proc.keeps_bind Proc.keeps_ofExcept fun _ => ?_
  refine Proc.keeps_bind
    (keeps_removeYaml.imp (fun _ => OfFile.ofIngress) fun _ _ _ hr => hr) fun _ => ?_
  exact Proc.keeps_modify fun r hr => hr.setIngress _ _

variable [SerdeYaml Text IngressRecord]

theorem keeps_issue {name pool : String} {record : IngressRecord} {nowUnix : ℤ} :
    (issue name record pool nowUnix : Method Text Unit).Keeps Op.OfIngress R True
      (AgreesOnJails r₀) := by
  refine Proc.keeps_bind (Proc.keeps_ask trivial) fun result => ?_
  cases result with
  | error e => exact keeps_recordIngressAttempt
  | ok cert =>
    have hwrite : (writeCertToIngressJail pool record.spec.spec.host cert :
        Method Text Unit).Keeps Op.OfIngress R True (AgreesOnJails r₀) := by
      refine Proc.keeps_bind (Proc.keeps_tryCall trivial) fun _ => ?_
      exact Proc.keeps_bind (Proc.keeps_tryCall trivial) fun _ => Proc.keeps_tryCall trivial
    refine Proc.keeps_bind (Proc.keeps_attempt hwrite) fun written => ?_
    cases written with
    | error e => exact keeps_recordIngressAttempt
    | ok u =>
      refine Proc.keeps_bind (Proc.keeps_ofChecked fun _ _ => trivial) fun expires => ?_
      refine Proc.keeps_bind (Proc.keeps_attempt
        (keeps_saveYaml.imp (fun _ => OfFile.ofIngress) fun _ _ _ hr => hr)) fun saved => ?_
      cases saved with
      | error e => exact keeps_recordIngressAttempt
      | ok u => exact Proc.keeps_modify fun r hr => hr.setIngress _ _

theorem keeps_reconcileCerts {p : Pass} :
    (reconcileCerts p : Method Text Unit).Keeps Op.OfIngress R True (AgreesOnJails r₀) := by
  refine Proc.keeps_get_bind fun r _ => Proc.keeps_forEach fun name _ => ?_
  refine Proc.keeps_bind (Proc.keeps_ask trivial) fun instant => ?_
  refine Proc.keeps_bind (Proc.keeps_memory fun r hr => ?_) fun _ => Proc.keeps_ite ?_ Proc.keeps_ret
  · cases r.ingressBackoff.lookup name with
    | some b => exact hr
    | none => exact hr.setIngress _ _
  refine Proc.keeps_get_bind fun r _ => Proc.keeps_expect_bind (fun _ => trivial)
    fun record _ => ?_
  refine Proc.keeps_bind (Proc.keeps_ask trivial) fun _ => ?_
  refine Proc.keeps_bind (Proc.keeps_ofChecked fun _ _ => trivial) fun _ => ?_
  exact Proc.keeps_ite keeps_issue Proc.keeps_ret

theorem keeps_applyIngress {spec : IngressSpec} :
    (applyIngress spec : Method Text Unit).Keeps Op.OfIngress R N (AgreesOnJails r₀) := by
  refine Proc.keeps_bind Proc.keeps_ofExcept fun _ => ?_
  refine Proc.keeps_bind Proc.keeps_ofExcept fun _ => ?_
  refine Proc.keeps_bind Proc.keeps_ofExcept fun _ => ?_
  refine Proc.keeps_bind Proc.keeps_ofExcept fun _ => ?_
  refine Proc.keeps_get_bind fun r _ => ?_
  refine Proc.keeps_bind (keeps_saveYaml.imp (fun _ => OfFile.ofIngress) fun _ _ _ hr => hr) fun _ => ?_
  exact Proc.keeps_modify fun r hr => hr.setIngress _ _

end Ingress

/-! ## Records -/

section Records

variable {P : {ρ : Type} → Op Text ρ → Prop}

theorem keeps_find {name : String} : (find name : Method Text JailRecord).Keeps P R N K := by
  refine Proc.keeps_get_bind fun r _ => ?_
  cases r.records.lookup name with
  | none => exact Proc.keeps_fail
  | some record => exact Proc.keeps_ret

theorem keeps_get {name : String} {now : ℕ} (hP : ∀ jail, P (.isRunning jail)) :
    (get name now : Method Text (Option JailStatus)).Keeps P R N K := by
  refine Proc.keeps_get_bind fun r _ => ?_
  cases r.records.lookup name with
  | none => exact Proc.keeps_ret
  | some record => exact Proc.keeps_bind (Proc.keeps_ask (hP _)) fun _ => Proc.keeps_ret

theorem keeps_list {now : ℕ} (hP : ∀ jail, P (.isRunning jail)) :
    (list now : Method Text (List JailStatus)).Keeps P R N K := by
  have hall : ∀ names, (getAll now names : Method Text (List JailStatus)).Keeps P R N K := by
    intro names
    induction names with
    | nil => exact Proc.keeps_ret
    | cons name names ih =>
      exact Proc.keeps_bind (keeps_get hP) fun _ => Proc.keeps_bind ih fun _ => Proc.keeps_ret
  exact Proc.keeps_get_bind fun r _ => hall _

theorem keeps_committedResources {order : IterOrder} (hN : ∀ r p, K r →
      committed ((r.records.iter order).map Prod.snd) 0 0 = .error p → N) :
    (committedResources order : Method Text (ℚ × ℕ)).Keeps P R N K :=
  Proc.keeps_get_bind fun r hr => Proc.keeps_ofChecked fun p => hN r p hr

theorem keeps_getVolume {name : String} (hP : ∀ dataset, P (.datasetExists dataset)) :
    (getVolume name : Method Text Unit).Keeps P R N K := by
  refine Proc.keeps_get_bind fun r _ => Proc.keeps_bind (Proc.keeps_tryCall (hP _)) fun _ => ?_
  exact Proc.keeps_ite Proc.keeps_ret Proc.keeps_fail

theorem keeps_reconcileAll {now : ℕ} {names : List String}
    (hone : ∀ name ∈ names, (reconcileOne name now : Method Text Unit).Keeps P R N K) :
    (reconcileAll now names : Method Text _).Keeps P R N K := by
  induction names with
  | nil => exact Proc.keeps_ret
  | cons name names ih =>
    refine Proc.keeps_bind (Proc.keeps_attempt (hone name List.mem_cons_self)) fun result => ?_
    refine Proc.keeps_bind (ih fun m hm => hone m (List.mem_cons_of_mem name hm)) fun _ => ?_
    cases result with
    | ok u => exact Proc.keeps_ret
    | error e => exact Proc.keeps_ret

variable [SerdeYaml Text JailRecord]

theorem keeps_save {record : JailRecord}
    (hP : ∀ {ρ : Type} (c : Op Text ρ), c.OfFile .state record.spec.metadata.name → P c) :
    (store.save record : Method Text Unit).Keeps P R N K :=
  keeps_saveYaml.imp hP fun _ _ _ hr => hr

theorem keeps_apply [Ipnet] {spec : JailSpec}
    (hP : ∀ {ρ : Type} (c : Op Text ρ), c.OfFile .state spec.metadata.name → P c)
    (hnext : ∀ r nextEpairOrdinal, K r → K { r with nextEpairOrdinal })
    (hrecord : ∀ r record, K r →
      K { r with records := r.records.insert spec.metadata.name record }) :
    (apply spec : Method Text Unit).Keeps P R True K := by
  refine Proc.keeps_bind Proc.keeps_ofExcept fun _ => Proc.keeps_bind ?_ fun ordinal => ?_
  · refine Proc.keeps_get_bind fun r _ => ?_
    cases r.records.lookup spec.metadata.name with
    | some existing => exact Proc.keeps_bind Proc.keeps_ofExcept fun _ => Proc.keeps_ret
    | none =>
      refine Proc.keeps_bind (Proc.keeps_ofChecked fun _ _ => trivial) fun next => ?_
      exact Proc.keeps_bind (Proc.keeps_modify fun r hr => hnext r next hr) fun _ => Proc.keeps_ret
  · refine Proc.keeps_bind (keeps_save hP) fun _ => ?_
    exact Proc.keeps_modify fun r hr => hrecord r _ hr

theorem keeps_ensureIngressJail [Ipnet]
    (hP : ∀ {ρ : Type} (c : Op Text ρ), c.OfFile .state "ingress" → P c)
    (hK : ∀ r records nextEpairOrdinal, K r → K { r with records, nextEpairOrdinal }) :
    (ensureIngressJail : Method Text Unit).Keeps P R True K :=
  Proc.keeps_get_bind fun _ _ => Proc.keeps_ite Proc.keeps_ret
    (keeps_apply hP (fun r next hr => hK r r.records next hr) fun r _ hr => hK r _ r.nextEpairOrdinal hr)

/-- There is nothing to ensure without ingresses, or where their jail is
on record. -/
theorem makes_ensureIngressJail [Ipnet] {r : Reconciler}
    (h : r.ingressRecords.entries = [] ∨ "ingress" ∈ r.records) :
    (ensureIngressJail : Method Text Unit).Makes P R N (fun _ r' => r' = r) r := by
  have hdone : (r.ingressRecords.entries.isEmpty || decide ("ingress" ∈ r.records)) = true := by
    rcases h with hnone | hthere
    · rw [hnone]
      rfl
    · rw [decide_eq_true hthere, Bool.or_true]
  rw [ensureIngressJail, Proc.bind_eq, Proc.makes_bind, Proc.makes_get]
  dsimp only
  rw [if_pos hdone]
  exact rfl

end Records

/-! ## What returns no error -/

section NeverFails

theorem neverFails_recordIngressAttempt {name : String} :
    (recordIngressAttempt name : Method Text Unit).NeverFails := by
  refine Proc.neverFails_bind Proc.neverFails_get fun _ => ?_
  refine Proc.neverFails_bind (Proc.neverFails_ofChecked _) fun _ => ?_
  exact Proc.neverFails_bind (Proc.neverFails_ask _) fun _ => Proc.neverFails_modify _

theorem neverFails_ingressBackends {entries : List (String × IngressRecord)} :
    (ingressBackends entries : Method Text _).NeverFails := by
  induction entries with
  | nil => trivial
  | cons entry entries ih =>
    refine Proc.neverFails_bind (Proc.neverFails_ask _) fun vip => ?_
    refine Proc.neverFails_bind ih fun backends => ?_
    cases vip with
    | none => trivial
    | some vip => trivial

theorem neverFails_reconcileIngressConfig {p : Pass} :
    (reconcileIngressConfig p : Method Text Unit).NeverFails := by
  refine Proc.neverFails_bind Proc.neverFails_get fun r => ?_
  refine Proc.neverFails_bind neverFails_ingressBackends fun backends => ?_
  refine Proc.neverFails_bind (Proc.neverFails_ask _) fun written => ?_
  cases written with
  | error e => trivial
  | ok u =>
    refine Proc.neverFails_bind (Proc.neverFails_ask _) fun tested => ?_
    cases tested with
    | error e => trivial
    | ok u => exact Proc.neverFails_bind (Proc.neverFails_ask _) fun _ => trivial

theorem neverFails_reconcileAll {now : ℕ} {names : List String} :
    (reconcileAll now names : Method Text _).NeverFails := by
  induction names with
  | nil => trivial
  | cons name names ih =>
    refine Proc.neverFails_bind (Proc.neverFails_attempt _) fun result => ?_
    refine Proc.neverFails_bind ih fun failures => ?_
    cases result with
    | ok u => trivial
    | error e => trivial

variable [SerdeYaml Text IngressRecord]

theorem neverFails_issue {name pool : String} {record : IngressRecord} {nowUnix : ℤ} :
    (issue name record pool nowUnix : Method Text Unit).NeverFails := by
  refine Proc.neverFails_bind (Proc.neverFails_ask _) fun result => ?_
  cases result with
  | error e => exact neverFails_recordIngressAttempt
  | ok cert =>
    refine Proc.neverFails_bind (Proc.neverFails_attempt _) fun written => ?_
    cases written with
    | error e => exact neverFails_recordIngressAttempt
    | ok u =>
      refine Proc.neverFails_bind (Proc.neverFails_ofChecked _) fun expires => ?_
      refine Proc.neverFails_bind (Proc.neverFails_attempt _) fun saved => ?_
      cases saved with
      | error e => exact neverFails_recordIngressAttempt
      | ok u => exact Proc.neverFails_modify _

theorem neverFails_reconcileCert {nowUnix : ℤ} {name : String} :
    (reconcileCert nowUnix name : Method Text Unit).NeverFails := by
  refine Proc.neverFails_bind (Proc.neverFails_ask _) fun instant => ?_
  refine Proc.neverFails_bind (fun _ => trivial) fun ready => Proc.neverFails_ite ?_ trivial
  refine Proc.neverFails_bind Proc.neverFails_get fun r => ?_
  refine Proc.neverFails_bind (Proc.neverFails_ofChecked _) fun record => ?_
  refine Proc.neverFails_bind (Proc.neverFails_ask _) fun present => ?_
  refine Proc.neverFails_bind (Proc.neverFails_ofChecked _) fun needed => ?_
  exact Proc.neverFails_ite neverFails_issue trivial

theorem neverFails_reconcileCerts {p : Pass} :
    (reconcileCerts p : Method Text Unit).NeverFails :=
  Proc.neverFails_bind Proc.neverFails_get fun _ =>
    Proc.neverFails_forEach (fun _ => neverFails_reconcileCert) _

theorem neverFails_reconcileIngresses [SerdeYaml Text JailRecord] [Ipnet] {p : Pass} :
    (reconcileIngresses p : Method Text Unit).NeverFails :=
  Proc.neverFails_bind (Proc.neverFails_attempt _) fun _ =>
    Proc.neverFails_bind neverFails_reconcileCerts fun _ => neverFails_reconcileIngressConfig

end NeverFails

end Reconciler

/-! ## Every method -/

/-- **What memory keeps.** Apart from passes, a method serves ingresses,
puts records in place, or drops the record it deletes. -/
theorem Operation.keeps_memory [Ipnet] [SerdeYaml Text JailRecord] [SerdeYaml Text IngressRecord]
    {K : Reconciler → Prop} {op : Operation}
    (hingress : ∀ r r' : Reconciler, K r → Reconciler.AgreesOnJails r r' → K r')
    (hrecords : ∀ (r : Reconciler) (records : Table JailRecord) (nextEpairOrdinal : ℕ), K r →
      K { r with records, nextEpairOrdinal })
    (hdelete : ∀ name, op = .delete name → ∀ r : Reconciler, K r →
      K { r with records := r.records.erase name, backoff := r.backoff.erase name })
    (hone : ∀ p, op = .reconcile p → ∀ name, (Reconciler.reconcileOne name p.now :
      Method Text Unit).Keeps (fun _ => True) (fun _ _ => True) True K) :
    (op.method : Method Text Unit).Keeps (fun _ => True) (fun _ _ => True) True K := by
  have hserving : ∀ {α : Type} {m : Method Text α},
      (∀ r₀, m.Keeps Op.OfIngress (fun _ _ => True) True (Reconciler.AgreesOnJails r₀)) →
        m.Keeps (fun _ => True) (fun _ _ => True) True K :=
    fun hm => Reconciler.keeps_of_ofIngress hm (fun _ _ => trivial) hingress
  cases op with
  | apply spec =>
    exact Reconciler.keeps_apply (fun _ _ => trivial) (fun r next hr => hrecords r r.records next hr)
      fun r _ hr => hrecords r _ r.nextEpairOrdinal hr
  | delete name =>
    refine Proc.keeps_bind Reconciler.keeps_find fun record => Proc.keeps_get_bind fun r _ => ?_
    refine Proc.keeps_bind (Reconciler.keeps_tearDownJail.imp (fun _ _ => trivial)
      fun _ _ _ h => h) fun _ => ?_
    refine Proc.keeps_bind (Reconciler.keeps_removeYaml.imp (fun _ _ => trivial)
      fun _ _ _ h => h) fun _ => ?_
    exact Proc.keeps_modify (hdelete name rfl)
  | setReplicateTo name replicateTo =>
    refine Proc.keeps_bind Reconciler.keeps_find fun record => ?_
    refine Proc.keeps_bind (Reconciler.keeps_save fun _ _ => trivial) fun _ => ?_
    exact Proc.keeps_modify fun r hr => hrecords r _ r.nextEpairOrdinal hr
  | applyIngress spec => exact hserving fun _ => Reconciler.keeps_applyIngress
  | deleteIngress name => exact hserving fun _ => Reconciler.keeps_deleteIngress
  | ensureIngressJail => exact Reconciler.keeps_ensureIngressJail (fun _ _ => trivial) hrecords
  | reconcile p =>
    refine Proc.keeps_bind (Proc.keeps_bind (Proc.keeps_bind ?_ fun _ => Proc.keeps_bind ?_ fun _ =>
      ?_) fun _ => ?_) fun _ => Proc.keeps_ret
    · exact Proc.keeps_attempt (Reconciler.keeps_ensureIngressJail (fun _ _ => trivial) hrecords)
    · exact hserving fun _ => Reconciler.keeps_reconcileCerts
    · exact hserving fun _ => Reconciler.keeps_reconcileIngressConfig.imp
        (fun _ => Reconciler.OfConfig.ofIngress) fun _ _ _ h => h
    · exact Proc.keeps_get_bind fun _ _ =>
        Reconciler.keeps_reconcileAll fun name _ => hone p rfl name
  | get name now =>
    exact Proc.keeps_bind (Reconciler.keeps_get fun _ => trivial) fun _ => Proc.keeps_ret
  | list now =>
    exact Proc.keeps_bind (Reconciler.keeps_list fun _ => trivial) fun _ => Proc.keeps_ret
  | committedResources order =>
    exact Proc.keeps_bind (Reconciler.keeps_committedResources fun _ _ _ _ => trivial)
      fun _ => Proc.keeps_ret
  | getVolume name => exact Reconciler.keeps_getVolume fun _ => trivial
  | deleteVolume name => exact Proc.keeps_get_bind fun _ _ => Proc.keeps_tryCall trivial
  | addRoute subnet gatewayAddr => exact Proc.keeps_tryCall trivial
  | removeRoute subnet => exact Proc.keeps_tryCall trivial
  | addAlias bridge address => exact Proc.keeps_tryCall trivial
  | removeAlias bridge address => exact Proc.keeps_tryCall trivial

end Node

end Keel
