import Mathlib.Data.List.Sort
import Keel.Node.Model.Store
/-!
# The reconciler

Every method of the agent's reconciler, as a procedure that calls on the
machine: what operators ask of it, and the pass that brings each jail to
its record. Arithmetic is that of a build with overflow checks. A number
of cores is a rational, as in the specs.
-/

namespace Keel

namespace Node

open Agent (JailRecord volumeDatasetPath ZfsError)

/-! ## Cooldowns -/

namespace BackoffState

def second : ℕ := 1000000000

def initialDelay : ℕ := 1 * second

def maxDelay : ℕ := 300 * second

def resetUptimeThreshold : ℕ := 60 * second

def new : BackoffState := ⟨initialDelay, none, none⟩

variable (b : BackoffState) (now : ℕ)

def canRetry : Bool := b.nextRetryAt.all fun t => t ≤ now

/-- An action is taken: the next one is to wait. -/
def recordAttempt : BackoffState :=
  let delay := if b.lastStartedAt.any fun last => resetUptimeThreshold ≤ now - last
    then initialDelay else b.currentDelay
  ⟨min (delay * 2) maxDelay, some (now + delay), some now⟩

/-- Whole seconds to the next action, and of the delay after it. -/
def status : Option (ℕ × ℕ) :=
  b.nextRetryAt.map fun next => ((next - now) / second, b.currentDelay / second)

end BackoffState

structure JailStatus where
  record : JailRecord
  running : Bool
  backoff : Option (ℕ × ℕ)
deriving DecidableEq

/-- What a pass takes from the outside: the clocks, and the orders its
hash maps are iterated in. -/
structure Pass where
  now : ℕ
  nowUnix : ℤ
  order : IterOrder
  ingressOrder : IterOrder

/-- An error of a teardown that says there is nothing to tear down. -/
def JailError.isNotFound : JailError → Bool
  | .notFound _ => true
  | .commandFailed _ => false

def MountError.isNotMounted : MountError → Bool
  | .notMounted _ => true
  | .commandFailed _ => false

def zfsNotFound : ZfsError → Bool
  | .notFound _ => true
  | _ => false

variable {Text : Type}

/-- A step of a teardown, which what is gone already passes. -/
def tearDown {δ : Type} (gone : δ → Bool) (f : δ → ReconcileError) (c : Op Text (Except δ Unit)) :
    Method Text Unit := do
  match ← Proc.ask c with
  | .ok () => pure ()
  | .error e => if gone e then pure () else Proc.fail (f e)

namespace Reconciler

/-! ## Starting -/

/-- The first ordinal past those in use. -/
def firstFreeOrdinal (loaded : List JailRecord) : Checked ℕ :=
  match (loaded.map JailRecord.epairOrdinal).max? with
  | none => .ok 1
  | some m => Checked.add 32 m 1

def collectIngress (loaded : List IngressRecord) : Table IngressRecord :=
  loaded.foldl (fun t record => t.insert record.spec.metadata.name record) ∅

/-- A process that has read nothing yet. -/
def blank (pool : String) : Reconciler := ⟨pool, ∅, ∅, 1, ∅, ∅⟩

section

variable [SerdeYaml Text JailRecord] [SerdeYaml Text IngressRecord]

/-- A reconciler on what is on disk. -/
def new (pool : String) : Method Text Unit := do
  let loaded ← store.loadAll
  let nextEpairOrdinal ← Proc.ofChecked (firstFreeOrdinal loaded)
  let ingressLoaded ← ingressStore.loadAll
  Proc.modify fun _ => { blank pool with
    records := Agent.Reconciler.collect loaded
    nextEpairOrdinal
    ingressRecords := collectIngress ingressLoaded }

/-! ## What operators ask -/

/-- The ordinal of a spec's record: the one it has, or the next. -/
def takeOrdinal (spec : JailSpec) : Method Text ℕ := do
  let r ← Proc.get
  match r.records.lookup spec.metadata.name with
  | some existing => do
    Proc.ofExcept .invalidSpec (validateTransition existing.spec spec)
    return existing.epairOrdinal
  | none => do
    let nextEpairOrdinal ← Proc.ofChecked (Checked.add 32 r.nextEpairOrdinal 1)
    Proc.modify fun r => { r with nextEpairOrdinal }
    return r.nextEpairOrdinal

/-- Save a record, then keep it. -/
def keep (name : String) (record : JailRecord) : Method Text Unit := do
  store.save record
  Proc.modify fun r => { r with records := r.records.insert name record }

def validate [Ipnet] (spec : JailSpec) : Except SpecError Unit := do
  validateName spec.metadata.name
  validateAddress spec.spec.network.address
  let _ ← parseCpuCores spec.spec.resources.cpu
  let _ ← parseMemoryBytes spec.spec.resources.memory

def apply [Ipnet] (spec : JailSpec) : Method Text Unit := do
  Proc.ofExcept .invalidSpec (validate spec)
  let epairOrdinal ← takeOrdinal spec
  keep spec.metadata.name ⟨spec, epairOrdinal⟩

/-- The record asked for, if there is one. -/
def find (name : String) : Method Text JailRecord := do
  let r ← Proc.get
  match r.records.lookup name with
  | some record => pure record
  | none => Proc.fail (.notFound name)

def unmountVolumes (rootfs : Path) (volumes : List VolumeMount) : Method Text Unit :=
  Proc.forEach (fun volume => tearDown MountError.isNotMounted .mount
    (.unmount (mountTarget rootfs volume.mountPath))) volumes

/-- What there may be of a jail, gone; its volumes stay. -/
def tearDownJail (pool name : String) (record : JailRecord) : Method Text Unit := do
  Proc.tryCall .net (.detachJail (epairBaseName record.epairOrdinal))
  tearDown JailError.isNotFound .jail (.destroy (jailName name))
  unmountVolumes (jailRootfsPath pool name) record.spec.spec.volumes
  tearDown zfsNotFound .zfs (.destroyDataset (jailDatasetPath pool name))
  tearDown JailError.isNotFound .jail (.removeResourceLimits (jailName name))

def delete (name : String) : Method Text Unit := do
  let record ← find name
  let r ← Proc.get
  tearDownJail r.pool name record
  store.remove name
  Proc.modify fun r => { r with records := r.records.erase name, backoff := r.backoff.erase name }

def addRoute (subnet gatewayAddr : String) : Method Text Unit :=
  Proc.tryCall .net (.addRoute subnet gatewayAddr)

def removeRoute (subnet : String) : Method Text Unit := Proc.tryCall .net (.removeRoute subnet)

def addAlias (bridge address : String) : Method Text Unit :=
  Proc.tryCall .net (.addAlias bridge address)

def removeAlias (bridge address : String) : Method Text Unit :=
  Proc.tryCall .net (.removeAlias bridge address)

def getVolume (name : String) : Method Text Unit := do
  let r ← Proc.get
  let dataset := volumeDatasetPath r.pool name
  if ← Proc.tryCall .zfs (.datasetExists dataset) then pure ()
  else Proc.fail (.zfs (.notFound dataset))

def deleteVolume (name : String) : Method Text Unit := do
  let r ← Proc.get
  Proc.tryCall .zfs (.destroyDataset (volumeDatasetPath r.pool name))

def setReplicateTo (name : String) (replicateTo : Option String) : Method Text Unit := do
  let record ← find name
  keep name { record with
    spec := { record.spec with spec := { record.spec.spec with replicateTo } } }

def applyIngress (spec : IngressSpec) : Method Text Unit := do
  Proc.ofExcept .invalidSpec (validateName spec.metadata.name)
  Proc.ofExcept .invalidSpec (validateHost spec.spec.host)
  Proc.ofExcept .invalidSpec (validateEmail spec.spec.tls.email)
  Proc.ofExcept .invalidSpec
    (if spec.spec.backend.port = 0 then .error (.invalidPort 0) else .ok ())
  let r ← Proc.get
  let record : IngressRecord :=
    ⟨spec, (r.ingressRecords.lookup spec.metadata.name).bind IngressRecord.certExpiresAtUnix⟩
  ingressStore.save record
  Proc.modify fun r =>
    { r with ingressRecords := r.ingressRecords.insert spec.metadata.name record }

def deleteIngress (name : String) : Method Text Unit := do
  let r ← Proc.get
  Proc.ofExcept id (if name ∈ r.ingressRecords then .ok () else .error (.notFound name))
  ingressStore.remove name
  Proc.modify fun r => { r with
    ingressRecords := r.ingressRecords.erase name
    ingressBackoff := r.ingressBackoff.erase name }

end

/-! ## One jail -/

def attachJail (name bridge epairBase address : String) : Method Text Unit := do
  let result ← Proc.ask (.attachJail name bridge epairBase address)
  let result ← Proc.ofChecked result
  Proc.ofExcept .net result

/-- The limits of a record, to its jail. -/
def setLimits (name : String) (record : JailRecord) : Method Text Unit := do
  let cores ← Proc.ofExcept .invalidSpec (parseCpuCores record.spec.spec.resources.cpu)
  let memoryBytes ← Proc.ofExcept .invalidSpec (parseMemoryBytes record.spec.spec.resources.memory)
  Proc.tryCall .jail
    (.setResourceLimits (jailName name) (coresToPcpuPercent cores) memoryBytes)

def configureNetworkingAndLimits (name : String) (record : JailRecord) : Method Text Unit := do
  Proc.tryCall .net (.ensureBridgeExists record.spec.spec.network.bridge)
  attachJail (jailName name) record.spec.spec.network.bridge
    (epairBaseName record.epairOrdinal) record.spec.spec.network.address
  setLimits name record

/-- A volume's dataset, created if it is not there. -/
def ensureVolume (dataset quota : String) : Method Text Unit := do
  if ← Proc.tryCall .zfs (.datasetExists dataset) then pure ()
  else Proc.tryCall .zfs (.createVolume dataset quota)

/-- A volume's mount, made if it is not there. -/
def ensureMounted (source target : Path) : Method Text Unit := do
  if ← Proc.tryCall .mount (.isMounted target) then pure ()
  else Proc.tryCall .mount (.mountNullfs source target)

def mountVolume (pool : String) (rootfs : Path) (volume : VolumeMount) : Method Text Unit := do
  Proc.tryCall .mount (.ensureMountPoint (mountTarget rootfs volume.mountPath))
  ensureVolume (volumeDatasetPath pool volume.name) volume.size
  ensureMounted (volumeMountpoint pool volume.name) (mountTarget rootfs volume.mountPath)

/-- The image a jail is cloned from must be there. -/
def requireBaseImage (baseDataset : String) : Method Text Unit := do
  if ← Proc.tryCall .zfs (.datasetExists baseDataset) then pure ()
  else Proc.fail (.baseImageNotFound baseDataset)

def provision (pool name : String) (record : JailRecord) : Method Text Unit := do
  let baseDataset := baseDatasetPath pool record.spec.spec.image
  let rootfs := jailRootfsPath pool name
  requireBaseImage baseDataset
  Proc.tryCall .zfs (.cloneFromBase baseDataset (jailDatasetPath pool name))
  Proc.tryCall .jail (.create (jailName name) rootfs record.spec.spec.network.vnet)
  Proc.forEach (mountVolume pool rootfs) record.spec.spec.volumes
  configureNetworkingAndLimits name record
  Proc.tryCall .jail (.startCommand (jailName name) record.spec.spec.command)

def restart (name : String) (record : JailRecord) : Method Text Unit := do
  configureNetworkingAndLimits name record
  Proc.tryCall .jail (.startCommand (jailName name) record.spec.spec.command)

/-- The clean-up after a failed `provision`, whatever becomes of it. -/
def rollbackProvision (pool name : String) (record : JailRecord) : Method Text Unit := do
  let _ ← Proc.ask (.detachJail (epairBaseName record.epairOrdinal))
  let _ ← Proc.ask (.destroy (jailName name))
  Proc.forEach (fun volume => do
    let _ ← Proc.ask (.unmount (mountTarget (jailRootfsPath pool name) volume.mountPath)); pure ())
    record.spec.spec.volumes
  let _ ← Proc.ask (.destroyDataset (jailDatasetPath pool name))
  let _ ← Proc.ask (.removeResourceLimits (jailName name))

/-- Whether the cooldown of a jail is over; it has an entry from now on. -/
def checkCooldown (name : String) (now : ℕ) : Method Text Bool :=
  Proc.memory (fun r =>
    match r.backoff.lookup name with
    | some b => (b.canRetry now, r)
    | none => (BackoffState.new.canRetry now,
        { r with backoff := r.backoff.insert name .new })) Proc.ret

/-- `self.backoff.get_mut(name).unwrap().record_attempt(now)`. -/
def recordAttempt (name : String) (now : ℕ) : Method Text Unit := do
  let r ← Proc.get
  let b ← Proc.ofChecked (Checked.expect "called `Option::unwrap()` on a `None` value"
    (r.backoff.lookup name))
  Proc.modify fun r => { r with backoff := r.backoff.insert name (b.recordAttempt now) }

/-- A jail that is not there. -/
def reconcileAbsent (pool name : String) (record : JailRecord) (now : ℕ) : Method Text Unit := do
  let result ← (provision pool name record).attempt
  recordAttempt name now
  match result with
  | .ok () => pure ()
  | .error e => do
    rollbackProvision pool name record
    Proc.fail e

/-- A jail that is there. -/
def reconcileExisting (name : String) (record : JailRecord) (now : ℕ) : Method Text Unit := do
  if ← Proc.tryCall .jail (.isRunning (jailName name)) then setLimits name record
  else if record.spec.spec.restartPolicy = .never then pure ()
  else
    let result ← (restart name record).attempt
    recordAttempt name now
    Proc.ofExcept id result

def reconcileRecord (pool name : String) (record : JailRecord) (now : ℕ) : Method Text Unit := do
  if ← checkCooldown name now then
    if ← Proc.tryCall .jail (.jailExists (jailName name)) then reconcileExisting name record now
    else reconcileAbsent pool name record now
  else pure ()

def reconcileOne (name : String) (now : ℕ) : Method Text Unit := do
  let r ← Proc.get
  let record ← Proc.ofChecked (Checked.expect "no entry found for key" (r.records.lookup name))
  reconcileRecord r.pool name record now

/-! ## Ingresses -/

/-- The directory of the ingress jail's certificates. -/
def certsDir (pool : String) : Path :=
  jailRootfsPath pool "ingress" ++ components "usr/local/etc/nginx/certs".toList

def certPath (pool host : String) : Path := certsDir pool ++ components (host ++ ".crt").toList

def keyPath (pool host : String) : Path := certsDir pool ++ components (host ++ ".key").toList

def writeCertToIngressJail (pool host : String) (cert : Cert) : Method Text Unit := do
  let io := fun e => ReconcileError.store (.io .state host e)
  Proc.tryCall io (.createRootfsDir (certsDir pool))
  Proc.tryCall io (.writeRootfsFile (certPath pool host) cert.certPem)
  Proc.tryCall io (.writeRootfsFile (keyPath pool host) cert.keyPem)

def renewalThresholdSecs : ℤ := 30 * 24 * 60 * 60

/-- As `checkCooldown`, for an ingress. -/
def checkIngressCooldown (name : String) (now : ℕ) : Method Text Bool :=
  Proc.memory (fun r =>
    match r.ingressBackoff.lookup name with
    | some b => (b.canRetry now, r)
    | none => (BackoffState.new.canRetry now,
        { r with ingressBackoff := r.ingressBackoff.insert name .new })) Proc.ret

def recordIngressAttempt (name : String) : Method Text Unit := do
  let r ← Proc.get
  let b ← Proc.ofChecked (Checked.expect "called `Option::unwrap()` on a `None` value"
    (r.ingressBackoff.lookup name))
  let now ← Proc.ask .instantNow
  Proc.modify fun r => { r with ingressBackoff := r.ingressBackoff.insert name (b.recordAttempt now) }

/-- Whether a record's certificate is missing or runs out. -/
def needsIssuance (record : IngressRecord) (certFileMissing : Bool) (nowUnix : ℤ) : Checked Bool :=
  match record.certExpiresAtUnix with
  | none => .ok true
  | some expiresAt =>
    if certFileMissing then .ok true
    else do
      let left ← Checked.signed 64 (expiresAt - nowUnix)
      return decide (left < renewalThresholdSecs)

section

variable [SerdeYaml Text JailRecord] [SerdeYaml Text IngressRecord]

/-- A certificate for one ingress, written and on record. -/
def issue (name : String) (record : IngressRecord) (pool : String) (nowUnix : ℤ) :
    Method Text Unit := do
  match ← Proc.ask (.requestCertificate record.spec.spec.host record.spec.spec.tls.email) with
  | .error _ => recordIngressAttempt name
  | .ok cert =>
    match ← (writeCertToIngressJail pool record.spec.spec.host cert).attempt with
    | .error (_ : ReconcileError) => recordIngressAttempt name
    | .ok () =>
      let expires ← Proc.ofChecked (Checked.signed 64 (nowUnix + 90 * 24 * 60 * 60))
      let updated : IngressRecord := { record with certExpiresAtUnix := some expires }
      match ← (ingressStore.save updated).attempt with
      | .error (_ : ReconcileError) => recordIngressAttempt name
      | .ok () =>
        Proc.modify fun r => { r with ingressRecords := r.ingressRecords.insert name updated }

def reconcileCert (nowUnix : ℤ) (name : String) : Method Text Unit := do
  let instant ← Proc.ask .instantNow
  if ← checkIngressCooldown name instant then
    let r ← Proc.get
    let record ← Proc.ofChecked
      (Checked.expect "no entry found for key" (r.ingressRecords.lookup name))
    let present ← Proc.ask (.isFile (certPath r.pool record.spec.spec.host))
    if ← Proc.ofChecked (needsIssuance record (!present) nowUnix) then
      issue name record r.pool nowUnix

def reconcileCerts (p : Pass) : Method Text Unit := do
  let r ← Proc.get
  Proc.forEach (reconcileCert p.nowUnix) (p.ingressOrder.apply r.ingressRecords.keys)

end

structure IngressBackendConfig where
  host : String
  vip : String
  port : ℕ
  certPath : String
  keyPath : String
deriving DecidableEq

def renderServer (b : IngressBackendConfig) : String :=
  "    server \x7b\n        listen 443 ssl;\n        server_name " ++ b.host ++
    ";\n        ssl_certificate " ++ b.certPath ++ ";\n        ssl_certificate_key " ++ b.keyPath ++
    ";\n        location / \x7b\n            proxy_pass http://" ++ b.vip ++ ":" ++ toString b.port ++
    ";\n        \x7d\n    \x7d\n"

def renderNginxConfig (backends : List IngressBackendConfig) : String :=
  "user www; worker_processes 1;\nevents \x7b worker_connections 1024; \x7d\nhttp \x7b\n" ++
    "    server \x7b\n        listen 80 default_server;\n" ++
    "        return 301 https://$host$request_uri;\n    \x7d\n" ++
    backends.foldr (fun b rest => renderServer b ++ rest) "\x7d\n"

/-- The backends of the ingresses whose service is known, as it is
known. -/
def ingressBackends : List (String × IngressRecord) → Method Text (List IngressBackendConfig)
  | [] => pure []
  | (_, record) :: rest => do
    let vip ← Proc.ask (.serviceVip record.spec.spec.backend.service)
    let backends ← ingressBackends rest
    match vip with
    | none => pure backends
    | some (vip, port) =>
      pure ({ host := record.spec.spec.host, vip, port
              certPath := "/usr/local/etc/nginx/certs/" ++ record.spec.spec.host ++ ".crt"
              keyPath := "/usr/local/etc/nginx/certs/" ++ record.spec.spec.host ++ ".key" } ::
        backends)

def reconcileIngressConfig (p : Pass) : Method Text Unit := do
  let r ← Proc.get
  let backends ← ingressBackends (r.ingressRecords.iter p.ingressOrder)
  if let .ok () ← Proc.ask (.writeConfig "keel-ingress" (renderNginxConfig backends)) then
    if let .ok () ← Proc.ask (.testConfig "keel-ingress") then
      let _ ← Proc.ask (.reload "keel-ingress")

section

variable [SerdeYaml Text JailRecord] [SerdeYaml Text IngressRecord]

def ensureIngressJail [Ipnet] : Method Text Unit := do
  let r ← Proc.get
  if r.ingressRecords.entries.isEmpty || "ingress" ∈ r.records then pure ()
  else apply Agent.Reconciler.ingressSpec

/-! ## A pass -/

/-- The failures of a pass over some jails. -/
def reconcileAll (now : ℕ) : List String → Method Text (List (String × ReconcileError))
  | [] => pure []
  | name :: names => do
    let result ← (reconcileOne name now).attempt
    let failures ← reconcileAll now names
    match result with
    | .ok () => pure failures
    | .error (e : ReconcileError) => pure ((name, e) :: failures)

/-- What a pass does before it comes to the jails. -/
def reconcileIngresses [Ipnet] (p : Pass) : Method Text Unit := do
  let _ ← (ensureIngressJail.attempt : Method Text (Except ReconcileError Unit))
  reconcileCerts p
  reconcileIngressConfig p

def reconcile [Ipnet] (p : Pass) : Method Text (List (String × ReconcileError)) := do
  reconcileIngresses p
  let r ← Proc.get
  reconcileAll p.now (p.order.apply r.records.keys)

end

/-! ## Questions -/

def get (name : String) (now : ℕ) : Method Text (Option JailStatus) := do
  let r ← Proc.get
  match r.records.lookup name with
  | none => pure none
  | some record =>
    let running ← Proc.ask (.isRunning (jailName name))
    pure (some ⟨record, match running with
      | .ok running => running
      | .error _ => false, (r.backoff.lookup name).bind fun b => b.status now⟩)

def getAll (now : ℕ) : List String → Method Text (List JailStatus)
  | [] => pure []
  | name :: names => do
    let status ← get name now
    let statuses ← getAll now names
    pure (status.toList ++ statuses)

def list (now : ℕ) : Method Text (List JailStatus) := do
  let r ← Proc.get
  getAll now (r.records.keys.insertionSort (· ≤ ·))

/-- The cores and the memory of some records, summed. -/
def committed : List JailRecord → ℚ → ℕ → Checked (ℚ × ℕ)
  | [], cpu, mem => .ok (cpu, mem)
  | record :: records, cpu, mem => do
    let cpuCores ← Checked.expect "resources were already validated at apply time"
      (parseCpuCores record.spec.spec.resources.cpu).toOption
    let memBytes ← Checked.expect "resources were already validated at apply time"
      (parseMemoryBytes record.spec.spec.resources.memory).toOption
    let mem ← Checked.add 64 mem memBytes
    committed records (cpu + cpuCores) mem

def committedResources (order : IterOrder) : Method Text (ℚ × ℕ) := do
  let r ← Proc.get
  Proc.ofChecked (committed ((r.records.iter order).map Prod.snd) 0 0)

end Reconciler

end Node

end Keel
