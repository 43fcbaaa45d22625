import Keel.ControlPlane.Model.Services
/-!
# The worker

The one thread that owns the control plane's tables, as a function: what
each command answers and what it leaves. A command's reply has the type
of its reply channel. `ReconcileServices` plans against a working copy of
the used addresses and records nothing.
-/

namespace Keel

namespace ControlPlane

/-- Everything the worker thread owns. -/
structure Worker where
  registry : Registry
  placements : Placements
  services : Services
  usedAddresses : UsedAddresses
  standbys : Standbys
  pendingFences : PendingFences

def Worker.spawn (clusterCidr serviceCidr : Ipv4Net) : Worker :=
  ⟨Registry.new clusterCidr, ∅, Services.new serviceCidr, UsedAddresses.new, ∅, ∅⟩

inductive ScheduleOrResolveError
  | schedule (e : ScheduleError)
  | resolve (e : ResolveError)
deriving DecidableEq

inductive PlacementError
  | notPlaced (jailName : String)
  | resolve (e : ResolveError)
deriving DecidableEq

def PlacementError.display : PlacementError → String
  | .notPlaced jailName => "no known placement for jail '" ++ jailName ++ "'"
  | .resolve e => e.display

structure ForceRepinPrep where
  oldNodeId : String
  standbyNodeId : String
  standbyAddr : String
  template : JailTemplate
  freshStandbyNodeId : String
  freshStandbyAddr : String
  address : Ipv4Addr
  prefixLen : ℕ
deriving DecidableEq

inductive ForceRepinError
  | notPlaced (replicaName : String)
  | notStateful (replicaName : String)
  | primaryStillAlive (nodeId : String)
  | standbyUnresolvable (e : ResolveError)
  | noFreshStandby
  | noFreeAddress
deriving DecidableEq

def ForceRepinError.display : ForceRepinError → String
  | .notPlaced r => "no known placement for replica '" ++ r ++ "'"
  | .notStateful r => "'" ++ r ++ "' is not a stateful replica with a standby"
  | .primaryStillAlive n => "current primary node '" ++ n ++ "' still resolves as alive"
  | .standbyUnresolvable e => "standby node is unreachable: " ++ e.display
  | .noFreshStandby => "no alive node available to serve as a fresh standby"
  | .noFreeAddress => "no free address available for the promoted primary"

/-- One step of a reconcile plan. -/
inductive ReplicaAction
  | schedule (replicaName nodeId nodeAddr : String) (template : JailTemplate)
      (address : Ipv4Addr) (prefixLen : ℕ) (standbyNodeId standbyAddr : Option String)
  | tearDown (replicaName nodeId nodeAddr : String)
deriving DecidableEq

structure ServiceReplica where
  name : String
  node : String
  address : String
deriving DecidableEq

structure ServiceSummary where
  name : String
  desiredReplicas : ℕ
  vip : String
  port : ℕ
deriving DecidableEq

structure ServiceProxyEntry where
  name : String
  vip : String
  port : ℕ
  replicas : List ServiceReplica
deriving DecidableEq

/-- The commands, each indexed by what its reply channel carries. -/
inductive Command : Type → Type
  | register (id addr : String) (replicateAddr : Option String) (capacityCpu : ℚ)
      (capacityMemory : ℕ) : Command (Except PodCidrCollision Ipv4Net)
  | heartbeat (id : String) (committedCpu : ℚ) (committedMemory : ℕ) (jails : List JailHealth) :
      Command (Except UnknownNode Unit)
  | list : Command (List NodeStatus)
  | resolve (id : String) : Command (Except ResolveError String)
  | resolveOrSchedule (jailName : String) :
      Command (Except ScheduleOrResolveError (String × String))
  | resolvePlacement (jailName : String) : Command (Except PlacementError (String × String))
  | recordPlacement (jailName nodeId : String) : Command Unit
  | removePlacement (jailName : String) : Command Unit
  | ownerOf (name : String) : Command (Option Owner)
  | applyService (name : String) (replicas : ℕ) (template : JailTemplate) (port : ℕ) :
      Command (Except ApplyServiceError Unit)
  | reconcileServices : Command (List ReplicaAction)
  | discoverService (name : String) : Command (Except UnknownService (List ServiceReplica))
  | listServices : Command (List ServiceSummary)
  | listServiceProxyEntries : Command (List ServiceProxyEntry)
  | deleteService (name : String) : Command (Except UnknownService (List ReplicaAction))
  | recordReplicaAddress (jailName nodeId : String) (address : Ipv4Addr) : Command Unit
  | releaseReplicaAddress (jailName : String) : Command Unit
  | recordStandby (replicaName nodeId : String) : Command Unit
  | recordPendingFence (replicaName nodeId : String) : Command Unit
  | pendingFencesForNode (nodeId : String) : Command (List String)
  | removePendingFence (replicaName : String) : Command Unit
  | prepareForceRepin (replicaName : String) : Command (Except ForceRepinError ForceRepinPrep)

namespace Worker

variable (w : Worker)

/-- The nodes that are alive, as the scheduler sees them. -/
def aliveNodes (now : Instant) : List NodeResources :=
  ((w.registry.list now).filter fun s => s.status = .alive).map fun s =>
    ⟨s.id, s.capacityCpu, s.capacityMemory, s.committedCpu, s.committedMemory⟩

def resolveOrSchedule (now : Instant) (jailName : String) :
    Except ScheduleOrResolveError (String × String) :=
  match w.placements.lookup jailName with
  | some nodeId => ((w.registry.resolve nodeId now).map fun addr => (nodeId, addr)).mapError .resolve
  | none =>
    match pickNode Binary64.nearest (w.aliveNodes now) with
    | .error e => .error (.schedule e)
    | .ok nodeId =>
      ((w.registry.resolve nodeId now).map fun addr => (nodeId, addr)).mapError .resolve

def resolvePlacement (now : Instant) (jailName : String) :
    Except PlacementError (String × String) :=
  match w.placements.lookup jailName with
  | none => .error (.notPlaced jailName)
  | some nodeId =>
    ((w.registry.resolve nodeId now).map fun addr => (nodeId, addr)).mapError .resolve

/-- The first of the names `<name>-0 … <name>-(replicas-1)` that is
placed and not this service's. -/
def nameConflict (name : String) (replicas : ℕ) : Option ApplyServiceError :=
  (List.range replicas).findSome? fun i =>
    match ControlPlane.ownerOf (replicaName name i) w.placements w.services with
    | some owner =>
      if owner = .service name then none
      else some (.nameConflict (replicaName name i) owner)
    | none => none

def applyService (name : String) (replicas : ℕ) (template : JailTemplate) (port : ℕ) :
    Except ApplyServiceError Unit × Worker :=
  match w.nameConflict name replicas with
  | some e => (.error e, w)
  | none =>
    -- Refusals of the table itself come after the check of the names.
    let (result, services) := w.services.apply name replicas template port
    (result, { w with services })

/-! ## A reconcile pass -/

/-- The placed replicas of a service: index, name, node. -/
def placed (serviceName : String) : List (ℕ × String × String) :=
  w.placements.entries.filterMap fun e =>
    (replicaIndex serviceName e.1).map fun idx => (idx, e.1, e.2)

/-- The indices that count as present: for a stateless service those on a
node that resolves, for a stateful one all that are placed. -/
def presentIndices (now : Instant) (serviceName : String) (record : ServiceRecord) : Finset ℕ :=
  if record.template.volumes = [] then
    (((w.placed serviceName).filter fun p => (w.registry.resolve p.2.2 now).isOk).map
      Prod.fst).toFinset
  else ((w.placed serviceName).map Prod.fst).toFinset

/-- A pass so far: its actions, the working copy of the used addresses,
and the nodes busy with the service at hand. -/
structure Plan where
  actions : List ReplicaAction
  workingUsed : UsedAddresses
  busy : Finset String

/-- The standby of a replica put on `nodeId`: another node, with an
address to replicate to. -/
def pickStandby (now : Instant) (nodeId : String) (busy : Finset String) :
    Option (String × String) :=
  match pickNodeForService Binary64.nearest (w.aliveNodes now) busy with
  | .error _ => none
  | .ok standbyId =>
    -- With every other node busy the scheduler falls back on this one.
    if standbyId = nodeId then none
    else (w.registry.replicateAddr standbyId).map fun addr => (standbyId, addr)

/-- `for idx in to_add`: schedule one replica, or skip it where no node,
network or address is left. -/
def scheduleReplica (now : Instant) (serviceName : String) (record : ServiceRecord) (p : Plan)
    (idx : ℕ) : Plan :=
  let name := replicaName serviceName idx
  match pickNodeForService Binary64.nearest (w.aliveNodes now) p.busy with
  | .error _ => p
  | .ok nodeId =>
    match w.registry.podCidr nodeId with
    | none => p
    | some podCidr =>
      match firstFreeAddress podCidr nodeId p.workingUsed with
      | none => p
      | some address =>
        match w.registry.resolve nodeId now with
        | .error _ => p
        | .ok nodeAddr =>
          -- The standby of a stateful replica is picked last, and may be missing.
          let busy := insert nodeId p.busy
          let standby :=
            if record.template.volumes = [] then none else w.pickStandby now nodeId busy
          { actions := p.actions ++ [.schedule name nodeId nodeAddr record.template address
              podCidr.prefixLen (standby.map Prod.fst) (standby.map Prod.snd)]
            workingUsed := p.workingUsed.record name nodeId address
            busy }

/-- `for idx in to_remove`: tear one replica down, if its node resolves. -/
def tearDownReplica (now : Instant) (serviceName : String) (p : Plan) (idx : ℕ) : Plan :=
  let name := replicaName serviceName idx
  match w.placements.lookup name with
  | none => p
  | some nodeId =>
    match w.registry.resolve nodeId now with
    | .error _ => p
    | .ok nodeAddr => { p with actions := p.actions ++ [.tearDown name nodeId nodeAddr] }

/-- `for (service_name, record) in services.list()`. -/
def planService (now : Instant) (p : Plan) (service : String × ServiceRecord) : Plan :=
  let (toAdd, toRemove) :=
    diffReplicas service.2.desiredReplicas (w.presentIndices now service.1 service.2)
  -- The used addresses go on from service to service, the busy nodes do not.
  let p := { p with busy := nodesHostingService service.1 w.placements }
  let p := toAdd.foldl (w.scheduleReplica now service.1 service.2) p
  toRemove.foldl (w.tearDownReplica now service.1) p

def reconcileServices (now : Instant) : List ReplicaAction :=
  (w.services.list.foldl (w.planService now) ⟨[], w.usedAddresses, ∅⟩).actions

/-! ## The other commands with a body -/

/-- The replicas of a service that are up: on a node that resolves and
that last reported them running, with an address. -/
def healthyReplicas (now : Instant) (name : String) : List ServiceReplica :=
  (w.placements.entries.filterMap fun e =>
    match replicaIndex name e.1 with
    | none => none
    | some _ =>
      if (w.registry.resolve e.2 now).isOk && w.registry.isJailRunning e.2 e.1 then
        -- The address on record, for whichever node it was recorded.
        (w.usedAddresses.addressOf e.1).map fun address => ⟨e.1, e.2, address.display⟩
      else none).insertionSort fun a b => a.name ≤ b.name

def discoverService (now : Instant) (name : String) :
    Except UnknownService (List ServiceReplica) :=
  match w.services.get name with
  | none => .error ⟨name⟩
  | some _ => .ok (w.healthyReplicas now name)

def listServices : List ServiceSummary :=
  w.services.list.map fun s => ⟨s.1, s.2.desiredReplicas, s.2.vip.display, s.2.port⟩

def listServiceProxyEntries (now : Instant) : List ServiceProxyEntry :=
  w.services.list.map fun s => ⟨s.1, s.2.vip.display, s.2.port, w.healthyReplicas now s.1⟩

/-- What a deleted service's replicas on nodes that resolve are torn
down with. -/
def deleteActions (now : Instant) (ord : IterOrder) (name : String) : List ReplicaAction :=
  (w.placements.iter ord).filterMap fun e =>
    match replicaIndex name e.1, w.registry.resolve e.2 now with
    | some _, .ok nodeAddr => some (.tearDown e.1 e.2 nodeAddr)
    | _, _ => none

def deleteService (now : Instant) (ord : IterOrder) (name : String) :
    Except UnknownService (List ReplicaAction) × Worker :=
  match w.services.get name with
  | none => (.error ⟨name⟩, w)
  | some _ => (.ok (w.deleteActions now ord name), { w with services := w.services.remove name })

def prepareForceRepin (now : Instant) (replicaName : String) :
    Except ForceRepinError ForceRepinPrep := do
  let some oldNodeId := w.placements.lookup replicaName | throw (.notPlaced replicaName)
  let some standbyNodeId := w.standbys.lookup replicaName | throw (.notStateful replicaName)
  if (w.registry.resolve oldNodeId now).isOk then throw (.primaryStillAlive oldNodeId)
  let standbyAddr ← (w.registry.resolve standbyNodeId now).mapError .standbyUnresolvable
  let some (.service serviceName) := ControlPlane.ownerOf replicaName w.placements w.services
    | throw (.notStateful replicaName)
  let some record := w.services.get serviceName | throw (.notStateful replicaName)
  let exclude : Finset String := {oldNodeId, standbyNodeId}
  let .ok freshStandbyNodeId := pickNodeForService Binary64.nearest (w.aliveNodes now) exclude
    | throw .noFreshStandby
  if freshStandbyNodeId ∈ exclude then throw .noFreshStandby
  let some freshStandbyAddr := w.registry.replicateAddr freshStandbyNodeId
    | throw .noFreshStandby
  -- The replica moves to its standby, so the address is one of that node.
  let some podCidr := w.registry.podCidr standbyNodeId | throw .noFreeAddress
  let some address := firstFreeAddress podCidr standbyNodeId w.usedAddresses
    | throw .noFreeAddress
  return { oldNodeId, standbyNodeId, standbyAddr, template := record.template
           freshStandbyNodeId, freshStandbyAddr, address, prefixLen := podCidr.prefixLen }

/-- **The worker.** What a command answers, and the tables it leaves. -/
def handleCommand (now : Instant) (ord : IterOrder) :
    {ρ : Type} → Command ρ → Worker → ρ × Worker
  | _, .register id addr replicateAddr capacityCpu capacityMemory, w =>
    let (result, registry) :=
      w.registry.register id addr replicateAddr capacityCpu capacityMemory now
    (result, { w with registry })
  | _, .heartbeat id committedCpu committedMemory jails, w =>
    let (result, registry) := w.registry.heartbeat id committedCpu committedMemory jails now
    (result, { w with registry })
  | _, .list, w => (w.registry.list now, w)
  | _, .resolve id, w => (w.registry.resolve id now, w)
  | _, .resolveOrSchedule jailName, w => (w.resolveOrSchedule now jailName, w)
  | _, .resolvePlacement jailName, w => (w.resolvePlacement now jailName, w)
  | _, .recordPlacement jailName nodeId, w =>
    ((), { w with placements := w.placements.insert jailName nodeId })
  | _, .removePlacement jailName, w =>
    ((), { w with placements := w.placements.erase jailName })
  | _, .ownerOf name, w => (ControlPlane.ownerOf name w.placements w.services, w)
  | _, .applyService name replicas template port, w => w.applyService name replicas template port
  | _, .reconcileServices, w => (w.reconcileServices now, w)
  | _, .discoverService name, w => (w.discoverService now name, w)
  | _, .listServices, w => (w.listServices, w)
  | _, .listServiceProxyEntries, w => (w.listServiceProxyEntries now, w)
  | _, .deleteService name, w => w.deleteService now ord name
  | _, .recordReplicaAddress jailName nodeId address, w =>
    ((), { w with usedAddresses := w.usedAddresses.record jailName nodeId address })
  | _, .releaseReplicaAddress jailName, w =>
    ((), { w with usedAddresses := w.usedAddresses.release jailName })
  | _, .recordStandby replicaName nodeId, w =>
    ((), { w with standbys := w.standbys.insert replicaName nodeId })
  | _, .recordPendingFence replicaName nodeId, w =>
    ((), { w with pendingFences := w.pendingFences.insert replicaName nodeId })
  | _, .pendingFencesForNode nodeId, w => (PendingFences.forNode w.pendingFences ord nodeId, w)
  | _, .removePendingFence replicaName, w =>
    ((), { w with pendingFences := w.pendingFences.erase replicaName })
  | _, .prepareForceRepin replicaName, w => (w.prepareForceRepin now replicaName, w)

end Worker

end ControlPlane

end Keel
