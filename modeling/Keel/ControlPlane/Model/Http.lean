import Keel.Common.Request
import Keel.ControlPlane.Model.Worker
/-!
# The HTTP handlers

Each route of the control plane as a request program: commands to the
worker, forwards to the nodes' agents, and an answer. A body is what
`serde_yaml` reads it as at the type its route expects. A forward also
carries the id of the node it goes to and the place in the code it is
sent from, which the wire does not.
-/

namespace Keel

namespace ControlPlane

structure NodeRegistration where
  id : String
  addr : String
  replicateAddr : Option String
  capacityCpu : ℚ
  capacityMemory : ℕ

structure Heartbeat where
  committedCpu : ℚ
  committedMemory : ℕ
  jails : List JailHealth

inductive Method
  | get
  | put
  | delete
deriving DecidableEq

/-- The paths a forward can have on a node's agent. -/
inductive NodePath
  | jails
  | jail (name : String)
  | volume (name : String)
  | replicaTarget (name : String)
deriving DecidableEq

def NodePath.display : NodePath → String
  | .jails => "/jails"
  | .jail name => "/jails/" ++ name
  | .volume name => "/volumes/" ++ name
  | .replicaTarget name => "/replica-targets/" ++ name

/-- Where in the code a forward is sent from. -/
inductive Site
  /-- `/nodes/<id>/…`, an operator naming the node. -/
  | direct
  /-- `/jails/<name>`, the control plane choosing it. -/
  | scheduled
  /-- A `Schedule` of `execute_replica_actions`, at the planned address. -/
  | schedule (address : Ipv4Addr)
  /-- A `TearDown` of `execute_replica_actions`. -/
  | tearDown
  /-- The readiness `GET` of `handle_force_repin`. -/
  | readiness
  /-- The `PUT` of `handle_force_repin`. -/
  | promote
  /-- `check_and_execute_fencing`. -/
  | fencing
deriving DecidableEq

/-- A body on its way to an agent: nothing, or YAML that reads as a jail
spec or does not. -/
inductive Body
  | empty
  | yaml (read : Except String JailSpec)

structure Forward where
  addr : String
  method : Method
  path : NodePath
  body : Body
  nodeId : String
  site : Site

/-- A status and a body, or why there is none. -/
abbrev ForwardResult := Except String (ℕ × String)

inductive ResponseBody
  | empty
  | error (message : String)
  | raw (text : String)
  | registered (podCidr : String)
  | nodes (statuses : List NodeStatus)
  | replicas (replicas : List ServiceReplica)
  | summaries (summaries : List ServiceSummary)
  | entries (entries : List ServiceProxyEntry)

structure Response where
  status : ℕ
  body : ResponseBody

def errorResponse (status : ℕ) (message : String) : Response := ⟨status, .error message⟩

/-- `(200..300).contains(&status)`. -/
def isSuccess (status : ℕ) : Bool := 200 ≤ status && status < 300

abbrev Handler := Prog Command Forward ForwardResult

/-! ## The pieces the handlers share -/

def sendRecordPlacement (name nodeId : String) : Handler Unit :=
  Prog.send (.recordPlacement name nodeId)

def sendRemovePlacement (name : String) : Handler Unit := Prog.send (.removePlacement name)

def sendRecordReplicaAddress (name nodeId : String) (address : Ipv4Addr) : Handler Unit :=
  Prog.send (.recordReplicaAddress name nodeId address)

def sendReleaseReplicaAddress (name : String) : Handler Unit :=
  Prog.send (.releaseReplicaAddress name)

def sendRecordStandby (replicaName standbyNodeId : String) : Handler Unit :=
  Prog.send (.recordStandby replicaName standbyNodeId)

def sendRecordPendingFence (replicaName oldNodeId : String) : Handler Unit :=
  Prog.send (.recordPendingFence replicaName oldNodeId)

def sendRemovePendingFence (replicaName : String) : Handler Unit :=
  Prog.send (.removePendingFence replicaName)

def failedToReach (nodeId addr e : String) : Response :=
  errorResponse 500 ("failed to reach node '" ++ nodeId ++ "' at " ++ addr ++ ": " ++ e)

/-- Forward to a node the caller names. -/
def handleForward (id : String) (method : Method) (path : NodePath) (body : Body) :
    Handler Response := do
  match ← Prog.send (.resolve id) with
  | .error e => return errorResponse 404 e.display
  | .ok addr =>
    match ← Prog.call ⟨addr, method, path, body, id, .direct⟩ with
    | .ok (status, text) => return ⟨status, .raw text⟩
    | .error e => return failedToReach id addr e

/-- Refuse a name that is placed and reads as a service's replica. -/
def rejectIfServiceOwned (name : String) : Handler (Option Response) := do
  match ← Prog.send (.ownerOf name) with
  | some (.service owner) =>
    return some (errorResponse 400
      ("name '" ++ name ++ "' is already in use by service '" ++ owner ++ "'"))
  | _ => return none

/-- `format!("{address}/{prefix_len}")`. -/
def cidrOf (address : Ipv4Addr) (prefixLen : ℕ) : String :=
  address.display ++ "/" ++ toString prefixLen

/-- The spec a replica is sent to a node as. -/
def replicaSpec (template : JailTemplate) (name : String) (address : Ipv4Addr) (prefixLen : ℕ)
    (replicateTo : Option String) : JailSpec :=
  let spec := template.toJailSpec name (cidrOf address prefixLen)
  { spec with spec := { spec.spec with replicateTo } }

/-- Execute one planned action, recording it only once its node has said
yes. -/
def executeReplicaAction : ReplicaAction → Handler Unit
  | .schedule name nodeId nodeAddr template address prefixLen standbyNodeId standbyAddr => do
    let spec := replicaSpec template name address prefixLen standbyAddr
    match ← Prog.call ⟨nodeAddr, .put, .jail name, .yaml (.ok spec), nodeId,
        .schedule address⟩ with
    | .ok (status, _) =>
      if isSuccess status then
        sendRecordPlacement name nodeId
        sendRecordReplicaAddress name nodeId address
        match standbyNodeId with
        | some standbyId => sendRecordStandby name standbyId
        | none => return ()
      else return ()
    | .error _ => return ()
  | .tearDown name nodeId nodeAddr => do
    match ← Prog.call ⟨nodeAddr, .delete, .jail name, .empty, nodeId, .tearDown⟩ with
    | .ok (status, _) =>
      -- Here a `404` is no success, unlike in `executeFence`.
      if isSuccess status then
        sendRemovePlacement name
        sendReleaseReplicaAddress name
      else return ()
    | .error _ => return ()

def executeReplicaActions (actions : List ReplicaAction) : Handler Unit :=
  Prog.forEach executeReplicaAction actions

def reconcileAndExecute : Handler Unit := do
  executeReplicaActions (← Prog.send .reconcileServices)

/-- One owed delete: sent, and struck off on success or a `404`. -/
def executeFence (nodeId addr replicaName : String) : Handler Unit := do
  match ← Prog.call ⟨addr, .delete, .jail replicaName, .empty, nodeId, .fencing⟩ with
  | .ok (status, _) =>
    if isSuccess status || status == 404 then sendRemovePendingFence replicaName else return ()
  | .error _ => return ()

/-- The forced deletes the heartbeating node is owed. -/
def checkAndExecuteFencing (nodeId : String) : Handler Unit := do
  let replicaNames ← Prog.send (.pendingFencesForNode nodeId)
  if replicaNames.isEmpty then return ()
  match ← Prog.send (.resolve nodeId) with
  | .error _ => return ()
  | .ok addr => Prog.forEach (executeFence nodeId addr) replicaNames

/-! ## The handlers -/

def handleRegister (body : Except String NodeRegistration) : Handler Response := do
  match body with
  | .error e => return errorResponse 400 ("invalid YAML: " ++ e)
  | .ok r =>
    match ← Prog.send (.register r.id r.addr r.replicateAddr r.capacityCpu r.capacityMemory) with
    | .ok podCidr => return ⟨200, .registered podCidr.display⟩
    | .error e => return errorResponse 409 e.display

/-- A heartbeat: reconcile every service, then fence this node, then
answer the service table. -/
def handleHeartbeat (id : String) (body : Except String Heartbeat) : Handler Response := do
  match body with
  | .error e => return errorResponse 400 ("invalid YAML: " ++ e)
  | .ok h =>
    match ← Prog.send (.heartbeat id h.committedCpu h.committedMemory h.jails) with
    | .error e => return errorResponse 404 e.display
    | .ok () =>
      reconcileAndExecute
      checkAndExecuteFencing id
      return ⟨200, .entries (← Prog.send .listServiceProxyEntries)⟩

def handleList : Handler Response := do
  return ⟨200, .nodes (← Prog.send .list)⟩

def handlePutNodeJail (id name : String) (body : Except String JailSpec) : Handler Response := do
  match ← rejectIfServiceOwned name with
  | some response => return response
  | none =>
    let response ← handleForward id .put (.jail name) (.yaml body)
    if isSuccess response.status then
      sendRecordPlacement name id
    return response

def handleDeleteNodeJail (id name : String) : Handler Response := do
  let response ← handleForward id .delete (.jail name) .empty
  -- The address and the standby of the jail stay on record.
  if isSuccess response.status then
    sendRemovePlacement name
  return response

def handleScheduledApply (name : String) (body : Except String JailSpec) : Handler Response := do
  match ← Prog.send (.resolveOrSchedule name) with
  | .error (.schedule e) => return errorResponse 503 e.display
  | .error (.resolve e) => return errorResponse 404 e.display
  | .ok (nodeId, addr) =>
    match ← Prog.call ⟨addr, .put, .jail name, .yaml body, nodeId, .scheduled⟩ with
    | .ok (status, text) =>
      if isSuccess status then
        sendRecordPlacement name nodeId
      return ⟨status, .raw text⟩
    | .error e => return failedToReach nodeId addr e

def handlePutJail (name : String) (body : Except String JailSpec) : Handler Response := do
  match ← rejectIfServiceOwned name with
  | some response => return response
  | none => handleScheduledApply name body

def handleScheduledRead (name : String) : Handler Response := do
  match ← Prog.send (.resolvePlacement name) with
  | .error e => return errorResponse 404 e.display
  | .ok (nodeId, addr) =>
    match ← Prog.call ⟨addr, .get, .jail name, .empty, nodeId, .scheduled⟩ with
    | .ok (status, text) => return ⟨status, .raw text⟩
    | .error e => return failedToReach nodeId addr e

def handleScheduledDelete (name : String) : Handler Response := do
  match ← Prog.send (.resolvePlacement name) with
  | .error e => return errorResponse 404 e.display
  | .ok (nodeId, addr) =>
    match ← Prog.call ⟨addr, .delete, .jail name, .empty, nodeId, .scheduled⟩ with
    | .ok (status, text) =>
      if isSuccess status then
        sendRemovePlacement name
      return ⟨status, .raw text⟩
    | .error e => return failedToReach nodeId addr e

/-- The status `handle_force_repin` answers a refusal with. -/
def ForceRepinError.status : ForceRepinError → ℕ
  | .notPlaced _ => 404
  | .notStateful _ => 400
  | .primaryStillAlive _ => 409
  | _ => 503

/-- Provision the prepared replica on its standby and, once that node has
said yes, move every table over. -/
def promote (name : String) (prep : ForceRepinPrep) : Handler Response := do
  let spec :=
    replicaSpec prep.template name prep.address prep.prefixLen (some prep.freshStandbyAddr)
  match ← Prog.call ⟨prep.standbyAddr, .put, .jail name, .yaml (.ok spec), prep.standbyNodeId,
      .promote⟩ with
  | .ok (status, text) =>
    if isSuccess status then
      -- Four commands, with other requests' between them.
      sendRecordPlacement name prep.standbyNodeId
      sendRecordReplicaAddress name prep.standbyNodeId prep.address
      sendRecordStandby name prep.freshStandbyNodeId
      sendRecordPendingFence name prep.oldNodeId
      return ⟨200, .raw text⟩
    else return errorResponse status text
  | .error e => return failedToReach prep.standbyNodeId prep.standbyAddr e

def handleForceRepin (name : String) : Handler Response := do
  match ← Prog.send (.prepareForceRepin name) with
  | .error e => return errorResponse e.status e.display
  | .ok prep =>
    match ← Prog.call ⟨prep.standbyAddr, .get, .replicaTarget name, .empty, prep.standbyNodeId,
        .readiness⟩ with
    | .ok (status, text) =>
      if isSuccess status then promote name prep
      else if status == 404 || status == 409 then
        return errorResponse 409 ("standby node '" ++ prep.standbyNodeId ++
          "' has not completed a first full replication for '" ++ name ++ "'")
      else
        return errorResponse 500 ("unexpected response checking standby readiness: status " ++
          toString status ++ ", body " ++ text.quote)
    | .error e =>
      return errorResponse 500 ("failed to reach standby node '" ++ prep.standbyNodeId ++
        "' at " ++ prep.standbyAddr ++ ": " ++ e)

/-- The status `handle_apply_service` answers a refusal with. -/
def ApplyServiceError.status : ApplyServiceError → ℕ
  | .templateChanged _ => 409
  | .portChanged _ => 409
  | .nameConflict _ _ => 400
  | .vipPoolExhausted _ => 503

def handleApplyService (name : String) (body : Except String ServiceSpec) : Handler Response := do
  match parseAndValidateService body with
  | .error e => return errorResponse 400 ("invalid spec: " ++ e.display)
  | .ok spec =>
    if spec.metadata.name ≠ name then
      return errorResponse 400 ("path name '" ++ name ++ "' does not match spec.metadata.name '" ++
        spec.metadata.name ++ "'")
    match ← Prog.send (.applyService name spec.spec.replicas spec.spec.template spec.spec.port) with
    | .error e => return errorResponse e.status e.display
    | .ok () =>
      reconcileAndExecute
      return ⟨200, .empty⟩

def handleGetService (name : String) : Handler Response := do
  match ← Prog.send (.discoverService name) with
  | .ok replicas => return ⟨200, .replicas replicas⟩
  | .error e => return errorResponse 404 e.display

def handleListServices : Handler Response := do
  return ⟨200, .summaries (← Prog.send .listServices)⟩

def handleDeleteService (name : String) : Handler Response := do
  match ← Prog.send (.deleteService name) with
  | .ok actions =>
    executeReplicaActions actions
    return ⟨200, .empty⟩
  | .error e => return errorResponse 404 e.display

/-! ## Routes -/

/-- A request, past the router: its path's names, and its body as its
route reads it. -/
inductive Request
  | register (body : Except String NodeRegistration)
  | heartbeat (id : String) (body : Except String Heartbeat)
  | listNodes
  | putNodeJail (id name : String) (body : Except String JailSpec)
  | getNodeJails (id : String)
  | getNodeJail (id name : String)
  | deleteNodeJail (id name : String)
  | getNodeVolume (id name : String)
  | deleteNodeVolume (id name : String)
  | putJail (name : String) (body : Except String JailSpec)
  | getJail (name : String)
  | deleteJail (name : String)
  | putService (name : String) (body : Except String ServiceSpec)
  | getService (name : String)
  | deleteService (name : String)
  | listServices
  | forceRepin (name : String)
  | noRoute (method path : String)

/-- A request's bytes, as `serde_yaml` reads them at each type. -/
structure RequestBody where
  registration : Except String NodeRegistration
  heartbeat : Except String Heartbeat
  jail : Except String JailSpec
  service : Except String ServiceSpec

/-- `path.trim_start_matches('/').split('/')`, less the empty segments. -/
def segments (path : String) : List String :=
  ((path.toList.splitOn '/').filter (· ≠ [])).map String.ofList

/-- The router. -/
def route (method path : String) (body : RequestBody) : Request :=
  match method, segments path with
  | "POST", ["nodes", "register"] => .register body.registration
  | "POST", ["nodes", id, "heartbeat"] => .heartbeat id body.heartbeat
  | "GET", ["nodes"] => .listNodes
  | "PUT", ["nodes", id, "jails", name] => .putNodeJail id name body.jail
  | "GET", ["nodes", id, "jails"] => .getNodeJails id
  | "GET", ["nodes", id, "jails", name] => .getNodeJail id name
  | "DELETE", ["nodes", id, "jails", name] => .deleteNodeJail id name
  | "GET", ["nodes", id, "volumes", name] => .getNodeVolume id name
  | "DELETE", ["nodes", id, "volumes", name] => .deleteNodeVolume id name
  | "PUT", ["jails", name] => .putJail name body.jail
  | "GET", ["jails", name] => .getJail name
  | "DELETE", ["jails", name] => .deleteJail name
  | "PUT", ["services", name] => .putService name body.service
  | "GET", ["services", name] => .getService name
  | "DELETE", ["services", name] => .deleteService name
  | "GET", ["services"] => .listServices
  | "POST", ["replicas", name, "force-repin"] => .forceRepin name
  | _, _ => .noRoute method path

/-- The handler of each route. -/
def Request.handler : Request → Handler Response
  | .register body => handleRegister body
  | .heartbeat id body => handleHeartbeat id body
  | .listNodes => handleList
  | .putNodeJail id name body => handlePutNodeJail id name body
  | .getNodeJails id => handleForward id .get .jails .empty
  | .getNodeJail id name => handleForward id .get (.jail name) .empty
  | .deleteNodeJail id name => handleDeleteNodeJail id name
  | .getNodeVolume id name => handleForward id .get (.volume name) .empty
  | .deleteNodeVolume id name => handleForward id .delete (.volume name) .empty
  | .putJail name body => handlePutJail name body
  | .getJail name => handleScheduledRead name
  | .deleteJail name => handleScheduledDelete name
  | .putService name body => handleApplyService name body
  | .getService name => handleGetService name
  | .deleteService name => handleDeleteService name
  | .listServices => handleListServices
  | .forceRepin name => handleForceRepin name
  | .noRoute method path => Prog.ret (errorResponse 404 ("no route for " ++ method ++ " " ++ path))

example : segments "//nodes/n1/jails/web-0" = ["nodes", "n1", "jails", "web-0"] := by
  decide +kernel

end ControlPlane

end Keel
