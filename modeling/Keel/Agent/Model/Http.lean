import Keel.Agent.Model.Worker
/-!
# The agent's HTTP handlers

What an agent answers to the control plane, or to an operator, and what
that leaves of it. A body is what `serde_yaml` reads it as at the type its
route expects. Of an answer only the status and the text of an error are
kept.
-/

namespace Keel

namespace Agent

inductive Request
  | putJail (name : String) (body : Except String JailSpec)
  | getJails
  | getJail (name : String)
  | deleteJail (name : String)
  /-- An empty body takes the address away. -/
  | putReplicateTo (name : String) (body : Option (Except String String))
  | getVolume (name : String)
  | deleteVolume (name : String)
  | getReplicaTarget (name : String)
  | noRoute (method path : String)

structure Response where
  status : ℕ
  error : Option String

def errorResponse (status : ℕ) (message : String) : Response := ⟨status, some message⟩

def ok : Response := ⟨200, none⟩

def ZfsError.display : ZfsError → String
  | .notFound dataset => "dataset '" ++ dataset ++ "' not found"
  | .busy dataset => "dataset '" ++ dataset ++ "' is busy"
  | .commandFailed message => message

/-- The text of an error, less the file a store error is about. -/
def ReconcileError.display : ReconcileError → String
  | .invalidSpec e => "spec validation failed: " ++ e.display
  | .store _ => "state store error"
  | .jail message => "jail runtime error: " ++ message
  | .zfs e => "zfs error: " ++ e.display
  | .net message => "network error: " ++ message
  | .mount message => "mount error: " ++ message
  | .notFound name => "jail '" ++ name ++ "' not found in desired state"

def statusForError : ReconcileError → ℕ
  | .invalidSpec (.immutableField _) => 409
  | .invalidSpec _ => 400
  | .notFound _ => 404
  | .zfs (.notFound _) => 404
  | .zfs (.busy _) => 409
  | _ => 500

/-- The answer to a command that can fail. -/
def reply : Except ReconcileError Unit → Response
  | .ok () => ok
  | .error e => errorResponse (statusForError e) e.display

namespace Agentd

variable (a : Agentd)

/-- An address that can be read and lies outside the node's pod network. -/
def outsidePodCidr [Ipnet] (address : String) : Option Ipv4Net :=
  match a.podCidr, Ipnet.parse address with
  | some podCidr, .ok (.v4 addr _) => if podCidr.contains addr then none else some podCidr
  | some podCidr, .ok (.v6 ..) => some podCidr
  | _, _ => none

def handleApply [Ipnet] (m : Machine) (pathName : String) (body : Except String JailSpec) :
    Response × Agentd :=
  match body with
  | .error e => (errorResponse 400 ("invalid YAML: " ++ e), a)
  | .ok spec =>
    if spec.metadata.name ≠ pathName then
      (errorResponse 400 ("path name '" ++ pathName ++
        "' does not match spec.metadata.name '" ++ spec.metadata.name ++ "'"), a)
    else
      match a.outsidePodCidr spec.spec.network.address with
      | some podCidr =>
        (errorResponse 400 ("network.address '" ++ spec.spec.network.address ++
          "' is outside this node's assigned subnet " ++ podCidr.display), a)
      | none =>
        let (result, a) := handleCommand m (.apply spec) a
        (reply result, a)

def handleGetReplicaTarget (name : String) : Response :=
  match a.targets.get name with
  | none => errorResponse 404 ("no replica target '" ++ name ++ "'")
  | some target =>
    if target.lastSnapshot.isNone then
      errorResponse 409 ("replica target '" ++ name ++
        "' has not completed a first full replication yet")
    else ok

def handleGet [Ipnet] (m : Machine) (name : Option String) : Response × Agentd :=
  let (records, a) := handleCommand m (.get name) a
  match name with
  | some n => (if records.isEmpty then errorResponse 404 ("jail '" ++ n ++ "' not found") else ok, a)
  | none => (ok, a)

def handleSetReplicateTo [Ipnet] (m : Machine) (name : String)
    (body : Option (Except String String)) : Response × Agentd :=
  match body with
  | some (.error e) => (errorResponse 400 ("invalid YAML: " ++ e), a)
  | some (.ok replicateTo) =>
    let (result, a) := handleCommand m (.setReplicateTo name (some replicateTo)) a
    (reply result, a)
  | none =>
    let (result, a) := handleCommand m (.setReplicateTo name none) a
    (reply result, a)

/-- The handlers that are one command. -/
def handleReply [Ipnet] (m : Machine) (c : Command (Except ReconcileError Unit)) :
    Response × Agentd :=
  let (result, a) := handleCommand m c a
  (reply result, a)

def handle [Ipnet] (m : Machine) : Request → Response × Agentd
  | .putJail name body => a.handleApply m name body
  | .getJails => a.handleGet m none
  | .getJail name => a.handleGet m (some name)
  | .deleteJail name => a.handleReply m (.delete name)
  | .putReplicateTo name body => a.handleSetReplicateTo m name body
  | .getVolume name => a.handleReply m (.getVolume name)
  | .deleteVolume name => a.handleReply m (.deleteVolume name)
  | .getReplicaTarget name => (a.handleGetReplicaTarget name, a)
  | .noRoute method path =>
    (errorResponse 404 ("no route for " ++ method ++ " " ++ path), a)

/-- The agent's process is gone and started again: `main` loads what is on
disk and resumes the loops. -/
def restart : Agentd :=
  (start a.pool a.zfs a.reconciler.saved a.targets.saved).resumeReplicationLoops

/-- The spec of the record an agent has of a jail. -/
def specOf (name : String) : Option JailSpec :=
  (a.reconciler.records.lookup name).map JailRecord.spec

end Agentd

/-- What a request, once carried out, makes of a record: the jail, and its
new spec. -/
def Request.writes? : Request → Option (String × Option JailSpec)
  | .putJail name (.ok spec) => some (name, some spec)
  | .deleteJail name => some (name, none)
  | _ => none

end Agent

end Keel
