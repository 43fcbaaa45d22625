import Keel.Agent.Model.Registration
import Keel.ControlPlane.Model.Run
/-!
# The turns of the registration loop

What the loop does over and over: a node that is not registered registers,
one that is sends a heartbeat; then it fetches the peer list, and sleeps. A
request is a handler of the control plane's, part of the way through its
program, for as long as the loop waits. What the loop makes of an answer,
or of there being none, is here; that an answer is no answer is only
logged.
-/

namespace Keel

namespace Agent

open ControlPlane (Heartbeat NodeRegistration NodeStatus ServiceProxyEntry)

/-! ## Answers -/

/-- `send_request`, once there is a response: its body, if its status is a
success. -/
def accepted (response : ControlPlane.Response) : Option ControlPlane.ResponseBody :=
  if ControlPlane.isSuccess response.status then some response.body else none

/-- What `register_once` makes of a response. -/
def registerOnce [Ipnet] (response : ControlPlane.Response) : Option Ipv4Net :=
  match accepted response with
  | some (.registered podCidr) => (parseIpv4Net podCidr).toOption
  | _ => none

/-- What `heartbeat_once` makes of one. -/
def heartbeatOnce (response : ControlPlane.Response) : Option (List ServiceProxyEntry) :=
  match accepted response with
  | some (.entries entries) => some entries
  | _ => none

def fetchNodes (response : ControlPlane.Response) : Option (List NodeStatus) :=
  match accepted response with
  | some (.nodes statuses) => some statuses
  | _ => none

/-! ## The loop -/

/-- What a loop waits for an answer to. -/
inductive Errand
  | register
  | heartbeat
  | nodes
deriving DecidableEq

/-- A request, and how far the control plane is with it: not at all any
more, if its process is gone. -/
structure Call : Type 1 where
  errand : Errand
  handler : Option (ControlPlane.Handler ControlPlane.Response)

structure RegistrationLoop (A : Type) : Type 1 where
  /-- The request it waits on; none while it sleeps. -/
  call : Option Call
  registered : Bool
  /-- The `PodCidrSlot`. -/
  podCidr : Option Ipv4Net
  /-- The `ServiceVipSlot`. -/
  serviceVips : Table (String × ℕ)
  routes : Routes
  proxies : Proxies A

/-- What the outside decides of what a loop does with an answer: what
becomes of each command to the worker, and of each listener. -/
structure Circumstance where
  order : IterOrder
  replies : ℕ → Reply
  removed : ℕ → Reply
  added : ℕ → Reply
  bound : ℕ → Bool

namespace RegistrationLoop

variable {A : Type}

/-- A loop of an agent just started, on a machine that has just booted. -/
def start : RegistrationLoop A := ⟨none, false, none, ∅, ⟨∅, .new⟩, .start⟩

variable (l : RegistrationLoop A)

/-- A loop of an agent started again on a machine that has gone on: the
routes and the aliases are there, and the agent knows of none. -/
def respawn : RegistrationLoop A :=
  ⟨none, false, none, ∅, ⟨∅, l.routes.net⟩, ⟨∅, l.proxies.net⟩⟩

/-- On to the peer list. -/
def fetch : RegistrationLoop A := { l with call := some ⟨.nodes, some ControlPlane.handleList⟩ }

/-- The first request of a turn. `report` is what the worker tells of the
node; a worker that tells nothing makes a heartbeat fail before it is
sent. -/
def begin (me : NodeRegistration) (report : Option Heartbeat) : RegistrationLoop A :=
  if l.registered then
    match report with
    | some heartbeat =>
      { l with call := some ⟨.heartbeat, some (ControlPlane.handleHeartbeat me.id (.ok heartbeat))⟩ }
    | none => { l with registered := false }.fetch
  else { l with call := some ⟨.register, some (ControlPlane.handleRegister (.ok me))⟩ }

/-- `ServiceVipSlot::set_all`. -/
def setAll (entries : List ServiceProxyEntry) : Table (String × ℕ) :=
  entries.foldl (fun t entry => t.insert entry.name (entry.vip, entry.port)) ∅

/-- The loop comes back from a request, with a response or with none. -/
def conclude [Ipnet] (parse : String → Option A) (me : NodeRegistration) (x : Circumstance)
    (errand : Errand) (response : Option ControlPlane.Response) : RegistrationLoop A :=
  match errand with
  | .register =>
    match response.bind registerOnce with
    | some podCidr => { l with podCidr := some podCidr, registered := true }.fetch
    | none => l.fetch
  | .heartbeat =>
    match response.bind heartbeatOnce with
    | some entries =>
      { l with
        serviceVips := setAll entries
        proxies := l.proxies.reconcile parse ⟨entries, x.order, x.removed, x.added, x.bound⟩ }.fetch
    | none => { l with registered := false }.fetch
  | .nodes =>
    match response.bind fetchNodes with
    | some peers =>
      { l with call := none, routes := l.routes.reconcile me.id ⟨peers, x.order, x.replies⟩ }
    | none => { l with call := none }

end RegistrationLoop

end Agent

end Keel
