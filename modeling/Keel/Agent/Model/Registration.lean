import Keel.ControlPlane.Model.Worker
/-!
# The registration loop

What a node's registration loop does with what it fetches: the peer list
becomes routes to the other nodes' pod networks, the service table becomes
aliases and listeners. The loop keeps a map of its own of either, and
reaches the network through commands to the worker, one at a time.

The network is the routes and aliases of `FakeNetManager`. What becomes of
a command, and whether a listener can be bound, is the outside's choice.
-/

namespace Keel

namespace Agent

open ControlPlane (NodeStatus NodeState ServiceProxyEntry)

/-- What becomes of a command to the worker. A command that is not done
leaves the network alone. -/
inductive Reply
  /-- `Ok(Ok(()))`. -/
  | done
  /-- `Ok(Err(_))`. -/
  | failed
  /-- The worker drops the reply's channel. -/
  | silent
  /-- There is no worker to send to. -/
  | gone
deriving DecidableEq

/-- The part of a node's network the loop works on. -/
structure FakeNetManager where
  routes : Table String
  aliases : Table (Finset String)

namespace FakeNetManager

def new : FakeNetManager := ⟨∅, ∅⟩

variable (n : FakeNetManager)

def addRoute (subnet gatewayAddr : String) : FakeNetManager :=
  { n with routes := n.routes.insert subnet gatewayAddr }

def removeRoute (subnet : String) : FakeNetManager := { n with routes := n.routes.erase subnet }

def addAlias (bridge address : String) : FakeNetManager :=
  { n with aliases := n.aliases.insert bridge (insert address ((n.aliases.lookup bridge).getD ∅)) }

def removeAlias (bridge address : String) : FakeNetManager :=
  match n.aliases.lookup bridge with
  | some set => { n with aliases := n.aliases.insert bridge (set.erase address) }
  | none => n

end FakeNetManager

/-! ## Routes -/

/-- `rsplit_once(':')`, less the port; all of it if there is none. -/
def hostPart (addr : String) : String :=
  if ':' ∈ addr.toList then
    String.ofList (addr.toList.reverse.dropWhile (· ≠ ':')).tail.reverse
  else addr

/-- The peers that are alive, this node left out. -/
def routed (selfId : String) (peers : List NodeStatus) : List NodeStatus :=
  peers.filter fun peer => peer.id ≠ selfId && peer.status = .alive

/-- The routes to add, with the peers' addresses, and the subnets to
remove, in the order the map of installed routes is iterated in. -/
def diffRoutes (selfId : String) (peers : List NodeStatus) (installed : Table String)
    (ord : IterOrder) : List (String × String) × List String :=
  (((routed selfId peers).filter fun peer => installed.lookup peer.id ≠ some peer.podCidr).map
      fun peer => (peer.podCidr, peer.addr),
    ((installed.iter ord).filter fun e => e.1 ∉ (routed selfId peers).map NodeStatus.id).map Prod.snd)

/-- The map of installed routes, by node id, and the network itself. -/
structure Routes where
  installed : Table String
  net : FakeNetManager

namespace Routes

variable (r : Routes)

/-- `installed_routes.retain(|_, v| v != pod_cidr)`. -/
def forget (installed : Table String) (podCidr : String) : Table String :=
  (installed.keys.filter fun id => installed.lookup id = some podCidr).foldl
    (fun t id => t.erase id) installed

/-- One turn of the loop that removes; none if the worker is gone. -/
def remove (reply : Reply) (podCidr : String) : Option Routes :=
  match reply with
  | .done => some ⟨forget r.installed podCidr, r.net.removeRoute podCidr⟩
  | .gone => none
  | _ => some r

/-- One turn of the loop that adds. The id is that of the first peer with
the subnet. -/
def add (reply : Reply) (peers : List NodeStatus) (podCidr gatewayAddr : String) : Option Routes :=
  match reply with
  | .done =>
    some
      { installed :=
          match peers.find? fun peer => peer.podCidr = podCidr with
          | some peer => r.installed.insert peer.id podCidr
          | none => r.installed
        net := r.net.addRoute podCidr (hostPart gatewayAddr) }
  | .gone => none
  | _ => some r

def removeAll (replies : ℕ → Reply) : ℕ → List String → Routes → Bool × Routes
  | _, [], r => (true, r)
  | i, podCidr :: rest, r =>
    match r.remove (replies i) podCidr with
    | some r => removeAll replies (i + 1) rest r
    | none => (false, r)

def addAll (replies : ℕ → Reply) (peers : List NodeStatus) :
    ℕ → List (String × String) → Routes → Routes
  | _, [], r => r
  | i, (podCidr, gatewayAddr) :: rest, r =>
    match r.add (replies i) peers podCidr gatewayAddr with
    | some r => addAll replies peers (i + 1) rest r
    | none => r

/-- What the outside decides of one pass. -/
structure Pass where
  peers : List NodeStatus
  order : IterOrder
  /-- By the commands of the pass, in order. -/
  replies : ℕ → Reply

def reconcile (selfId : String) (p : Pass) : Routes :=
  let (toAdd, toRemove) := diffRoutes selfId p.peers r.installed p.order
  let (goesOn, r) := removeAll p.replies 0 toRemove r
  if goesOn then addAll p.replies p.peers toRemove.length toAdd r else r

def run (selfId : String) (r : Routes) (passes : List Pass) : Routes :=
  passes.foldl (fun r p => r.reconcile selfId p) r

end Routes

example : hostPart "10.0.0.1:7621" = "10.0.0.1" := by decide +kernel

/-! ## Services -/

/-- Every bridge there is. -/
def proxyBridge : String := "keel0"

/-- A service the node relays to. `A` is the socket addresses a replica
can be connected to at. -/
structure ProxiedService (A : Type) where
  replicas : List A
  /-- The address and port its listener is bound to. -/
  listening : String × ℕ
  bridge : String
  vip : String

/-- The replicas' addresses at the entry's port, those that parse. -/
def replicaSocketAddrs {A : Type} (parse : String → Option A) (entry : ServiceProxyEntry) :
    List A :=
  entry.replicas.filterMap fun r => parse (r.address ++ ":" ++ toString entry.port)

/-- The services relayed to, by name, and the network. -/
structure Proxies (A : Type) where
  proxied : Table (ProxiedService A)
  net : FakeNetManager

namespace Proxies

variable {A : Type} (parse : String → Option A) (s : Proxies A)

/-- A service that has gone: its listener stops, and its alias is to be
removed, whether or not it is. -/
def drop (reply : Reply) (name : String) : Proxies A :=
  match s.proxied.lookup name with
  | none => s
  | some service =>
    { proxied := s.proxied.erase name
      net := if reply = .done then s.net.removeAlias service.bridge service.vip else s.net }

/-- An entry of the service table. Of a service known already only the
replicas are looked at. -/
def serve (reply : Reply) (bound : Bool) (entry : ServiceProxyEntry) : Proxies A :=
  match s.proxied.lookup entry.name with
  | some service =>
    { s with
      proxied :=
        s.proxied.insert entry.name { service with replicas := replicaSocketAddrs parse entry } }
  | none =>
    -- Only an answer that the alias failed is taken for a failure.
    if reply = .failed then s
    else
      let net := if reply = .done then s.net.addAlias proxyBridge entry.vip else s.net
      if bound then
        { proxied := s.proxied.insert entry.name
            ⟨replicaSocketAddrs parse entry, (entry.vip, entry.port), proxyBridge, entry.vip⟩
          net }
      else { s with net }

/-- What the outside decides of one call: what becomes of the commands
and whether listeners can be bound, by position in the list gone through. -/
structure Call where
  desired : List ServiceProxyEntry
  order : IterOrder
  removed : ℕ → Reply
  added : ℕ → Reply
  bound : ℕ → Bool

/-- The names of the services that have gone, in the order the map is
iterated in. -/
def gone (c : Call) : List String :=
  ((s.proxied.iter c.order).map Prod.fst).filter
    fun name => name ∉ c.desired.map ServiceProxyEntry.name

def reconcile (c : Call) : Proxies A :=
  c.desired.zipIdx.foldl (fun s e => s.serve parse (c.added e.2) (c.bound e.2) e.1)
    ((s.gone c).zipIdx.foldl (fun s e => s.drop (c.removed e.2) e.1) s)

def run (calls : List Call) : Proxies A := calls.foldl (reconcile parse) s

/-- A loop just started, relaying to nothing. -/
def start : Proxies A := ⟨∅, .new⟩

end Proxies

end Agent

end Keel
