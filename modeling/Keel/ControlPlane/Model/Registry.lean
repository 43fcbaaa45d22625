import Mathlib.Data.Rat.Defs
import Mathlib.Data.String.Basic
import Mathlib.Data.List.Sort
import Keel.Common.Net
/-!
# The node registry

What the control plane knows of each node: its addresses, its capacity,
the pod network its id hashes to, and when it last spoke. A node that has
not spoken for `deadThreshold` is dead, and no longer resolves. Times are
in nanoseconds; an `f64` is the rational it stands for.
-/

namespace Keel

namespace ControlPlane

/-- A reading of the clock, in nanoseconds. -/
abbrev Instant := ℕ

/-- `1s`. -/
def second : ℕ := 1000000000

def deadThreshold : ℕ := 15 * second

/-! ## Subnets -/

def podPrefixLen : ℕ := 24

/-- FNV-1a, on 32 bits. -/
def fnv1a (bytes : List UInt8) : BitVec 32 :=
  bytes.foldl (fun hash byte => (hash ^^^ BitVec.ofNat 32 byte.toNat) * 0x01000193#32)
    0x811c9dc5#32

def utf8 (s : String) : List UInt8 := s.toByteArray.data.toList

/-- The `/24` block of the cluster network a node's id hashes to. The
caller has checked that the cluster network holds one. -/
def derivePodCidr (nodeId : String) (clusterCidr : Ipv4Net) : Ipv4Net :=
  let blockCount := 2 ^ (podPrefixLen - clusterCidr.prefixLen)
  let index := (fnv1a (utf8 nodeId)).toNat % blockCount
  ⟨clusterCidr.network + BitVec.ofNat 32 (index * 2 ^ (32 - podPrefixLen)), podPrefixLen, by decide⟩

/-- The `attempt`-th candidate for a service's virtual address. The
caller has checked that the service network's prefix is not empty. -/
def deriveServiceVip (serviceName : String) (serviceCidr : Ipv4Net) (attempt : ℕ) : Ipv4Addr :=
  let hostCount := 2 ^ (32 - serviceCidr.prefixLen)
  let index := (fnv1a (utf8 serviceName) + BitVec.ofNat 32 attempt).toNat % hostCount
  serviceCidr.network + BitVec.ofNat 32 index

/-! ## Nodes -/

structure JailHealth where
  name : String
  running : Bool

inductive NodeState
  | alive
  | dead
deriving DecidableEq

structure NodeStatus where
  id : String
  addr : String
  podCidr : String
  status : NodeState
  lastSeenSecs : ℕ
  capacityCpu : ℚ
  capacityMemory : ℕ
  committedCpu : ℚ
  committedMemory : ℕ

structure NodeRecord where
  addr : String
  replicateAddr : Option String
  lastHeartbeat : Instant
  capacityCpu : ℚ
  capacityMemory : ℕ
  committedCpu : ℚ
  committedMemory : ℕ
  podCidr : Ipv4Net
  runningJails : Table Bool

structure Registry where
  clusterCidr : Ipv4Net
  nodes : Table NodeRecord

inductive ResolveError
  | unknown (id : String)
  | dead (id : String) (lastSeenSecs : ℕ)
deriving DecidableEq

def ResolveError.display : ResolveError → String
  | .unknown id => "unknown node '" ++ id ++ "'"
  | .dead id lastSeenSecs =>
    "node '" ++ id ++ "' is dead (last seen " ++ toString lastSeenSecs ++ "s ago)"

structure UnknownNode where
  id : String
deriving DecidableEq

def UnknownNode.display (e : UnknownNode) : String := "unknown node '" ++ e.id ++ "'"

structure PodCidrCollision where
  nodeId : String
  derived : String
  conflictingNodeId : String
deriving DecidableEq

def PodCidrCollision.display (e : PodCidrCollision) : String :=
  "node '" ++ e.nodeId ++ "' derived pod_cidr " ++ e.derived ++
    " which collides with already-registered node '" ++ e.conflictingNodeId ++ "'"

namespace Registry

def new (clusterCidr : Ipv4Net) : Registry := ⟨clusterCidr, ∅⟩

def register (r : Registry) (id addr : String) (replicateAddr : Option String) (capacityCpu : ℚ)
    (capacityMemory : ℕ) (now : Instant) : Except PodCidrCollision Ipv4Net × Registry :=
  let podCidr := derivePodCidr id r.clusterCidr
  match r.nodes.entries.find? fun e => e.1 ≠ id ∧ e.2.podCidr = podCidr with
  | some e => (.error ⟨id, podCidr.display, e.1⟩, r)
  | none =>
    (.ok podCidr,
      { r with
        nodes := r.nodes.insert id
          { addr, replicateAddr, lastHeartbeat := now, capacityCpu, capacityMemory
            committedCpu := 0, committedMemory := 0, podCidr, runningJails := ∅ } })

def heartbeat (r : Registry) (id : String) (committedCpu : ℚ) (committedMemory : ℕ)
    (jails : List JailHealth) (now : Instant) : Except UnknownNode Unit × Registry :=
  match r.nodes.lookup id with
  | some record =>
    (.ok (),
      { r with
        nodes := r.nodes.insert id
          { record with
            lastHeartbeat := now, committedCpu, committedMemory
            runningJails := jails.foldl (fun m j => m.insert j.name j.running) ∅ } })
  | none => (.error ⟨id⟩, r)

def isJailRunning (r : Registry) (nodeId jailName : String) : Bool :=
  ((r.nodes.lookup nodeId).bind fun record => record.runningJails.lookup jailName).getD false

def podCidr (r : Registry) (nodeId : String) : Option Ipv4Net :=
  (r.nodes.lookup nodeId).map NodeRecord.podCidr

def replicateAddr (r : Registry) (nodeId : String) : Option String :=
  (r.nodes.lookup nodeId).bind NodeRecord.replicateAddr

/-- Every node's status, sorted by id. -/
def list (r : Registry) (now : Instant) : List NodeStatus :=
  (r.nodes.entries.map fun e =>
    let elapsed := now - e.2.lastHeartbeat
    { id := e.1, addr := e.2.addr, podCidr := e.2.podCidr.display
      status := if elapsed < deadThreshold then .alive else .dead
      lastSeenSecs := elapsed / second
      capacityCpu := e.2.capacityCpu, capacityMemory := e.2.capacityMemory
      committedCpu := e.2.committedCpu, committedMemory := e.2.committedMemory
      : NodeStatus }).insertionSort fun a b => a.id ≤ b.id

/-- A node's address, if it has spoken lately. -/
def resolve (r : Registry) (id : String) (now : Instant) : Except ResolveError String :=
  match r.nodes.lookup id with
  | none => .error (.unknown id)
  | some record =>
    let elapsed := now - record.lastHeartbeat
    if elapsed ≥ deadThreshold then .error (.dead id (elapsed / second)) else .ok record.addr

end Registry

/-! ## Calls -/

/-- A call on the registry. -/
inductive RegistryCall
  | register (id addr : String) (replicateAddr : Option String) (capacityCpu : ℚ)
      (capacityMemory : ℕ) (now : Instant)
  | heartbeat (id : String) (committedCpu : ℚ) (committedMemory : ℕ) (jails : List JailHealth)
      (now : Instant)

namespace Registry

/-- What a call leaves. -/
def call (r : Registry) : RegistryCall → Registry
  | .register id addr replicateAddr capacityCpu capacityMemory now =>
    (r.register id addr replicateAddr capacityCpu capacityMemory now).2
  | .heartbeat id committedCpu committedMemory jails now =>
    (r.heartbeat id committedCpu committedMemory jails now).2

def calls (r : Registry) (l : List RegistryCall) : Registry := l.foldl call r

end Registry

end ControlPlane

end Keel
