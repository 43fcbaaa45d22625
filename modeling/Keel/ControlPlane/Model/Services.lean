import Mathlib.Algebra.Order.Ring.Rat
import Mathlib.Order.Interval.Finset.Basic
import Mathlib.Data.Finset.Lattice.Fold
import Mathlib.Order.Lattice.Nat
import Keel.Common.Binary64
import Keel.Spec.Validate
import Keel.ControlPlane.Model.Tables
import Keel.ControlPlane.Model.Registry
/-!
# The scheduler and the services

Node choice by headroom, compared as the `f64` it is computed as
(`Binary64.nearest`), the table of services with their virtual
addresses, and what a service's replicas are: the names
`<service>-<index>`, who owns a name, and which indices to add or remove.
-/

namespace Keel

namespace ControlPlane

/-! ## The scheduler -/

inductive ScheduleError
  | noAvailableNodes
deriving DecidableEq

def ScheduleError.display : ScheduleError → String
  | .noAvailableNodes => "no alive nodes available to schedule onto"

structure NodeResources where
  id : String
  capacityCpu : ℚ
  capacityMemory : ℕ
  committedCpu : ℚ
  committedMemory : ℕ

/-- The smaller of the two headroom fractions, each result of an operation
rounded by `f64`. -/
def headroomScore (f64 : ℚ → ℚ) (n : NodeResources) : ℚ :=
  let cpuFrac :=
    if n.capacityCpu > 0 then f64 (f64 (n.capacityCpu - n.committedCpu) / n.capacityCpu) else 0
  let memFrac :=
    if n.capacityMemory > 0 then
      f64 (f64 (f64 n.capacityMemory - f64 n.committedMemory) / f64 n.capacityMemory)
    else 0
  min cpuFrac memFrac

/-- One step of the choice: a better score wins, a smaller id breaks a
tie. -/
def better (best : Option (ℚ × String)) (candidate : ℚ × String) : Option (ℚ × String) :=
  match best with
  | none => some candidate
  | some current =>
    if candidate.1 > current.1 ∨ candidate.1 = current.1 ∧ candidate.2 < current.2 then
      some candidate
    else some current

def pickNode (f64 : ℚ → ℚ) (nodes : List NodeResources) : Except ScheduleError String :=
  match (nodes.map fun n => (headroomScore f64 n, n.id)).foldl better none with
  | some (_, id) => .ok id
  | none => .error .noAvailableNodes

-- The exact fraction of `b` is the greater, and rounded they are equal.
example :
    let nodes : List NodeResources :=
      [⟨"b", 1, 8589934591, 0, 4294967295⟩, ⟨"a", 1, 8589934593, 0, 4294967296⟩]
    pickNode id nodes = .ok "b" ∧ pickNode Binary64.nearest nodes = .ok "a" := by
  decide +kernel

/-! ## The services -/

structure ServiceRecord where
  desiredReplicas : ℕ
  template : JailTemplate
  vip : Ipv4Addr
  port : ℕ

structure Services where
  serviceCidr : Ipv4Net
  byName : Table ServiceRecord

/-- Whose a name is. -/
inductive Owner
  | unmanaged
  | service (name : String)
deriving DecidableEq

def Owner.display : Owner → String
  | .unmanaged => "an unmanaged jail"
  | .service name => "service '" ++ name ++ "'"

inductive ApplyServiceError
  | nameConflict (name : String) (owner : Owner)
  | templateChanged (name : String)
  | portChanged (name : String)
  | vipPoolExhausted (name : String)
deriving DecidableEq

def ApplyServiceError.display : ApplyServiceError → String
  | .nameConflict name owner => "name '" ++ name ++ "' is already in use by " ++ owner.display
  | .templateChanged name =>
    "service '" ++ name ++ "' template is immutable once created; delete and re-apply instead"
  | .portChanged name =>
    "service '" ++ name ++ "' port is immutable once created; delete and re-apply instead"
  | .vipPoolExhausted name =>
    "no free VIP available in the service CIDR for service '" ++ name ++ "'"

structure UnknownService where
  name : String
deriving DecidableEq

def UnknownService.display (e : UnknownService) : String := "unknown service '" ++ e.name ++ "'"

namespace Services

def new (serviceCidr : Ipv4Net) : Services := ⟨serviceCidr, ∅⟩

def get (s : Services) (name : String) : Option ServiceRecord := s.byName.lookup name

/-- Every service, sorted by name. -/
def list (s : Services) : List (String × ServiceRecord) :=
  (s.byName.entries.map fun e => (e.1, e.2)).insertionSort fun a b => a.1 ≤ b.1

/-- `(0..host_count).map(derive).find(free)`: the first candidate from
`attempt` on that is not taken, trying `left` of them. -/
def probeVip (name : String) (serviceCidr : Ipv4Net) (taken : List Ipv4Addr) :
    (left attempt : ℕ) → Option Ipv4Addr
  | 0, _ => none
  | left + 1, attempt =>
    let addr := deriveServiceVip name serviceCidr attempt
    if addr ∈ taken then probeVip name serviceCidr taken left (attempt + 1) else some addr

/-- Create the service under a free virtual address, or change how many
replicas it has; its template and port never change. -/
def apply (s : Services) (name : String) (desiredReplicas : ℕ) (template : JailTemplate)
    (port : ℕ) : Except ApplyServiceError Unit × Services :=
  match s.byName.lookup name with
  | some existing =>
    if existing.template ≠ template then (.error (.templateChanged name), s)
    else if existing.port ≠ port then (.error (.portChanged name), s)
    else
      (.ok (),
        { s with byName := s.byName.insert name ⟨desiredReplicas, template, existing.vip, port⟩ })
  | none =>
    let taken : List Ipv4Addr := s.byName.entries.map fun e => e.2.vip
    let hostCount := 2 ^ (32 - s.serviceCidr.prefixLen)
    match probeVip name s.serviceCidr taken hostCount 0 with
    | some vip =>
      (.ok (), { s with byName := s.byName.insert name ⟨desiredReplicas, template, vip, port⟩ })
    | none => (.error (.vipPoolExhausted name), s)

def remove (s : Services) (name : String) : Services := { s with byName := s.byName.erase name }

end Services

/-! ## Replicas -/

/-- `<service>-<index>`. -/
def replicaName (serviceName : String) (index : ℕ) : String :=
  serviceName ++ "-" ++ toString index

/-- The index a name has as a replica of a service: `<service>-` and then
the index as it would be printed. -/
def replicaIndex (serviceName jailName : String) : Option ℕ := do
  let rest ← jailName.toList.dropPrefix? serviceName.toList
  let suffix ← rest.dropPrefix? ['-']
  let index ← parseUnsigned 32 (String.ofList suffix)
  if toString index = String.ofList suffix then some index else none

/-- The owner of a placed name: the service whose replica it reads as, or
nobody's. -/
def ownerOf (name : String) (placements : Placements) (services : Services) : Option Owner :=
  match placements.lookup name with
  | none => none
  | some _ =>
    match services.byName.keys.find? fun serviceName => (replicaIndex serviceName name).isSome with
    | some serviceName => some (.service serviceName)
    | none => some .unmanaged

/-- A set of indices in ascending order. -/
def ascending (s : Finset ℕ) : List ℕ := (List.range (s.sup id + 1)).filter (· ∈ s)

/-- `(i..).filter(not in h).take(count)`, over the `left` indices from
`i` on. -/
def leastMissing (h : Finset ℕ) : (left i count : ℕ) → List ℕ
  | 0, _, _ => []
  | _, _, 0 => []
  | left + 1, i, count + 1 =>
    if i ∈ h then leastMissing h left (i + 1) (count + 1)
    else i :: leastMissing h left (i + 1) count

/-- The indices to schedule, least first, and those to tear down,
greatest first. -/
def diffReplicas (desired : ℕ) (healthyIndices : Finset ℕ) : List ℕ × List ℕ :=
  -- `len() as u32`: all `2 ^ 32` of them count as none.
  let healthyCount := healthyIndices.card % 2 ^ 32
  if healthyCount < desired then
    let missing := desired - healthyCount
    (leastMissing healthyIndices (2 ^ 32) 0 missing, [])
  else if healthyCount > desired then
    let excess := healthyCount - desired
    ([], (ascending healthyIndices).reverse.take excess)
  else ([], [])

/-- The nodes that host a replica of the service. -/
def nodesHostingService (serviceName : String) (placements : Placements) : Finset String :=
  ((placements.entries.filter fun e => (replicaIndex serviceName e.1).isSome).map
    Sigma.snd).toFinset

/-- A node off the busy ones where there is one, and any node else. -/
def pickNodeForService (f64 : ℚ → ℚ) (candidates : List NodeResources)
    (busyNodes : Finset String) : Except ScheduleError String :=
  let filtered := candidates.filter fun n => n.id ∉ busyNodes
  if filtered ≠ [] then pickNode f64 filtered else pickNode f64 candidates

example : replicaIndex "web" "web-2" = some 2 := by decide +kernel

example : diffReplicas 1 {0, 1, 2} = ([], [2, 1]) := by decide +kernel

end ControlPlane

end Keel
