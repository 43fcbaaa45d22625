import Keel.Common.Checked
import Keel.ControlPlane.Model.Worker
/-!
# The worker, with its panics

The same commands as in `Worker.handleCommand`, with every operation that
can stop the thread written out: the shifts, sums and products of the two
allocators, their assertions, and the open range the missing indices are
looked for in. What the other commands do cannot panic: they look up
tables, compare times that saturate, and divide floating-point numbers.
-/

namespace Keel

namespace ControlPlane

namespace Checked

open Keel.Checked

/-- `Ipv4Net::new(addr, prefix_len)`. -/
def ipv4Net (addr : Ipv4Addr) (prefixLen : ℕ) : Option Ipv4Net :=
  if h : prefixLen ≤ 32 then some ⟨addr, prefixLen, h⟩ else none

def derivePodCidr (nodeId : String) (clusterCidr : Ipv4Net) : Checked Ipv4Net := do
  ensure (clusterCidr.prefixLen ≤ podPrefixLen)
    ("cluster CIDR prefix length " ++ toString clusterCidr.prefixLen ++ " must be <= " ++
      toString podPrefixLen ++ " to contain at least one /24 block")
  let blockCount ← shl 32 (← sub podPrefixLen clusterCidr.prefixLen)
  let index ← rem (fnv1a (utf8 nodeId)).toNat blockCount
  let blockSize ← shl 32 (← sub 32 podPrefixLen)
  let blockAddr ← add 32 clusterCidr.network.toNat (← mul 32 index blockSize)
  expect "prefix length 24 is always valid for an IPv4 address"
    (ipv4Net (BitVec.ofNat 32 blockAddr) podPrefixLen)

def deriveServiceVip (serviceName : String) (serviceCidr : Ipv4Net) (attempt : ℕ) :
    Checked Ipv4Addr := do
  ensure (0 < serviceCidr.prefixLen)
    ("service CIDR prefix length " ++ toString serviceCidr.prefixLen ++
      " must be > 0 to avoid a shift overflow computing its host count")
  let hostCount ← shl 32 (← sub 32 serviceCidr.prefixLen)
  -- `wrapping_add` does not panic.
  let index ← rem (fnv1a (utf8 serviceName) + BitVec.ofNat 32 attempt).toNat hostCount
  let addr ← add 32 serviceCidr.network.toNat index
  return BitVec.ofNat 32 addr

def probeVip (name : String) (serviceCidr : Ipv4Net) (taken : List Ipv4Addr) :
    (left attempt : ℕ) → Checked (Option Ipv4Addr)
  | 0, _ => .ok none
  | left + 1, attempt => do
    let addr ← deriveServiceVip name serviceCidr attempt
    if addr ∈ taken then probeVip name serviceCidr taken left (attempt + 1) else return some addr

/-- `Services::apply`. -/
def apply (s : Services) (name : String) (desiredReplicas : ℕ) (template : JailTemplate)
    (port : ℕ) : Checked (Except ApplyServiceError Unit × Services) :=
  match s.byName.lookup name with
  | some existing =>
    if existing.template ≠ template then .ok (.error (.templateChanged name), s)
    else if existing.port ≠ port then .ok (.error (.portChanged name), s)
    else
      .ok (.ok (),
        { s with byName := s.byName.insert name ⟨desiredReplicas, template, existing.vip, port⟩ })
  | none => do
    let taken : List Ipv4Addr := s.byName.entries.map fun e => e.2.vip
    let hostCount ← shl 32 (← sub 32 s.serviceCidr.prefixLen)
    match ← probeVip name s.serviceCidr taken hostCount 0 with
    | some vip =>
      return (.ok (),
        { s with byName := s.byName.insert name ⟨desiredReplicas, template, vip, port⟩ })
    | none => return (.error (.vipPoolExhausted name), s)

/-- `(i..).filter(not in h).take(count)`: the range steps past an index
before it yields it, and `left` more steps stay within 32 bits. -/
def leastMissing (h : Finset ℕ) : (left i count : ℕ) → Checked (List ℕ)
  | _, _, 0 => .ok []
  | 0, _, _ + 1 => .error .overflow
  | left + 1, i, count + 1 =>
    if i ∈ h then leastMissing h left (i + 1) (count + 1)
    else do
      let rest ← leastMissing h left (i + 1) count
      return i :: rest

def diffReplicas (desired : ℕ) (healthyIndices : Finset ℕ) : Checked (List ℕ × List ℕ) := do
  let healthyCount := healthyIndices.card % 2 ^ 32
  if healthyCount < desired then
    let missing ← sub desired healthyCount
    let toAdd ← leastMissing healthyIndices (2 ^ 32 - 1) 0 missing
    return (toAdd, [])
  else if healthyCount > desired then
    let excess ← sub healthyCount desired
    return ([], (ascending healthyIndices).reverse.take excess)
  else return ([], [])

section

variable (w : Worker)

def planService (now : Instant) (p : Worker.Plan) (service : String × ServiceRecord) :
    Checked Worker.Plan := do
  let (toAdd, toRemove) ←
    diffReplicas service.2.desiredReplicas (w.presentIndices now service.1 service.2)
  let p := { p with busy := nodesHostingService service.1 w.placements }
  let p := toAdd.foldl (w.scheduleReplica now service.1 service.2) p
  return toRemove.foldl (w.tearDownReplica now service.1) p

/-- `for (service_name, record) in services.list()`. -/
def planServices (now : Instant) :
    Worker.Plan → List (String × ServiceRecord) → Checked Worker.Plan
  | p, [] => .ok p
  | p, service :: services => do planServices now (← planService w now p service) services

def reconcileServices (now : Instant) : Checked (List ReplicaAction) := do
  let p ← planServices w now ⟨[], w.usedAddresses, ∅⟩ w.services.list
  return p.actions

end

/-- **The worker, with its panics.** -/
def handleCommand (now : Instant) (ord : IterOrder) :
    {ρ : Type} → Command ρ → Worker → Checked (ρ × Worker)
  | _, .register id addr replicateAddr capacityCpu capacityMemory, w => do
    -- The block is derived before anything else, and again by the model below.
    let _ ← derivePodCidr id w.registry.clusterCidr
    return Worker.handleCommand now ord
      (.register id addr replicateAddr capacityCpu capacityMemory) w
  | _, .applyService name replicas template port, w =>
    match w.nameConflict name replicas with
    | some e => .ok (.error e, w)
    | none => do
      let (result, services) ← apply w.services name replicas template port
      return (result, { w with services })
  | _, .reconcileServices, w => do
    let actions ← reconcileServices w now
    return (actions, w)
  | _, c, w => .ok (Worker.handleCommand now ord c w)

end Checked

/-! ## Runs of the worker -/

/-- A command taken off the channel, with the clock and the iteration
order it meets. -/
structure Received where
  {ρ : Type}
  now : Instant
  order : IterOrder
  command : Command ρ

/-- What a command leaves of the tables. -/
def Received.after (c : Received) (w : Worker) : Worker :=
  (Worker.handleCommand c.now c.order c.command w).2

/-- `for command in rx { handle_command(..) }`, as far as the tables go. -/
def Worker.afterAll (w : Worker) (commands : List Received) : Worker :=
  commands.foldl (fun w c => c.after w) w

/-- The same loop with its panics: the thread ends at the first. -/
def Checked.afterAll (w : Worker) : List Received → Checked Worker
  | [] => .ok w
  | c :: commands => do
    let (_, w) ← Checked.handleCommand c.now c.order c.command w
    Checked.afterAll w commands

end ControlPlane

end Keel
