import Mathlib.Data.String.Basic
import Mathlib.Data.List.Sort
import Keel.Agent.Model.Reconciler
/-!
# The agent's worker and its loops

The thread that owns an agent's records, as a function of the commands it
is sent, and the replication loops it spawns: one for each replicated
record's name it has not spawned one for before. The names are kept in
`replicating`, and nothing takes a name off. A loop asks the worker for
its record at every turn, and ends when there is none.
-/

namespace Keel

namespace Agent

/-- Where a loop's thread is. -/
inductive ThreadPhase
  | sleeping
  /-- It was told that its record is gone. -/
  | stopping
  /-- It is in `send_once`, connected to an address, and was answered or
  not. -/
  | sending (addr : String) (ack : Option Ack)
  | exited
deriving DecidableEq

/-- The thread of a replication loop. -/
structure Thread where
  loop : ReplicationLoop
  phase : ThreadPhase

structure Agentd where
  /-- The pod network the node was told it has. -/
  podCidr : Option Ipv4Net
  zfs : FakeZfsManager
  reconciler : Reconciler
  replicating : Finset String
  /-- Every thread spawned, in order. -/
  threads : List Thread
  targets : ReplicaTargetRegistry

/-- The commands, each indexed by what its reply channel carries. Of a
jail's status only the record is kept. -/
inductive Command : Type → Type
  | apply (spec : JailSpec) : Command (Except ReconcileError Unit)
  | get (name : Option String) : Command (List JailRecord)
  | delete (name : String) : Command (Except ReconcileError Unit)
  | tick : Command Unit
  | getVolume (name : String) : Command (Except ReconcileError Unit)
  | deleteVolume (name : String) : Command (Except ReconcileError Unit)
  | setReplicateTo (name : String) (replicateTo : Option String) :
      Command (Except ReconcileError Unit)
  | resumeReplicationLoops : Command Unit

/-- A spec with a volume and somewhere to replicate it to. -/
def isStatefulAndReplicated (spec : Spec) : Bool := !spec.volumes.isEmpty && spec.replicateTo.isSome

namespace Agentd

/-- An agent just started on what it finds on its disk. -/
def start (pool : String) (zfs : FakeZfsManager) (records : Table JailRecord)
    (targets : Table ReplicaTarget) : Agentd :=
  ⟨none, zfs, .new pool records, ∅, [], .load targets⟩

variable (a : Agentd)

def pool : String := a.reconciler.pool

/-- What its replication listener works on. -/
def listener : Listener := ⟨a.pool, a.zfs, a.targets⟩

/-- What the listener leaves. -/
def setListener (l : Listener) : Agentd := { a with zfs := l.zfs, targets := l.targets }

/-- `if replicating.insert(name) { replication_loop::spawn(..) }`. -/
def startReplicating (name : String) : Agentd :=
  if name ∈ a.replicating then a
  else
    { a with
      replicating := insert name a.replicating
      threads := a.threads ++ [⟨.spawn name (name ++ "-data") a.pool, .sleeping⟩] }

def reconcile [Ipnet] (m : Machine) : Agentd :=
  let (reconciler, zfs) := a.reconciler.reconcile m a.zfs
  { a with reconciler, zfs }

def apply [Ipnet] (m : Machine) (spec : JailSpec) : Except ReconcileError Unit × Agentd :=
  let (result, reconciler) := a.reconciler.apply m.saves spec
  let a := { a with reconciler }.reconcile m
  (result,
    if result.isOk && isStatefulAndReplicated spec.spec then a.startReplicating spec.metadata.name else a)

def delete [Ipnet] (m : Machine) (name : String) : Except ReconcileError Unit × Agentd :=
  let (result, reconciler) := a.reconciler.delete m name
  (result, { a with reconciler }.reconcile m)

def get : Option String → List JailRecord
  | some name => (a.reconciler.records.lookup name).toList
  | none => a.reconciler.list

/-- A loop for each of some records. -/
def startAll (records : List JailRecord) : Agentd :=
  records.foldl (fun a record => a.startReplicating record.spec.metadata.name) a

def resumeReplicationLoops : Agentd :=
  a.startAll (a.reconciler.list.filter fun record => isStatefulAndReplicated record.spec.spec)

/-- **The worker.** What a command answers, and the agent it leaves. -/
def handleCommand [Ipnet] (m : Machine) : {ρ : Type} → Command ρ → Agentd → ρ × Agentd
  | _, .apply spec, a => a.apply m spec
  | _, .get name, a => (a.get name, a)
  | _, .delete name, a => a.delete m name
  | _, .tick, a => ((), a.reconcile m)
  | _, .getVolume name, a => (a.reconciler.getVolume a.zfs name, a)
  | _, .deleteVolume name, a =>
    let (result, zfs) := a.reconciler.deleteVolume a.zfs name
    (result, { a with zfs })
  | _, .setReplicateTo name replicateTo, a =>
    let (result, reconciler) := a.reconciler.setReplicateTo m.saves name replicateTo
    (result, { a with reconciler })
  | _, .resumeReplicationLoops, a => ((), a.resumeReplicationLoops)

/-! ## The loops -/

def setThread (i : ℕ) (t : Thread) : Agentd := { a with threads := a.threads.set i t }

/-- Thread `i` wakes and takes its turn, up to the header it sends. -/
def wake (i : ℕ) (snapshots connects : Bool) (fresh : Stamp) : Agentd :=
  match a.threads[i]? with
  | some ⟨loop, .sleeping⟩ =>
    let loop := { loop with tick := loop.tick + 1 }
    match a.reconciler.records.lookup loop.replicaName with
    | none => a.setThread i ⟨loop, .stopping⟩
    | some record =>
      match record.spec.spec.replicateTo with
      | none => a.setThread i ⟨loop, .sleeping⟩
      | some addr =>
        match loop.takeSnapshot snapshots fresh a.zfs with
        | (false, zfs) => { a with zfs }.setThread i ⟨loop, .sleeping⟩
        | (true, zfs) =>
          { a with zfs }.setThread i ⟨loop, if connects then .sending addr none else .sleeping⟩
  | _ => a

/-- Thread `i` comes back from `send_once`. -/
def conclude (i : ℕ) (prunes : Bool) (result : SendOnce) : Agentd :=
  match a.threads[i]? with
  | some ⟨loop, .sending _ _⟩ =>
    let (loop, zfs) := loop.conclude prunes result a.zfs
    { a with zfs }.setThread i ⟨loop, .sleeping⟩
  | _ => a

/-- Thread `i` ends. -/
def exit (i : ℕ) : Agentd :=
  match a.threads[i]? with
  | some ⟨loop, .stopping⟩ => a.setThread i ⟨loop, .exited⟩
  | _ => a

end Agentd

end Agent

end Keel
