import Keel.Agent.Model.Http
import Keel.Node.Model.Run
/-!
# The agent's process

`keel-agentd` as its `main` sets it up: the worker with its reconciler,
which calls on the machine; the replication loops the worker spawns; and
the replication listener. The loops and the listener have a ZFS manager
each, on the machine's one ZFS, and a loop asks the worker for its record
at every turn.

A method that panics ends the worker's thread and leaves the process
there; the machine going down at a call ends the process. Nothing in
memory outlives the process.
-/

namespace Keel

namespace Node

open Agent (JailRecord ReplicationLoop Thread Listener Stamp SendStream
  SendOnce Header Ack FakeZfsManager isStatefulAndReplicated)

structure Daemon (Text : Type) where
  sys : System Text (Host Text)
  /-- The process is there, with or without its worker. -/
  alive : Bool
  podCidr : Option Ipv4Net
  replicating : Finset String
  /-- Every thread spawned, in order. -/
  threads : List Thread
  targets : Agent.ReplicaTargetRegistry

/-- What a command's reply channel carries. -/
inductive Reply
  | result (r : Except ReconcileError Unit)
  | jails (statuses : List JailStatus)
  | resources (cpu : ℚ) (memory : ℕ)
  | ingresses (records : List IngressRecord)
  | done

namespace Daemon

variable {Text α : Type} (d : Daemon Text)

def host : Host Text := d.sys.trace.world

def zfs : FakeZfsManager := d.host.zfs

/-- A loop or the listener has worked on the machine's ZFS. -/
def setZfs (zfs : FakeZfsManager) : Daemon Text :=
  { d with sys := { d.sys with trace := { d.sys.trace with world := { d.host with zfs } } } }

def setThread (i : ℕ) (t : Thread) : Daemon Text := { d with threads := d.threads.set i t }

/-- The process is gone. -/
def down : Daemon Text :=
  { d with sys := { d.sys with memory := none }, alive := false }

/-- A machine no process has been started on. -/
def fresh (machine : Host Text) (targets : Table Agent.ReplicaTarget) : Daemon Text :=
  ⟨.fresh machine, false, none, ∅, [], .load targets⟩

variable [Ipnet] (pool : String) (choices : ℕ → Option (Outcome Text))

/-! ## The worker -/

/-- A method on the worker, and what it returns, if there is a worker and
it gets to. -/
def call (m : Method Text α) : Option (Except ReconcileError α) × Daemon Text :=
  match d.sys.memory with
  | none => (none, d)
  | some r =>
    match m.run Host.outside choices r d.sys.trace with
    | (.returned result r, t) => (some result, { d with sys := ⟨some r, t⟩ })
    | (.stopped (.panicked _), t) => (none, { d with sys := ⟨none, t⟩ })
    | (.stopped .crashed, t) => (none, { d with sys := ⟨none, t⟩ }.down)

omit [Ipnet] in
/-- `if replicating.insert(name) { replication_loop::spawn(..) }`. -/
def startReplicating (name : String) : Daemon Text :=
  if name ∈ d.replicating then d
  else
    { d with
      replicating := insert name d.replicating
      threads := d.threads ++ [⟨.spawn name (name ++ "-data") pool, .sleeping⟩] }

omit [Ipnet] in
/-- A loop for each of some jails that is to have one. -/
def startAll (statuses : List JailStatus) : Daemon Text :=
  statuses.foldl (fun d status =>
    if isStatefulAndReplicated status.record.spec.spec then
      d.startReplicating pool status.record.spec.metadata.name
    else d) d

variable [SerdeYaml Text JailRecord] [SerdeYaml Text IngressRecord]

/-- A change to the desired state, the pass that follows it, and the reply
to the change. -/
def changed (p : Pass) (m : Method Text Unit) : Option (Except ReconcileError Unit) × Daemon Text :=
  match d.call choices m with
  | (none, d) => (none, d)
  | (some result, d) =>
    match d.call choices (Reconciler.reconcile p) with
    | (none, d) => (none, d)
    | (some _, d) => (some result, d)

/-- A method that is all there is to a command. -/
def asked (m : Method Text Unit) : Option Reply × Daemon Text :=
  let (result, d) := d.call choices m
  (result.map .result, d)

/-- The statuses a method returns; it returns no error. -/
def statuses : Except ReconcileError (List JailStatus) → List JailStatus
  | .ok statuses => statuses
  | .error _ => []

/-- **The worker.** What a command is replied to, if it is, and the agent
it leaves. -/
def handleCommand (p : Pass) : Command → Option Reply × Daemon Text
  | .apply spec =>
    let (result, d) := d.changed choices p (Reconciler.apply spec)
    match result with
    | some (.ok ()) =>
      (some (.result (.ok ())), if isStatefulAndReplicated spec.spec then
        d.startReplicating pool spec.metadata.name else d)
    | result => (result.map .result, d)
  | .delete name =>
    let (result, d) := d.changed choices p (Reconciler.delete name)
    (result.map .result, d)
  | .get name =>
    let (result, d) := d.call choices (match name with
      | some name => do
        let status ← Reconciler.get name p.now
        return status.toList
      | none => Reconciler.list p.now)
    (result.map fun r => .jails (statuses r), d)
  | .tick =>
    let (result, d) := d.call choices (Reconciler.reconcile p)
    (result.map fun _ => .done, d)
  | .committedResources =>
    let (result, d) := d.call choices (Reconciler.committedResources p.order)
    (result.bind fun r => r.toOption.map fun x => .resources x.1 x.2, d)
  | .addRoute subnet gatewayAddr => d.asked choices (Reconciler.addRoute subnet gatewayAddr)
  | .removeRoute subnet => d.asked choices (Reconciler.removeRoute subnet)
  | .addServiceAlias bridge address => d.asked choices (Reconciler.addAlias bridge address)
  | .removeServiceAlias bridge address => d.asked choices (Reconciler.removeAlias bridge address)
  | .getVolume name => d.asked choices (Reconciler.getVolume name)
  | .deleteVolume name => d.asked choices (Reconciler.deleteVolume name)
  | .setReplicateTo name replicateTo =>
    d.asked choices (Reconciler.setReplicateTo name replicateTo)
  | .resumeReplicationLoops =>
    match d.call choices (Reconciler.list p.now) with
    | (none, d) => (none, d)
    | (some result, d) => (some .done, d.startAll pool (statuses result))
  | .applyIngress spec =>
    let (result, d) := d.changed choices p (Reconciler.applyIngress spec)
    (result.map .result, d)
  | .getIngress name =>
    (d.sys.memory.map fun r => .ingresses (match name with
      | some name => (r.ingressRecords.lookup name).toList
      | none => (r.ingressRecords.iter p.ingressOrder).map Prod.snd), d)
  | .deleteIngress name =>
    let (result, d) := d.changed choices p (Reconciler.deleteIngress name)
    (result.map .result, d)

/-- `main`, up to where it serves. A reconciler that does not come up, a
worker that is gone before it has resumed the loops, and targets that
cannot be read each end it. -/
def start (p : Pass) (loads : Bool) : Daemon Text :=
  let sys := d.sys.step (Host.world pool choices) .start
  match sys.memory with
  | none => { d with sys }
  | some _ =>
    let d : Daemon Text := ⟨sys, true, none, ∅, [], .load d.targets.saved⟩
    match d.handleCommand pool choices p .resumeReplicationLoops with
    | (none, d) => d.down
    | (some _, d) => if loads then d else d.down

/-! ## The loops -/

omit [SerdeYaml Text JailRecord] [SerdeYaml Text IngressRecord] in
/-- Thread `i` wakes and takes its turn, up to the header it sends. -/
def wake (i now : ℕ) (snapshots connects : Bool) (fresh : Stamp) : Daemon Text :=
  match d.threads[i]? with
  | some ⟨loop, .sleeping⟩ =>
    let loop := { loop with tick := loop.tick + 1 }
    match d.call choices (Reconciler.get loop.replicaName now) with
    | (some (.ok (some status)), d) =>
      match status.record.spec.spec.replicateTo with
      | none => d.setThread i ⟨loop, .sleeping⟩
      | some addr =>
        match loop.takeSnapshot snapshots fresh d.zfs with
        | (false, zfs) => (d.setZfs zfs).setThread i ⟨loop, .sleeping⟩
        | (true, zfs) =>
          (d.setZfs zfs).setThread i ⟨loop, if connects then .sending addr none else .sleeping⟩
    | (some _, d) => d.setThread i ⟨loop, .stopping⟩
    -- there is no worker to ask, or none any more
    | (none, d) => d.setThread i ⟨loop, .exited⟩
  | _ => d

/-- Thread `i` reads the answer to its header. -/
def acknowledge (i : ℕ) (ack : Ack) : Daemon Text :=
  match d.threads[i]? with
  | some ⟨loop, .sending addr none⟩ => d.setThread i ⟨loop, .sending addr (some ack)⟩
  | _ => d

/-- Thread `i` comes back from `send_once`. -/
def conclude (i : ℕ) (prunes : Bool) (result : SendOnce) : Daemon Text :=
  match d.threads[i]? with
  | some ⟨loop, .sending _ _⟩ =>
    let (loop, zfs) := loop.conclude prunes result d.zfs
    (d.setZfs zfs).setThread i ⟨loop, .sleeping⟩
  | _ => d

/-- Thread `i` ends. -/
def exit (i : ℕ) : Daemon Text :=
  match d.threads[i]? with
  | some ⟨loop, .stopping⟩ => d.setThread i ⟨loop, .exited⟩
  | _ => d

/-! ## The listener -/

def listener : Listener := ⟨pool, d.zfs, d.targets⟩

/-- What the listener leaves. -/
def setListener (l : Listener) : Daemon Text := { d.setZfs l.zfs with targets := l.targets }

end Daemon

/-! ## What happens -/

/-- One step of one part of an agent, and what the outside makes of it. -/
inductive Act
  | command (p : Pass) (c : Command)
  | start (p : Pass) (loads : Bool)
  | kill
  /-- The command of a jail exits. -/
  | exits (jail : String)
  /-- The agent is told its pod network. -/
  | assign (podCidr : Ipv4Net)
  | wake (i now : ℕ) (snapshots connects : Bool) (fresh : Stamp)
  | acknowledge (i : ℕ) (ack : Ack)
  | conclude (i : ℕ) (prunes : Bool) (result : SendOnce)
  | exit (i : ℕ)
  | answer (saved : Bool) (header : Header) (peerAddr : String)
  | receive (works : Bool) (header : Header) (input : Option SendStream)
  | record (saved : Bool) (header : Header)

namespace Daemon

variable {Text : Type} [Ipnet] [SerdeYaml Text JailRecord] [SerdeYaml Text IngressRecord]
variable (pool : String) (choices : ℕ → Option (Outcome Text)) (d : Daemon Text)

/-- What a process that is there does. -/
def act : Act → Daemon Text
  | .command p c => (d.handleCommand pool choices p c).2
  | .assign podCidr => { d with podCidr := some podCidr }
  | .wake i now snapshots connects fresh => d.wake choices i now snapshots connects fresh
  | .acknowledge i ack => d.acknowledge i ack
  | .conclude i prunes result => d.conclude i prunes result
  | .exit i => d.exit i
  | .answer saved header peerAddr =>
    d.setListener ((d.listener pool).answer saved header peerAddr).2
  | .receive works header input => d.setListener ((d.listener pool).receive works header input).2
  | .record saved header => d.setListener ((d.listener pool).record saved header)
  | _ => d

def step : Act → Daemon Text
  | .start p loads => if d.alive then d else d.start pool choices p loads
  | .kill => d.down
  | .exits jail =>
    { d with sys := d.sys.step (Host.world pool choices) (.outside (.exits jail)) }
  | x => if d.alive then d.act pool choices x else d

def run (acts : List Act) : Daemon Text := acts.foldl (step pool choices) d

end Daemon

end Node

end Keel
