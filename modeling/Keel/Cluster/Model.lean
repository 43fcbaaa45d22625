import Mathlib.Logic.Function.Basic
import Keel.ControlPlane.Model.Run
import Keel.Agent.Model.Http
import Keel.Agent.Model.Pair
/-!
# The cluster

The control plane and its agents, step by step. The control plane serves
any number of requests at once: each is a handler part of the way through
its program, and a step takes one of them one command or one forward
further. A forward goes to the agent at its address, which answers it. An
agent also answers operators, wakes its replication loops, and may
restart. A loop and the listener it is connected to go on each by itself:
the header is answered, the stream sent, received and recorded in steps
of their own, and a listener may receive a stream long after its sender
has gone on. Steps of all of these interleave in any order. What the
network and the machines make of a step is in its label.

Three things are written down that the program does not have: the headers
whose sender is gone, which a listener may still answer; the streams the
agents have received; and when each replica was last placed anew.
-/

namespace Keel

open Agent

/-- Which agent is which node, and which listens where. -/
structure Net (N : Type) where
  nodeId : N → String
  http : String → Option N
  replication : String → Option N

/-- A header sent by a loop that waits for no answer any more. -/
structure Orphan (N : Type) where
  src : N
  dst : N
  header : Header

/-- What a listener that said yes has of the stream. -/
inductive Arrival
  /-- Nothing yet: thread `i` of the sender has not sent it. -/
  | awaited (i : ℕ)
  /-- Not the whole of it, and nothing more is to come. -/
  | cut
  | arrived (stream : SendStream)
  /-- It is received, and is yet to be recorded. -/
  | stored
deriving DecidableEq

/-- A connection `dst` has said yes on and is not done with. -/
structure Receive (N : Type) where
  src : N
  dst : N
  header : Header
  arrival : Arrival

/-- `agent` has received a stream of `replica` from `source`. -/
structure Receipt (N : Type) where
  agent : N
  replica : String
  source : N
  /-- The snapshot's. -/
  stamp : Stamp
  full : Bool
deriving DecidableEq

structure Cluster (N : Type) : Type 1 where
  worker : ControlPlane.Worker
  handlers : List (ControlPlane.Handler ControlPlane.Response)
  agents : N → Agentd
  orphans : List (Orphan N)
  receives : List (Receive N)
  /-- The last one first. -/
  received : List (Receipt N)
  /-- Snapshots taken since a replica was last placed anew have stamps from
  here on. -/
  born : String → Stamp
  /-- Stamps from here on are unused. -/
  fresh : Stamp

/-- What becomes of a forward. -/
inductive Delivery
  | delivered
  /-- It does not get to the agent. -/
  | lost (message : String)
  /-- It does, and the answer does not get back. -/
  | unanswered (message : String)

/-- One step of one part of the cluster. -/
inductive Label (N : Type)
  | serve (request : ControlPlane.Request)
  /-- A handler of the control plane goes on. -/
  | advance (i : ℕ) (o : ControlPlane.Choice) (m : Machine) (delivery : Delivery)
  /-- An operator asks an agent. -/
  | ask (n : N) (m : Machine) (request : Agent.Request)
  /-- The timer of an agent's worker. -/
  | timer (n : N) (m : Machine)
  /-- An agent is told its pod network. -/
  | assign (n : N) (podCidr : Option Ipv4Net)
  | wake (n : N) (i : ℕ) (snapshots connects : Bool)
  | exit (n : N) (i : ℕ)
  /-- The header of a loop is answered. -/
  | answer (n : N) (i : ℕ) (saves : Bool) (peerAddr : String)
  /-- A loop's connection breaks before it has read its answer. -/
  | abandon (n : N) (i : ℕ)
  /-- A loop reads its answer, and runs `zfs send`: `sends` is what it
  sees, `arrives` what the listener gets. -/
  | send (n : N) (i : ℕ) (sends arrives prunes : Bool)
  /-- The header of an orphan is answered. -/
  | answerOrphan (k : ℕ) (saves : Bool) (peerAddr : String)
  /-- A listener runs `zfs receive` on what came. -/
  | receive (k : ℕ) (works : Bool)
  /-- And records what it received. -/
  | record (k : ℕ) (saves : Bool)
  | restart (n : N)

/-- The request a forward is to the agent it gets to. -/
def ControlPlane.Forward.request (f : ControlPlane.Forward) : Agent.Request :=
  match f.method, f.path, f.body with
  | .get, .jails, _ => .getJails
  | .get, .jail name, _ => .getJail name
  | .put, .jail name, .yaml read => .putJail name read
  | .put, .jail name, .empty => .putJail name (.error "EOF while parsing a value")
  | .delete, .jail name, _ => .deleteJail name
  | .get, .volume name, _ => .getVolume name
  | .delete, .volume name, _ => .deleteVolume name
  | .get, .replicaTarget name, _ => .getReplicaTarget name
  | .put, path, _ => .noRoute "PUT" path.display
  | .delete, path, _ => .noRoute "DELETE" path.display

namespace Cluster

variable {N : Type} [DecidableEq N] (net : Net N) (c : Cluster N)

def setAgent (n : N) (a : Agentd) : Cluster N := { c with agents := Function.update c.agents n a }

/-! ## The control plane's steps -/

/-- A replica that was not placed and is now is born now. -/
def bornAfter (worker : ControlPlane.Worker) (r : String) : Stamp :=
  if (c.worker.placements.lookup r).isNone && (worker.placements.lookup r).isSome then c.fresh
  else c.born r

/-- An agent answers a request. -/
def ask [Ipnet] (n : N) (m : Machine) (request : Agent.Request) : Cluster N :=
  c.setAgent n ((c.agents n).handle m request).2

def forward [Ipnet] (m : Machine) (delivery : Delivery) (f : ControlPlane.Forward) :
    ControlPlane.ForwardResult × Cluster N :=
  match net.http f.addr, delivery with
  | some n, .delivered =>
    let response := ((c.agents n).handle m f.request).1
    (.ok (response.status, response.error.getD ""), c.ask n m f.request)
  | some n, .unanswered message => (.error message, c.ask n m f.request)
  | some _, .lost message => (.error message, c)
  | none, _ => (.error "connection refused", c)

def advance [Ipnet] (i : ℕ) (o : ControlPlane.Choice) (m : Machine) (delivery : Delivery) :
    Cluster N :=
  match c.handlers[i]? with
  | none => c
  | some (.ret _) => { c with handlers := c.handlers.eraseIdx i }
  | some (.command command k) =>
    let (reply, worker) := ControlPlane.Worker.handleCommand o.now o.order command c.worker
    { c with
      worker
      handlers := c.handlers.set i (k reply)
      born := c.bornAfter worker }
  | some (.forward f k) =>
    let (answer, c') := c.forward net m delivery f
    { c' with handlers := c.handlers.set i (k answer) }

/-! ## The loops' steps -/

/-- The answer to a header at an agent, and what it leaves: after a yes
its listener has a stream to receive. -/
def listen (o : Orphan N) (arrival : Arrival) (saves : Bool) (peerAddr : String) :
    Option Ack × Cluster N :=
  let (ack, l) := (c.agents o.dst).listener.answer saves o.header peerAddr
  let c := c.setAgent o.dst ((c.agents o.dst).setListener l)
  (ack,
    match ack with
    | some .proceed => { c with receives := c.receives ++ [⟨o.src, o.dst, o.header, arrival⟩] }
    | _ => c)

def conclude (n : N) (i : ℕ) (prunes : Bool) (result : SendOnce) : Cluster N :=
  c.setAgent n ((c.agents n).conclude i prunes result)

/-- Thread `i` of an agent has sent what it sends. -/
def settle (n : N) (i : ℕ) (arrival : Arrival) : Cluster N :=
  { c with
    receives := c.receives.map fun x =>
      if x.src = n ∧ x.arrival = .awaited i then { x with arrival } else x }

/-- The agent a loop waits for an answer from, and the header it sent. -/
def waiting (n : N) (t : Thread) : Option (Orphan N) :=
  match t.phase with
  | .sending addr none => (net.replication addr).map fun dst => ⟨n, dst, t.loop.header⟩
  | _ => none

def answer (n : N) (i : ℕ) (saves : Bool) (peerAddr : String) : Cluster N :=
  match (c.agents n).threads[i]? with
  | some ⟨loop, .sending addr none⟩ =>
    match net.replication addr with
    | some d =>
      match c.listen ⟨n, d, loop.header⟩ (.awaited i) saves peerAddr with
      | (none, c) => c.conclude n i false .io
      | (some ack, c) =>
        c.setAgent n ((c.agents n).setThread i ⟨loop, .sending addr (some ack)⟩)
    | none => c
  | _ => c

def abandon (n : N) (i : ℕ) : Cluster N :=
  match (c.agents n).threads[i]? with
  | some ⟨loop, .sending addr ack⟩ =>
    { c.settle n i .cut with
      orphans := c.orphans ++ (waiting net n ⟨loop, .sending addr ack⟩).toList }.conclude n i
        false .io
  | _ => c

def send (n : N) (i : ℕ) (sends arrives prunes : Bool) : Cluster N :=
  match (c.agents n).threads[i]? with
  | some ⟨_, .sending _ (some .needFull)⟩ => c.conclude n i prunes .needFull
  | some ⟨loop, .sending _ (some .proceed)⟩ =>
    match loop.stream (c.agents n).zfs with
    | none => (c.settle n i .cut).conclude n i prunes .io
    | some stream =>
      (c.settle n i (if arrives then .arrived stream else .cut)).conclude n i prunes
        (if sends then .ok else .io)
  | _ => c

/-- The sender is gone, so what a yes is followed by is nothing. -/
def answerOrphan (k : ℕ) (saves : Bool) (peerAddr : String) : Cluster N :=
  match c.orphans[k]? with
  | some o => { (c.listen o .cut saves peerAddr).2 with orphans := c.orphans.eraseIdx k }
  | none => c

/-! ## The listeners' steps -/

/-- Connection `k` is at its end. -/
def close (k : ℕ) : Cluster N := { c with receives := c.receives.eraseIdx k }

def receive (k : ℕ) (works : Bool) : Cluster N :=
  match c.receives[k]? with
  | some ⟨src, dst, header, .arrived stream⟩ =>
    match (c.agents dst).listener.receive works header (some stream) with
    | (true, l) =>
      { c.setAgent dst ((c.agents dst).setListener l) with
        receives := c.receives.set k ⟨src, dst, header, .stored⟩
        received :=
          ⟨dst, header.replicaName, src, stream.stamp, stream.base.isNone⟩ :: c.received }
    | (false, l) => (c.setAgent dst ((c.agents dst).setListener l)).close k
  | some ⟨_, dst, header, .cut⟩ =>
    let (_, l) := (c.agents dst).listener.receive works header none
    (c.setAgent dst ((c.agents dst).setListener l)).close k
  | _ => c

def record (k : ℕ) (saves : Bool) : Cluster N :=
  match c.receives[k]? with
  | some ⟨_, dst, header, .stored⟩ =>
    (c.setAgent dst ((c.agents dst).setListener
      ((c.agents dst).listener.record saves header))).close k
  | _ => c

/-- What a restart of an agent leaves of a connection: its own listener is
gone, and its loops send nothing more. -/
def Receive.afterRestart (n : N) (x : Receive N) : Option (Receive N) :=
  if x.dst = n then none
  else
    match x.arrival with
    | .awaited _ => some (if x.src = n then { x with arrival := .cut } else x)
    | _ => some x

def restart (n : N) : Cluster N :=
  { c with
    orphans := c.orphans ++ (c.agents n).threads.filterMap (waiting net n)
    receives := c.receives.filterMap (Receive.afterRestart n) }.setAgent n (c.agents n).restart

/-! ## Steps and runs -/

def step [Ipnet] : Label N → Cluster N
  | .serve request => { c with handlers := c.handlers ++ [request.handler] }
  | .advance i o m delivery => c.advance net i o m delivery
  | .ask n m request => c.ask n m request
  | .timer n m => c.setAgent n (Agentd.handleCommand m .tick (c.agents n)).2
  | .assign n podCidr => c.setAgent n { c.agents n with podCidr }
  | .wake n i snapshots connects =>
    { c.setAgent n ((c.agents n).wake i snapshots connects c.fresh) with fresh := c.fresh + 1 }
  | .exit n i => c.setAgent n ((c.agents n).exit i)
  | .answer n i saves peerAddr => c.answer net n i saves peerAddr
  | .abandon n i => c.abandon net n i
  | .send n i sends arrives prunes => c.send n i sends arrives prunes
  | .answerOrphan k saves peerAddr => c.answerOrphan k saves peerAddr
  | .receive k works => c.receive k works
  | .record k saves => c.record k saves
  | .restart n => c.restart net n

def run [Ipnet] (labels : List (Label N)) : Cluster N :=
  labels.foldl (fun c label => c.step net label) c

/-- A new control plane, and agents that were told nothing yet. -/
def start (clusterCidr serviceCidr : Ipv4Net) (pools : N → String) (zfs : N → FakeZfsManager) :
    Cluster N where
  worker := .spawn clusterCidr serviceCidr
  handlers := []
  agents n := (Agentd.start (pools n) (zfs n) ∅ ∅).resumeReplicationLoops
  orphans := []
  receives := []
  received := []
  born _ := 0
  fresh := 0

/-- The header a step answers, if it answers one: who sent it, who
answers, and what. -/
def acknowledged : Label N → Option (Orphan N × Ack)
  | .answer n i saves peerAddr =>
    (((c.agents n).threads[i]?).bind (waiting net n)).bind fun o =>
      ((c.listen o (.awaited i) saves peerAddr).1).map fun ack => (o, ack)
  | .answerOrphan k saves peerAddr =>
    (c.orphans[k]?).bind fun o =>
      ((c.listen o .cut saves peerAddr).1).map fun ack => (o, ack)
  | _ => none

/-- The connection a step receives a stream on, if it receives one. -/
def stores : Label N → Option (Receive N)
  | .receive k works => (c.receives[k]?).filter fun x =>
    match x.arrival with
    | .arrived stream => ((c.agents x.dst).listener.receive works x.header (some stream)).1
    | _ => false
  | _ => none

end Cluster

/-! ## A cluster of four -/

namespace Cluster.Sample

open ControlPlane.Sample (register heartbeat service data)

def net : Net (Fin 4) where
  nodeId n := ["a", "b", "c", "d"].get n
  http addr := (List.finRange 4).find? fun n => ["a", "b", "c", "d"].get n ++ ":7621" = addr
  replication addr := (List.finRange 4).find? fun n => ["a", "b", "c", "d"].get n ++ ":7622" = addr

def start : Cluster (Fin 4) :=
  .start ControlPlane.Sample.clusterCidr ControlPlane.Sample.serviceCidr (fun _ => "zroot")
    fun _ => .new

/-- A request served at `secs`, from its first step to its last, with
nothing going wrong. -/
def serve (secs : ℕ) (request : ControlPlane.Request) : List (Label (Fin 4)) :=
  .serve request :: List.replicate 12
    (.advance 0 (ControlPlane.Sample.clock secs 200 0) Agent.Sample.machine .delivered)

/-- A loop's turn, from its first step to its last, with nothing going
wrong. -/
def tick (n : Fin 4) (i : ℕ) : List (Label (Fin 4)) :=
  [.wake n i true true, .answer n i true "", .send n i true true true, .receive 0 true,
    .record 0 true]

/-- The nodes register, and `db-0` is created on `a`, to be replicated to
`b`. -/
def created : List (Label (Fin 4)) :=
  serve 0 (register "a") ++ serve 0 (register "b") ++ serve 0 (register "c") ++
    serve 0 (register "d") ++ serve 1 (service "db" 1 data)

/-- `a` is taken for dead, and `db-0` is promoted to `b`. -/
def promoted : List (Label (Fin 4)) :=
  serve 20 (heartbeat "b") ++ serve 20 (heartbeat "c") ++ serve 20 (heartbeat "d") ++
    serve 21 (.forceRepin "db-0")

end Cluster.Sample

end Keel
