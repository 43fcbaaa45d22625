import Keel.Cluster.Model
/-!
# Requests one at a time

The cluster as it runs when the requests to the control plane do not
overlap: each is served from its first command to its answer before the
next begins. A forward is carried out by the agent it gets to and
answered, or is lost, or is carried out and its answer lost. Meanwhile
agents tick, replicate and restart. The clock only goes forward.

Two things are written down that the program does not have: the time, and
where the `PUT` was sent from that created each record of each agent. A
request's log keeps, for each forward, the agents it was sent to the
cluster with, and which of them carried it out.
-/

namespace Keel

open Agent

/-- A step an agent takes by itself. -/
def Label.own {N : Type} : Label N → Bool
  | .serve _ => false
  | .advance .. => false
  | .ask .. => false
  | _ => true

namespace Serial

/-- What the outside decides at one step of a request. -/
structure Circumstance (N : Type) where
  /-- The time since the last step. -/
  elapsed : ℕ
  order : IterOrder
  /-- What the agents do meanwhile. -/
  own : List {label : Label N // label.own = true}
  machine : Machine
  delivery : Delivery
  /-- What is not there to be torn down counts as torn down: `delete`
  passes over every `NotFound`. -/
  tearsDown : ∀ e, machine.tearDown = .error e → statusForError e ≠ 404

/-- The agents, and where each of their records was created from. -/
structure Scene (N : Type) where
  agents : N → Agentd
  creators : N → String → Option ControlPlane.Site

/-- Something a request did. -/
structure Entry (N : Type) where
  now : ControlPlane.Instant
  /-- The agents before. -/
  scene : Scene N
  /-- The agent that carried it out. -/
  carriedBy : Option N
  event : ControlPlane.Event

structure State (N : Type) : Type 1 where
  cluster : Cluster N
  creators : N → String → Option ControlPlane.Site
  clock : ControlPlane.Instant

structure World (N : Type) : Type 1 where
  state : State N
  log : List (Entry N)

namespace State

variable {N : Type} [DecidableEq N] [Ipnet] (net : Net N) (s : State N)

def worker : ControlPlane.Worker := s.cluster.worker

def scene : Scene N := ⟨s.cluster.agents, s.creators⟩

/-- Time passes, and the agents take steps of their own. -/
def meanwhile (o : Circumstance N) : State N :=
  { s with
    cluster := s.cluster.run net (o.own.map Subtype.val)
    clock := s.clock + o.elapsed }

/-- The agent that carries a forward out: it gets there, and is answered
with a success. -/
def carriedBy (m : Machine) (delivery : Delivery) (f : ControlPlane.Forward) : Option N :=
  match net.http f.addr, delivery with
  | _, .lost _ => none
  | none, _ => none
  | some n, _ =>
    if ControlPlane.isSuccess ((s.cluster.agents n).handle m f.request).1.status then some n
    else none

/-- A record that was not there was created by the forward. -/
def created (agent : Option N) (f : ControlPlane.Forward) (n : N) (r : String) :
    Option ControlPlane.Site :=
  if agent = some n ∧ (f.request.writes?.any fun x => x.1 == r && x.2.isSome) ∧
      (s.cluster.agents n).specOf r = none then
    some f.site
  else s.creators n r

end State

namespace World

variable {N : Type} [DecidableEq N] [Ipnet] (net : Net N)

def command {ρ : Type} (o : Circumstance N) (c : ControlPlane.Command ρ) (w : World N) :
    ρ × World N :=
  let s := w.state.meanwhile net o
  match ControlPlane.Worker.handleCommand s.clock o.order c s.worker with
  | (reply, worker) =>
    (reply,
      ⟨{ s with
          cluster := { s.cluster with worker, born := s.cluster.bornAfter worker } },
        w.log ++ (c.note s.clock s.worker reply).map fun e => ⟨s.clock, s.scene, none, e⟩⟩)

def forward (o : Circumstance N) (f : ControlPlane.Forward) (w : World N) :
    ControlPlane.ForwardResult × World N :=
  let s := w.state.meanwhile net o
  let agent := s.carriedBy net o.machine o.delivery f
  match s.cluster.forward net o.machine o.delivery f with
  | (answer, cluster) =>
    (answer,
      ⟨⟨cluster, s.created agent f, s.clock⟩,
        w.log ++ [⟨s.clock, s.scene, agent, .sent s.worker f answer⟩]⟩)

end World

section Runs

variable {N : Type} [DecidableEq N] [Ipnet] (net : Net N)

def semantics :
    Semantics ControlPlane.Command ControlPlane.Forward ControlPlane.ForwardResult (Circumstance N)
      (World N) where
  command := World.command net
  forward := World.forward net

/-- One request served. -/
structure Served (N : Type) : Type 1 where
  request : ControlPlane.Request
  before : State N
  /-- The time of its first command. -/
  now : ControlPlane.Instant
  response : ControlPlane.Response
  log : List (Entry N)
  after : State N

def serve (request : ControlPlane.Request) (o : ℕ → Circumstance N) (s : State N) : Served N :=
  match request.handler.run (semantics net) o 0 ⟨s, []⟩ with
  | (response, w) => ⟨request, s, s.clock + (o 0).elapsed, response, w.log, w.state⟩

/-- The requests of a run, each with what the outside decides while it is
served. -/
abbrev Script (N : Type) := List (ControlPlane.Request × (ℕ → Circumstance N))

/-- What a script's requests did, in order. -/
def history (s : State N) : Script N → List (Served N)
  | [] => []
  | (request, o) :: rest => serve net request o s :: history (serve net request o s).after rest

/-- The state a script leaves. -/
def final (s : State N) : Script N → State N
  | [] => s
  | (request, o) :: rest => final (serve net request o s).after rest

end Runs

/-- A new control plane, and agents that were told nothing yet. -/
def start {N : Type} (clusterCidr serviceCidr : Ipv4Net) (pools : N → String)
    (zfs : N → FakeZfsManager) : State N :=
  ⟨.start clusterCidr serviceCidr pools zfs, fun _ _ => none, 0⟩

/-! ## A cluster of four -/

namespace Sample

/-- `secs` after what came before, with nothing going wrong. -/
def after (secs : ℕ) : ℕ → Circumstance (Fin 4) := fun i =>
  ⟨if i = 0 then secs * ControlPlane.second else 0, .listed, [], Agent.Sample.machine, .delivered,
    nofun⟩

/-- As `after`, but for the answer to step `i`, which gets lost. -/
def afterUnanswered (secs i : ℕ) : ℕ → Circumstance (Fin 4) := fun j =>
  ⟨if j = 0 then secs * ControlPlane.second else 0, .listed, [], Agent.Sample.machine,
    if j = i then .unanswered "timed out" else .delivered, nofun⟩

/-- As `after`, but for the first loop of `n`, which has its turn before. -/
def afterTick (secs : ℕ) (n : Fin 4) : ℕ → Circumstance (Fin 4) := fun i =>
  { after secs i with
    own := if i = 0 then
      [⟨.wake n 0 true true, rfl⟩, ⟨.answer n 0 true "", rfl⟩, ⟨.send n 0 true true true, rfl⟩,
        ⟨.receive 0 true, rfl⟩, ⟨.record 0 true, rfl⟩]
      else [] }

def spawn : State (Fin 4) :=
  start ControlPlane.Sample.clusterCidr ControlPlane.Sample.serviceCidr (fun _ => "zroot")
    fun _ => .new

end Sample

end Serial

end Keel
