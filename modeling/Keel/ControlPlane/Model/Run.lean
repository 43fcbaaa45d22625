import Keel.ControlPlane.Model.Http
/-!
# Runs of the control plane

Requests served one after another, none overlapping the next. At every
command the outside picks the clock and the iteration order of the hash
maps; at every forward it picks the answer. A run keeps what each request
did: the plans the worker answered, the forwards it sent and the tables
at that moment.
-/

namespace Keel

namespace ControlPlane

/-- What the outside decides at one step of a request. -/
structure Choice where
  now : Instant
  order : IterOrder
  answer : ForwardResult

/-- Something a request did. -/
inductive Event
  /-- The worker answered a plan, the tables being `before`. -/
  | planned (now : Instant) (before : Worker) (actions : List ReplicaAction)
  /-- The worker accepted a service, the tables being `before`. -/
  | applied (before : Worker) (name : String)
  /-- A forward was sent, the tables being `before`. -/
  | sent (before : Worker) (forward : Forward) (answer : ForwardResult)

/-- The worker's tables, and what the request has done so far. -/
structure World where
  worker : Worker
  log : List Event

/-- What a command answered leaves in the log: a plan, a service
accepted, or nothing. -/
def Command.note (now : Instant) (before : Worker) : {ρ : Type} → Command ρ → ρ → List Event
  | _, .reconcileServices, actions => [.planned now before actions]
  | _, .deleteService _, .ok actions => [.planned now before actions]
  | _, .applyService name _ _ _, .ok () => [.applied before name]
  | _, _, _ => []

/-- What a command does to the worker, and to the log. -/
def World.command {ρ : Type} (o : Choice) (c : Command ρ) (w : World) : ρ × World :=
  match Worker.handleCommand o.now o.order c w.worker with
  | (reply, worker) =>
    (reply, ⟨worker, w.log ++ c.note o.now w.worker reply⟩)

/-- A forward leaves the worker alone and is answered by the outside. -/
def World.forward (o : Choice) (f : Forward) (w : World) : ForwardResult × World :=
  (o.answer, ⟨w.worker, w.log ++ [.sent w.worker f o.answer]⟩)

def semantics : Semantics Command Forward ForwardResult Choice World where
  command := World.command
  forward := World.forward

/-- One request served. -/
structure Served where
  request : Request
  before : Worker
  response : Response
  log : List Event
  after : Worker

def serve (request : Request) (o : ℕ → Choice) (w : Worker) : Served :=
  match request.handler.run semantics o 0 ⟨w, []⟩ with
  | (response, world) => ⟨request, w, response, world.log, world.worker⟩

/-- The requests of a run, each with what the outside chooses while it is
served. -/
abbrev Script := List (Request × (ℕ → Choice))

/-- What a script's requests did, in order. -/
def history (w : Worker) : Script → List Served
  | [] => []
  | (request, o) :: rest => serve request o w :: history (serve request o w).after rest

/-- The tables a script leaves. -/
def final (w : Worker) : Script → Worker
  | [] => w
  | (request, o) :: rest => final (serve request o w).after rest

/-! ## A small cluster -/

namespace Sample

def clusterCidr : Ipv4Net := ⟨Ipv4Addr.ofOctets 10 0 0 0, 16, by decide⟩

def serviceCidr : Ipv4Net := ⟨Ipv4Addr.ofOctets 10 1 0 0, 24, by decide⟩

/-- A control plane over `10.0.0.0/16` with virtual addresses in
`10.1.0.0/24`. -/
def spawn : Worker := Worker.spawn clusterCidr serviceCidr

/-- At `secs`, every node answering `status`. -/
def clock (secs : ℕ) (status : ℕ) : ℕ → Choice := fun _ =>
  ⟨secs * second, .listed, .ok (status, "")⟩

def register (id : String) : Request :=
  .register (.ok ⟨id, id ++ ":7621", some (id ++ ":7622"), 4, 1024⟩)

def heartbeat (id : String) : Request := .heartbeat id (.ok ⟨0, 0, []⟩)

def template (volumes : List VolumeMount) : JailTemplate :=
  ⟨"base", ["app"], ⟨true, "keel0"⟩, ⟨"1", "256M"⟩, .always, volumes⟩

/-- One volume, so that replicas are replicated. -/
def data : List VolumeMount := [⟨"data", "/data", "1G"⟩]

def service (name : String) (replicas : ℕ) (volumes : List VolumeMount) : Request :=
  .putService name (.ok ⟨"keel/v1", "Service", ⟨name⟩, ⟨replicas, 80, template volumes⟩⟩)

def jail (name : String) : JailSpec := (template []).toJailSpec name "10.0.9.9/24"

end Sample

end ControlPlane

end Keel
