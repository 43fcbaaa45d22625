import Mathlib.Logic.Function.Basic
import Keel.Agent.Model.Enrolment
/-!
# Registration loops and their control plane

The registration loops of any number of nodes against one control plane,
step by step. A loop's request is a handler the control plane takes one
command further at a time; in between come steps of the other loops and
commands of the handlers of other requests. A request may be given up at
any moment, and the control plane may come to it all the same. The control
plane may be restarted, and forgets everything; a node may be rebooted.

Only the loops register nodes.
-/

namespace Keel

open ControlPlane
open Agent (Errand Call Circumstance RegistrationLoop registerOnce heartbeatOnce)

structure Fleet (N A : Type) : Type 1 where
  worker : Worker
  loops : N → RegistrationLoop A
  /-- The nodes whose registrations were given up and may yet be served. -/
  strays : List N

namespace Fleet

inductive Label (N : Type) : Type 1
  /-- A loop starts a turn. -/
  | begin (n : N) (report : Option Heartbeat)
  /-- The control plane goes on with a loop's request. -/
  | serve (n : N) (o : Choice)
  /-- A loop comes back from its request, which was answered or not. -/
  | hear (n : N) (gets : Bool) (x : Circumstance)
  /-- A registration that was given up is served. -/
  | stray (k : ℕ) (o : Choice)
  /-- A command of the handler of another request. -/
  | command (o : Choice) {ρ : Type} (c : Command ρ)
  /-- The control plane is restarted. -/
  | restart
  | reboot (n : N)
  /-- A node's agent is started again. -/
  | respawn (n : N)

variable {N A : Type} [DecidableEq N] [Ipnet] (parse : String → Option A)
  (nodes : N → NodeRegistration) (f : Fleet N A)

def setLoop (n : N) (l : RegistrationLoop A) : Fleet N A :=
  { f with loops := Function.update f.loops n l }

omit [Ipnet] in
/-- The control plane takes a request one command or forward further. -/
def serve (n : N) (o : Choice) : Fleet N A :=
  match (f.loops n).call with
  | some ⟨errand, some (.command c k)⟩ =>
    let (reply, worker) := Worker.handleCommand o.now o.order c f.worker
    { f with worker }.setLoop n { f.loops n with call := some ⟨errand, some (k reply)⟩ }
  | some ⟨errand, some (.forward _ k)⟩ =>
    f.setLoop n { f.loops n with call := some ⟨errand, some (k o.answer)⟩ }
  | _ => f

/-- The registration a loop that gives up leaves behind, if the control
plane has not come to it. -/
def left (n : N) : List N :=
  match (f.loops n).call with
  | some ⟨.register, some (.command _ _)⟩ => [n]
  | _ => []

/-- A loop hears an answer that is there, or gives up. -/
def hear (n : N) (gets : Bool) (x : Circumstance) : Fleet N A :=
  match (f.loops n).call with
  | some ⟨errand, handler⟩ =>
    match gets, handler with
    | true, some (.ret response) =>
      f.setLoop n ((f.loops n).conclude parse (nodes n) x errand (some response))
    | true, _ => f
    | false, _ =>
      { f with strays := f.strays ++ f.left n }.setLoop n
        ((f.loops n).conclude parse (nodes n) x errand none)
  | none => f

omit [Ipnet] in
/-- A node's registration, as the worker gets it. -/
def register (me : NodeRegistration) : Command (Except PodCidrCollision Ipv4Net) :=
  .register me.id me.addr me.replicateAddr me.capacityCpu me.capacityMemory

omit [Ipnet] [DecidableEq N] in
def stray (k : ℕ) (o : Choice) : Fleet N A :=
  match f.strays[k]? with
  | some n =>
    { f with
      worker := (Worker.handleCommand o.now o.order (register (nodes n)) f.worker).2
      strays := f.strays.eraseIdx k }
  | none => f

/-- Only a loop registers a node. -/
def isRegister : {ρ : Type} → Command ρ → Bool
  | _, .register .. => true
  | _, _ => false

/-- A step that is not there to be taken changes nothing. -/
def step : Label N → Fleet N A
  | .begin n report =>
    match (f.loops n).call with
    | none => f.setLoop n ((f.loops n).begin (nodes n) report)
    | some _ => f
  | .serve n o => f.serve n o
  | .hear n gets x => f.hear parse nodes n gets x
  | .stray k o => f.stray nodes k o
  | .command o c =>
    if isRegister c then f
    else { f with worker := (Worker.handleCommand o.now o.order c f.worker).2 }
  | .restart =>
    { worker := .spawn f.worker.registry.clusterCidr f.worker.services.serviceCidr
      loops := fun n =>
        { f.loops n with call := (f.loops n).call.map fun call => { call with handler := none } }
      strays := [] }
  | .reboot n => { f with strays := f.strays ++ f.left n }.setLoop n .start
  | .respawn n => { f with strays := f.strays ++ f.left n }.setLoop n (f.loops n).respawn

def run (labels : List (Label N)) : Fleet N A := labels.foldl (step parse nodes) f

omit [Ipnet] [DecidableEq N] in
/-- A control plane and nodes just started. -/
def start (clusterCidr serviceCidr : Ipv4Net) : Fleet N A :=
  ⟨.spawn clusterCidr serviceCidr, fun _ => .start, []⟩

end Fleet

end Keel
