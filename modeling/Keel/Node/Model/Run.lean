import Keel.Node.Model.Reconciler
/-!
# An agent's life

The agent's process on its machine: up, with a reconciler in memory, or
down. What happens to it is a sequence of events: a method of the
reconciler runs to its end, the process is started, it is killed, or
something happens on the machine by itself (`H`). A method that panics,
or that the machine goes down under, takes the process with it; what is
on the machine stays.

The worker's commands are methods one after the other
(`Command.operations`): every command that changes the desired state is
followed by a pass.
-/

namespace Keel

namespace Node

open Agent (JailRecord)

/-- A method of the reconciler, and its arguments. -/
inductive Operation
  | apply (spec : JailSpec)
  | delete (name : String)
  | setReplicateTo (name : String) (replicateTo : Option String)
  | applyIngress (spec : IngressSpec)
  | deleteIngress (name : String)
  | ensureIngressJail
  | reconcile (p : Pass)
  | get (name : String) (now : ℕ)
  | list (now : ℕ)
  | committedResources (order : IterOrder)
  | getVolume (name : String)
  | deleteVolume (name : String)
  | addRoute (subnet gatewayAddr : String)
  | removeRoute (subnet : String)
  | addAlias (bridge address : String)
  | removeAlias (bridge address : String)

/-- The worker's commands. -/
inductive Command
  | apply (spec : JailSpec)
  | get (name : Option String)
  | delete (name : String)
  | tick
  | committedResources
  | addRoute (subnet gatewayAddr : String)
  | removeRoute (subnet : String)
  | addServiceAlias (bridge address : String)
  | removeServiceAlias (bridge address : String)
  | getVolume (name : String)
  | deleteVolume (name : String)
  | setReplicateTo (name : String) (replicateTo : Option String)
  | resumeReplicationLoops
  | applyIngress (spec : IngressSpec)
  | getIngress (name : Option String)
  | deleteIngress (name : String)

/-- What the worker does for a command. -/
def Command.operations (p : Pass) : Command → List Operation
  | .apply spec => [.apply spec, .reconcile p]
  | .get (some name) => [.get name p.now]
  | .get none => [.list p.now]
  | .delete name => [.delete name, .reconcile p]
  | .tick => [.reconcile p]
  | .committedResources => [.committedResources p.order]
  | .addRoute subnet gatewayAddr => [.addRoute subnet gatewayAddr]
  | .removeRoute subnet => [.removeRoute subnet]
  | .addServiceAlias bridge address => [.addAlias bridge address]
  | .removeServiceAlias bridge address => [.removeAlias bridge address]
  | .getVolume name => [.getVolume name]
  | .deleteVolume name => [.deleteVolume name]
  | .setReplicateTo name replicateTo => [.setReplicateTo name replicateTo]
  | .resumeReplicationLoops => [.list p.now]
  | .applyIngress spec => [.applyIngress spec, .reconcile p]
  | .getIngress _ => []
  | .deleteIngress name => [.deleteIngress name, .reconcile p]

/-- What happens to an agent; `H` is what happens by itself. -/
inductive Event (H : Type)
  | operation (op : Operation)
  | start
  | kill
  | outside (x : H)

/-- A command reaches the worker, or something else happens. -/
inductive Happening (H : Type)
  | command (p : Pass) (c : Command)
  | start
  | kill
  | outside (x : H)

def Happening.events {H : Type} : Happening H → List (Event H)
  | .command p c => (c.operations p).map .operation
  | .start => [.start]
  | .kill => [.kill]
  | .outside x => [.outside x]

/-- An agent on a machine `W`. -/
structure System (Text W : Type) where
  /-- The reconciler, while the process is up. -/
  memory : Option Reconciler
  trace : Trace (Op Text) W

/-- What an agent's life depends on: its pool, the machine it calls on
and how each call is answered, and what happens by itself. -/
structure World (Text O W H : Type) where
  pool : String
  out : Outside (Op Text) O Reconciler W
  choices : ℕ → Option O
  happens : H → W → W

namespace System

variable {Text W : Type}

/-- The process after a run of a method. -/
def ended {α : Type} : Ended Reconciler ReconcileError α × Trace (Op Text) W → System Text W
  | (.returned _ r, t) => ⟨some r, t⟩
  | (.stopped _, t) => ⟨none, t⟩

/-- A start that fails leaves no process. -/
def started : Ended Reconciler ReconcileError Unit × Trace (Op Text) W → System Text W
  | (.returned (.ok ()) r, t) => ⟨some r, t⟩
  | (.returned (.error _) _, t) => ⟨none, t⟩
  | (.stopped _, t) => ⟨none, t⟩

/-- What holds of the end of a method holds of the agent it leaves. -/
theorem of_ended {I : System Text W → Prop} {α : Type}
    {Q : Except ReconcileError α → Reconciler → Trace (Op Text) W → Prop}
    {X : Stop → Trace (Op Text) W → Prop}
    {e : Ended Reconciler ReconcileError α × Trace (Op Text) W} (he : Ended.Meets Q X e)
    (hQ : ∀ result r t, Q result r t → I ⟨some r, t⟩) (hX : ∀ x t, X x t → I ⟨none, t⟩) :
    I (ended e) := by
  obtain ⟨ending, t⟩ := e
  cases ending with
  | returned result r => exact hQ result r t he
  | stopped x => exact hX x t he

/-- And of a start. -/
theorem of_started {I : System Text W → Prop}
    {Q : Except ReconcileError Unit → Reconciler → Trace (Op Text) W → Prop}
    {X : Stop → Trace (Op Text) W → Prop}
    {e : Ended Reconciler ReconcileError Unit × Trace (Op Text) W} (he : Ended.Meets Q X e)
    (hok : ∀ r t, Q (.ok ()) r t → I ⟨some r, t⟩)
    (herr : ∀ error r t, Q (.error error) r t → I ⟨none, t⟩) (hX : ∀ x t, X x t → I ⟨none, t⟩) :
    I (started e) := by
  obtain ⟨ending, t⟩ := e
  cases ending with
  | returned result r =>
    cases result with
    | ok u => exact hok r t he
    | error error => exact herr error r t he
  | stopped x => exact hX x t he

end System

variable {Text : Type} [Ipnet] [SerdeYaml Text JailRecord] [SerdeYaml Text IngressRecord]

def Operation.method : Operation → Method Text Unit
  | .apply spec => Reconciler.apply spec
  | .delete name => Reconciler.delete name
  | .setReplicateTo name replicateTo => Reconciler.setReplicateTo name replicateTo
  | .applyIngress spec => Reconciler.applyIngress spec
  | .deleteIngress name => Reconciler.deleteIngress name
  | .ensureIngressJail => Reconciler.ensureIngressJail
  | .reconcile p => do let _ ← Reconciler.reconcile p
  | .get name now => do let _ ← Reconciler.get name now
  | .list now => do let _ ← Reconciler.list now
  | .committedResources order => do let _ ← Reconciler.committedResources order
  | .getVolume name => Reconciler.getVolume name
  | .deleteVolume name => Reconciler.deleteVolume name
  | .addRoute subnet gatewayAddr => Reconciler.addRoute subnet gatewayAddr
  | .removeRoute subnet => Reconciler.removeRoute subnet
  | .addAlias bridge address => Reconciler.addAlias bridge address
  | .removeAlias bridge address => Reconciler.removeAlias bridge address

namespace System

variable {O W H : Type} (world : World Text O W H)

def step (sys : System Text W) : Event H → System Text W
  | .operation op =>
    match sys.memory with
    | none => sys
    | some r => ended (op.method.run world.out world.choices r sys.trace)
  | .start =>
    match sys.memory with
    | some _ => sys
    | none => started ((Reconciler.new world.pool).run world.out world.choices
        (Reconciler.blank world.pool) sys.trace)
  | .kill => { sys with memory := none }
  | .outside x => { sys with trace := { sys.trace with world := world.happens x sys.trace.world } }

/-- An agent after a sequence of events. -/
def after (sys : System Text W) (events : List (Event H)) : System Text W :=
  events.foldl (step world) sys

@[simp] theorem after_nil (sys : System Text W) : sys.after world [] = sys := rfl

@[simp] theorem after_cons (sys : System Text W) (e : Event H) (es : List (Event H)) :
    sys.after world (e :: es) = (sys.step world e).after world es := rfl

theorem after_append (sys : System Text W) (es fs : List (Event H)) :
    sys.after world (es ++ fs) = (sys.after world es).after world fs := List.foldl_append

/-- **The invariant rule.** What every event keeps, every life keeps. -/
theorem after_induction {I : System Text W → Prop} {P : Event H → Prop}
    (hstep : ∀ sys e, P e → I sys → I (sys.step world e)) {events : List (Event H)} :
    ∀ {sys : System Text W}, (∀ e ∈ events, P e) → I sys → I (sys.after world events) := by
  induction events with
  | nil => intro sys _ h; exact h
  | cons e es ih =>
    intro sys hP h
    refine ih (fun f hf => hP f (List.mem_cons_of_mem e hf)) ?_
    exact hstep sys e (hP e List.mem_cons_self) h

/-- An agent not started yet, on a machine nothing has been called on. -/
def fresh (w : W) : System Text W := ⟨none, ⟨w, []⟩⟩

end System

/-! ## On the machine of the in-memory managers -/

/-- What happens by itself: the command of a jail exits. -/
inductive Exit
  | exits (jail : String)

def Host.happens : Exit → Host Text → Host Text
  | .exits jail, h => h.markExited jail

/-- The in-memory managers, under some of the outcomes. -/
def Host.under (allows : {ρ : Type} → Outcome Text → Op Text ρ → Reconciler → Host Text → Prop) :
    Outside (Op Text) (Outcome Text) Reconciler (Host Text) where
  call := Host.call
  allows

/-- The in-memory managers, with any call failing. -/
def Host.outside : Outside (Op Text) (Outcome Text) Reconciler (Host Text) :=
  Host.under fun _ _ _ _ => True

omit [SerdeYaml Text JailRecord] [SerdeYaml Text IngressRecord] in
/-- Which outcomes are considered does not change a run. -/
theorem Host.run_under {α : Type}
    (allows : {ρ : Type} → Outcome Text → Op Text ρ → Reconciler → Host Text → Prop)
    (m : Method Text α) (choices : ℕ → Option (Outcome Text)) (r : Reconciler)
    (t : Trace (Op Text) (Host Text)) :
    m.run (Host.under allows) choices r t = m.run Host.outside choices r t := by
  refine Proc.run_congr ?_
  intro ρ x c w
  rfl

omit [SerdeYaml Text JailRecord] [SerdeYaml Text IngressRecord] in
/-- Every run on it meets what holds whatever fails. -/
theorem Host.meets_of_wp {α : Type} {m : Method Text α}
    {Q : Except ReconcileError α → Reconciler → Trace (Op Text) (Host Text) → Prop}
    {X : Stop → Trace (Op Text) (Host Text) → Prop} {choices : ℕ → Option (Outcome Text)}
    {r : Reconciler} {t : Trace (Op Text) (Host Text)} (h : m.wp Host.outside Q X r t) :
    Ended.Meets Q X (m.run Host.outside choices r t) :=
  Proc.wp_run h (Proc.allowed_of_allows fun _ _ _ _ _ _ _ => trivial)

/-- Every call is made, and works. -/
def Reliable (choices : ℕ → Option (Outcome Text)) : Prop :=
  ∀ i, ∃ x, choices i = some x ∧ x.fails = none

omit [SerdeYaml Text JailRecord] [SerdeYaml Text IngressRecord] in
/-- Where every call is made and works, what does not panic returns. -/
theorem Host.returns_of_wp {α : Type} {m : Method Text α}
    {Q : Except ReconcileError α → Reconciler → Trace (Op Text) (Host Text) → Prop}
    {choices : ℕ → Option (Outcome Text)} {r : Reconciler} {t : Trace (Op Text) (Host Text)}
    (h : m.wp (Host.under fun x _ _ _ => x.fails = none) Q (fun x _ => x = .crashed) r t)
    (hchoices : Reliable choices) : ∃ result r' t',
      m.run Host.outside choices r t = (.returned result r', t') ∧ Q result r' t' := by
  have hanswered : ∀ i, choices i ≠ none := by
    intro i hnone
    obtain ⟨x, hx, -⟩ := hchoices i
    cases hnone.symm.trans hx
  obtain ⟨result, r', t', hrun, hq⟩ := Proc.run_returns hanswered h
    (Proc.allowed_of_allows fun i x hx ρ c s w => by
      obtain ⟨x', hx', hworks⟩ := hchoices i
      cases hx.symm.trans hx'
      exact hworks)
  exact ⟨result, r', t', (Host.run_under ..).symm.trans hrun, hq⟩

/-- An agent on a machine of the in-memory managers. -/
def Host.world (pool : String) (choices : ℕ → Option (Outcome Text)) :
    World Text (Outcome Text) (Host Text) Exit where
  pool
  out := Host.outside
  choices
  happens := Host.happens

/-- An agent's life on a machine, from before its first start. -/
def Host.life (machine : Host Text) (pool : String) (choices : ℕ → Option (Outcome Text))
    (events : List (Event Exit)) : System Text (Host Text) :=
  (System.fresh machine).after (Host.world pool choices) events

/-! ## A small agent -/

namespace Sample

/-- A YAML file, by what it is read as. -/
inductive Doc
  | jail (record : JailRecord)
  | ingress (record : IngressRecord)
  | torn
deriving DecidableEq

scoped instance : SerdeYaml Doc JailRecord where
  toYaml := .jail
  fromYaml doc := match doc with
    | .jail record => .ok record
    | _ => .error "invalid type"
  fromYaml_toYaml _ := rfl

scoped instance : SerdeYaml Doc IngressRecord where
  toYaml := .ingress
  fromYaml doc := match doc with
    | .ingress record => .ok record
    | _ => .error "invalid type"
  fromYaml_toYaml _ := rfl

/-- A machine with one base image and nothing else. -/
def host : Host Doc where
  jails := ∅
  zfs := { Agent.FakeZfsManager.new with datasets := {"zroot/keel/base"} }
  net := ⟨∅, ∅, ∅, ∅, ∅⟩
  mounts := ∅
  stateDir := ∅
  ingressDir := ∅
  rootfsFiles := []
  hiddenFiles := []
  nginxConfig := ∅

/-- Every call works but one. -/
def failing (call : ℕ) : ℕ → Option (Outcome Doc) :=
  fun i => some (if i = call then { Outcome.works with fails := some "" } else .works)

/-- A pass at some time. -/
def pass (now : ℕ) : Pass := ⟨now, 0, .listed, .listed⟩

end Sample

end Node

end Keel
