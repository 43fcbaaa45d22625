import Mathlib.Logic.Relation
import Keel.ControlPlane.Model.Run
import Keel.ControlPlane.Helpers.Services
import Keel.ControlPlane.Helpers.Plan
/-!
# What a request can do

Every handler is a sequence of steps on the tables and the log, and there
are ten kinds of step. `handler_steps` says so of every route, and
`run_steps` of every run; an invariant of the control plane is then one
case analysis on `Step`. A step is a forward together with the writes its
answer brings, so the tables are as a step leaves them whenever a forward
is sent and whenever a request ends.
-/

namespace Keel

namespace ControlPlane

/-- The jail a forward is about. -/
def Forward.jail? (f : Forward) : Option String :=
  match f.path with
  | .jail name => some name
  | _ => none

/-- The node said yes. -/
def accepted : ForwardResult → Bool
  | .ok (status, _) => isSuccess status
  | .error _ => false

/-- The node said yes, or that it has no such jail. -/
def gone : ForwardResult → Bool
  | .ok (status, _) => isSuccess status || status == 404
  | .error _ => false

namespace World

variable (w : World)

/-- A forward sent and answered, the answer bringing the write `t` if
`settles`. -/
def answered (f : Forward) (answer : ForwardResult) (settles : Bool) (t : Worker → Worker) :
    World :=
  ⟨if settles then t w.worker else w.worker, w.log ++ [.sent w.worker f answer]⟩

@[simp] theorem answered_log (f : Forward) (answer : ForwardResult) (settles : Bool)
    (t : Worker → Worker) :
    (w.answered f answer settles t).log = w.log ++ [.sent w.worker f answer] := rfl

theorem answered_worker (f : Forward) (answer : ForwardResult) (settles : Bool)
    (t : Worker → Worker) :
    (w.answered f answer settles t).worker = if settles then t w.worker else w.worker := rfl

end World

/-! ## The actions of a plan -/

namespace ReplicaAction

/-- The forward an action is sent as. -/
def forward : ReplicaAction → Forward
  | .schedule name nodeId nodeAddr template address prefixLen _ standbyAddr =>
    ⟨nodeAddr, .put, .jail name,
      .yaml (.ok (replicaSpec template name address prefixLen standbyAddr)), nodeId,
      .schedule address⟩
  | .tearDown name nodeId nodeAddr => ⟨nodeAddr, .delete, .jail name, .empty, nodeId, .tearDown⟩

/-- What an accepted action writes. -/
def settle : ReplicaAction → Worker → Worker
  | .schedule name nodeId _ _ address _ standbyNodeId _, w =>
    { w with
      placements := w.placements.insert name nodeId
      usedAddresses := w.usedAddresses.record name nodeId address
      standbys := standbyNodeId.elim w.standbys (w.standbys.insert name) }
  | .tearDown name _ _, w =>
    { w with
      placements := w.placements.erase name
      usedAddresses := w.usedAddresses.release name }

end ReplicaAction

/-- One action of a plan, executed. -/
def World.execute (w : World) (a : ReplicaAction) (answer : ForwardResult) : World :=
  w.answered a.forward answer (accepted answer) a.settle

/-- The actions of a plan executed one after another, each answered
somehow. -/
inductive Executed (w : World) : List ReplicaAction → World → Prop
  | nil : Executed w [] w
  | snoc {as : List ReplicaAction} {w' : World} (a : ReplicaAction) (answer : ForwardResult) :
      Executed w as w' → Executed w (as ++ [a]) (w'.execute a answer)

/-! ## The steps -/

/-- What a promotion writes, once the standby has said yes. -/
def ForceRepinPrep.settle (prep : ForceRepinPrep) (name : String) (w : Worker) : Worker :=
  { w with
    placements := w.placements.insert name prep.standbyNodeId
    usedAddresses := w.usedAddresses.record name prep.standbyNodeId prep.address
    standbys := w.standbys.insert name prep.freshStandbyNodeId
    pendingFences := w.pendingFences.insert name prep.oldNodeId }

/-- The `PUT` a promotion sends. -/
def ForceRepinPrep.forward (prep : ForceRepinPrep) (name : String) : Forward :=
  ⟨prep.standbyAddr, .put, .jail name,
    .yaml (.ok (replicaSpec prep.template name prep.address prep.prefixLen
      (some prep.freshStandbyAddr))), prep.standbyNodeId, .promote⟩

/-- A forward an operator asked for. -/
def Site.operator : Site → Bool
  | .direct => true
  | .scheduled => true
  | _ => false

/-- The forward of an owed delete. -/
def fenceForward (nodeId addr r : String) : Forward :=
  ⟨addr, .delete, .jail r, .empty, nodeId, .fencing⟩

/-- **A step of a request.** -/
inductive Step (w : World) : World → Prop
  /-- A registration or a heartbeat. -/
  | registry (registry : Registry) : Step w ⟨{ w.worker with registry }, w.log⟩
  /-- A service accepted. -/
  | apply {name : String} {replicas : ℕ} {template : JailTemplate} {port : ℕ}
      {services : Services} (hconflict : w.worker.nameConflict name replicas = none)
      (h : w.worker.services.apply name replicas template port = (.ok (), services)) :
      Step w ⟨{ w.worker with services }, w.log ++ [.applied w.worker name]⟩
  /-- A pass over every service. -/
  | reconcile {w' : World} (now : Instant)
      (h : Executed ⟨w.worker, w.log ++ [.planned now w.worker (w.worker.reconcileServices now)]⟩
        (w.worker.reconcileServices now) w') : Step w w'
  /-- A service deleted, and its replicas with it. -/
  | delete {w' : World} {name : String} {record : ServiceRecord} (now : Instant)
      (ord : IterOrder) (hget : w.worker.services.get name = some record)
      (h : Executed
        ⟨{ w.worker with services := w.worker.services.remove name },
          w.log ++ [.planned now w.worker (w.worker.deleteActions now ord name)]⟩
        (w.worker.deleteActions now ord name) w') : Step w w'
  /-- A forward that only reads. -/
  | read {f : Forward} (answer : ForwardResult) (hsite : f.site ≠ .fencing)
      (hput : ∀ name, f.path = .jail name → f.method = .get) :
      Step w ⟨w.worker, w.log ++ [.sent w.worker f answer]⟩
  /-- An operator's `PUT` of a jail, its name no service's as far as the
  tables tell. -/
  | put {f : Forward} {name : String} (answer : ForwardResult) (hpath : f.path = .jail name)
      (hmethod : f.method = .put) (hsite : f.site.operator)
      (howner : ∀ s, ownerOf name w.worker.placements w.worker.services ≠ some (.service s)) :
      Step w (w.answered f answer (accepted answer) fun worker =>
        { worker with placements := worker.placements.insert name f.nodeId })
  /-- An operator's `DELETE` of a jail. -/
  | drop {f : Forward} {name : String} (answer : ForwardResult) (hpath : f.path = .jail name)
      (hmethod : f.method = .delete) (hsite : f.site.operator) :
      Step w (w.answered f answer (accepted answer) fun worker =>
        { worker with placements := worker.placements.erase name })
  /-- A promotion. -/
  | promote {name : String} {prep : ForceRepinPrep} (now : Instant) (answer : ForwardResult)
      (h : w.worker.prepareForceRepin now name = .ok prep) :
      Step w (w.answered (prep.forward name) answer (accepted answer) (prep.settle name))
  /-- An owed delete. -/
  | fence {nodeId r : String} (addr : String) (answer : ForwardResult)
      (h : w.worker.pendingFences.lookup r = some nodeId) :
      Step w (w.answered (fenceForward nodeId addr r) answer (gone answer) fun worker =>
        { worker with pendingFences := worker.pendingFences.erase r })

abbrev Steps := Relation.ReflTransGen Step

/-- The log only grows. -/
theorem Executed.log_mono {w w' : World} {as : List ReplicaAction} (h : Executed w as w') :
    w.log <+: w'.log := by
  induction h with
  | nil => exact List.prefix_rfl
  | snoc a answer _ ih => exact ih.trans (List.prefix_append _ _)

theorem Step.log_mono {w w' : World} (h : Step w w') : w.log <+: w'.log := by
  cases h with
  | registry => exact List.prefix_rfl
  | reconcile now h => exact (List.prefix_append _ _).trans h.log_mono
  | delete now ord hget h => exact (List.prefix_append _ _).trans h.log_mono
  | apply => exact List.prefix_append _ _
  | read => exact List.prefix_append _ _
  | put => exact List.prefix_append _ _
  | drop => exact List.prefix_append _ _
  | promote => exact List.prefix_append _ _
  | fence => exact List.prefix_append _ _

/-! ## Invariants

Two rules: what every step keeps, as long as nothing in the log breaks a
condition, holds at the end of the steps whose log does not break it. -/

section Invariant

variable {C : Event → Prop} {I : World → Prop} {w w' : World}

theorem Executed.invariant {as : List ReplicaAction} (h : Executed w as w')
    (hstep : ∀ {w₁ : World} {a : ReplicaAction} {answer : ForwardResult}, a ∈ as →
      C (.sent w₁.worker a.forward answer) → I w₁ → I (w₁.execute a answer))
    (hC : ∀ e ∈ w'.log, C e) (hI : I w) : I w' := by
  induction h with
  | nil => exact hI
  | @snoc as w₁ a answer hdone ih =>
    have hlast : C (.sent w₁.worker a.forward answer) :=
      hC _ List.mem_concat_self
    refine hstep List.mem_concat_self hlast (ih ?_ ?_)
    · exact fun ha => hstep (List.mem_append_left _ ha)
    · exact fun e he => hC e (List.mem_append_left _ he)

/-- The same with a condition on the log as a whole that every shorter
log inherits. -/
theorem Steps.invariant_log (D : List Event → Prop) (h : Steps w w')
    (hD : ∀ {l l' : List Event}, l <+: l' → D l' → D l)
    (hstep : ∀ {w₁ w₂ : World}, Step w₁ w₂ → D w₂.log → I w₁ → I w₂)
    (hlog : D w'.log) (hI : I w) : I w' := by
  induction h with
  | refl => exact hI
  | tail _ hlast ih => exact hstep hlast hlog (ih (hD hlast.log_mono hlog))

theorem Steps.invariant (h : Steps w w')
    (hstep : ∀ {w₁ w₂ : World}, Step w₁ w₂ → (∀ e ∈ w₂.log, C e) → I w₁ → I w₂)
    (hC : ∀ e ∈ w'.log, C e) (hI : I w) : I w' :=
  h.invariant_log (fun l => ∀ e ∈ l, C e) (fun hpre hC e he => hC e (hpre.mem he)) hstep hC hI

end Invariant

/-! ## Moves

What the steps of a request have besides: the registry is changed by the
request's own call, no service goes but the one it deletes, and a forward
goes to the address its node resolves to. -/

/-- The call on the registry a request makes. -/
def Request.registryCall (now : Instant) : Request → Option RegistryCall
  | .register (.ok r) =>
    some (.register r.id r.addr r.replicateAddr r.capacityCpu r.capacityMemory now)
  | .heartbeat id (.ok h) => some (.heartbeat id h.committedCpu h.committedMemory h.jails now)
  | _ => none

/-- A forward goes to the address its node resolves to. -/
def Event.Routed : Event → Prop
  | .sent before f _ => ∃ now, before.registry.resolve f.nodeId now = .ok f.addr
  | _ => True

/-- **A step of a given request.** -/
structure Move (request : Request) (w w' : World) : Prop where
  step : Step w w'
  registry : w'.worker.registry = w.worker.registry ∨
    ∃ now call, request.registryCall now = some call ∧
      w'.worker.registry = w.worker.registry.call call
  services : ∀ s, request ≠ .deleteService s → (w.worker.services.get s).isSome = true →
    (w'.worker.services.get s).isSome = true
  routed : ∀ e ∈ w'.log, e ∈ w.log ∨ e.Routed

abbrev Moves (request : Request) := Relation.ReflTransGen (Move request)

theorem Moves.steps {request : Request} {w w' : World} (h : Moves request w w') : Steps w w' := by
  induction h with
  | refl => exact .refl
  | tail _ hmove ih => exact ih.tail hmove.step

namespace Executed

variable {w w' : World} {as : List ReplicaAction}

theorem registry (h : Executed w as w') : w'.worker.registry = w.worker.registry := by
  induction h with
  | nil => rfl
  | snoc a answer _ ih =>
    rw [World.execute, World.answered_worker]
    split
    · cases a <;> exact ih
    · exact ih

theorem services (h : Executed w as w') : w'.worker.services = w.worker.services := by
  induction h with
  | nil => rfl
  | snoc a answer _ ih =>
    rw [World.execute, World.answered_worker]
    split
    · cases a <;> exact ih
    · exact ih

/-- **The frame of a plan**: of a jail it has no action for, the tables
say what they said. -/
theorem lookup_eq (h : Executed w as w') {r : String} (hr : r ∉ as.map ReplicaAction.name) :
    w'.worker.placements.lookup r = w.worker.placements.lookup r ∧
      w'.worker.standbys.lookup r = w.worker.standbys.lookup r ∧
      w'.worker.usedAddresses.byJail.lookup r = w.worker.usedAddresses.byJail.lookup r := by
  induction h with
  | nil => exact ⟨rfl, rfl, rfl⟩
  | @snoc as w₁ a answer _ ih =>
    rw [List.map_append, List.mem_append, not_or] at hr
    have hne : r ≠ a.name := fun heq => hr.2 (List.mem_singleton.2 heq)
    obtain ⟨hplacements, hstandbys, hbyJail⟩ := ih hr.1
    rw [World.execute, World.answered_worker]
    split
    · cases a with
      | schedule name nodeId nodeAddr template address prefixLen standbyNodeId standbyAddr =>
        simp only [ReplicaAction.name] at hne
        refine ⟨?_, ?_, ?_⟩
        · rw [ReplicaAction.settle, Table.lookup_insert_eq, if_neg hne, hplacements]
        · cases standbyNodeId with
          | none => exact hstandbys
          | some m =>
            rw [ReplicaAction.settle, Option.elim_some, Table.lookup_insert_eq, if_neg hne,
              hstandbys]
        · rw [ReplicaAction.settle, UsedAddresses.byJail_record, if_neg hne, hbyJail]
      | tearDown name nodeId nodeAddr =>
        simp only [ReplicaAction.name] at hne
        refine ⟨?_, hstandbys, ?_⟩
        · rw [ReplicaAction.settle, Table.lookup_erase_eq, if_neg hne, hplacements]
        · rw [ReplicaAction.settle, UsedAddresses.byJail_release, if_neg hne, hbyJail]
    · exact ⟨hplacements, hstandbys, hbyJail⟩

theorem routed (h : Executed w as w')
    (hplanned : ∀ a ∈ as, ∃ now, w.worker.registry.resolve a.forward.nodeId now =
      .ok a.forward.addr) : ∀ e ∈ w'.log, e ∈ w.log ∨ e.Routed := by
  induction h with
  | nil => exact fun e he => Or.inl he
  | snoc a answer hdone ih =>
    intro e he
    rcases List.mem_append.1 he with he | he
    · exact ih (fun b hb => hplanned b (List.mem_append_left _ hb)) e he
    · rw [List.mem_singleton.1 he]
      refine Or.inr ?_
      rw [Event.Routed, hdone.registry]
      exact hplanned a List.mem_concat_self

end Executed

theorem Planned.routed {w : Worker} {now : Instant} {a : ReplicaAction} (h : Planned w now a) :
    w.registry.resolve a.forward.nodeId now = .ok a.forward.addr := by
  cases a with
  | schedule => exact h.resolves
  | tearDown => exact h.2

namespace Move

variable {request : Request} {w : World}

/-- A forward whose answer writes neither the registry nor the services. -/
theorem of_answered (request : Request) {f : Forward} {answer : ForwardResult} {settles : Bool}
    {t : Worker → Worker} {now : Instant} (hstep : Step w (w.answered f answer settles t))
    (hroute : w.worker.registry.resolve f.nodeId now = .ok f.addr)
    (hregistry : (t w.worker).registry = w.worker.registry)
    (hservices : (t w.worker).services = w.worker.services) :
    Move request w (w.answered f answer settles t) where
  step := hstep
  registry := by
    refine Or.inl ?_
    rw [World.answered_worker]
    split
    · exact hregistry
    · rfl
  services s _ hs := by
    rw [World.answered_worker]
    split
    · rwa [hservices]
    · exact hs
  routed e he := by
    rcases List.mem_append.1 he with he | he
    · exact Or.inl he
    · rw [List.mem_singleton.1 he]
      exact Or.inr ⟨now, hroute⟩

theorem registryCall (request : Request) (now : Instant) {c : RegistryCall} (h : request.registryCall now = some c) :
    Move request w ⟨{ w.worker with registry := w.worker.registry.call c }, w.log⟩ :=
  ⟨.registry _, Or.inr ⟨now, c, h, rfl⟩, fun _ _ => id, fun _ => Or.inl⟩

theorem apply {name : String} {replicas : ℕ} {template : JailTemplate} {port : ℕ}
    {services : Services} (hconflict : w.worker.nameConflict name replicas = none)
    (h : w.worker.services.apply name replicas template port = (.ok (), services)) :
    Move request w ⟨{ w.worker with services }, w.log ++ [.applied w.worker name]⟩ where
  step := .apply hconflict h
  registry := Or.inl rfl
  services s _ hs := Services.isSome_of_apply h hs
  routed e he := by
    rcases List.mem_append.1 he with he | he
    · exact Or.inl he
    · rw [List.mem_singleton.1 he]
      exact Or.inr trivial

theorem reconcile {w' : World} (now : Instant)
    (h : Executed ⟨w.worker, w.log ++ [.planned now w.worker (w.worker.reconcileServices now)]⟩
      (w.worker.reconcileServices now) w') : Move request w w' where
  step := .reconcile now h
  registry := Or.inl h.registry
  services s _ hs := by rwa [h.services]
  routed e he := by
    rcases h.routed (fun a ha => ⟨now, (reconcileServices_planned a ha).routed⟩) e he with he | he
    · rcases List.mem_append.1 he with he | he
      · exact Or.inl he
      · rw [List.mem_singleton.1 he]
        exact Or.inr trivial
    · exact Or.inr he

theorem read {f : Forward} {now : Instant}
    (hroute : w.worker.registry.resolve f.nodeId now = .ok f.addr) (answer : ForwardResult)
    (hsite : f.site ≠ .fencing) (hput : ∀ name, f.path = .jail name → f.method = .get) :
    Move request w ⟨w.worker, w.log ++ [.sent w.worker f answer]⟩ := by
  have hstep : Step w (w.answered f answer false id) := .read answer hsite hput
  exact of_answered request hstep hroute rfl rfl

theorem delete {w' : World} {name : String} {record : ServiceRecord} (now : Instant)
    (ord : IterOrder) (hget : w.worker.services.get name = some record)
    (h : Executed
      ⟨{ w.worker with services := w.worker.services.remove name },
        w.log ++ [.planned now w.worker (w.worker.deleteActions now ord name)]⟩
      (w.worker.deleteActions now ord name) w') : Move (.deleteService name) w w' where
  step := .delete now ord hget h
  registry := Or.inl h.registry
  services s hs hold := by
    have hne : s ≠ name := by
      rintro rfl
      exact hs rfl
    rwa [h.services, Services.get_remove, if_neg hne]
  routed e he := by
    rcases h.routed (fun a ha => ⟨now, (deleteActions_planned a ha).routed⟩) e he with he | he
    · rcases List.mem_append.1 he with he | he
      · exact Or.inl he
      · rw [List.mem_singleton.1 he]
        exact Or.inr trivial
    · exact Or.inr he

end Move

/-! ## Earlier requests

The log is written and never read: a step stays a step behind the log of
the requests before it. -/

/-- The same world behind an earlier log. -/
def World.behind (l : List Event) (w : World) : World := ⟨w.worker, l ++ w.log⟩

theorem World.behind_answered (l : List Event) (w : World) (f : Forward)
    (answer : ForwardResult) (settles : Bool) (t : Worker → Worker) :
    (w.answered f answer settles t).behind l = (w.behind l).answered f answer settles t := by
  simp only [World.behind, World.answered, List.append_assoc]

theorem Executed.behind {w w' : World} {as : List ReplicaAction} (l : List Event)
    (h : Executed w as w') : Executed (w.behind l) as (w'.behind l) := by
  induction h with
  | nil => exact .nil
  | snoc a answer _ ih =>
    rw [World.execute, World.behind_answered]
    exact .snoc a answer ih

theorem Step.behind {w w' : World} (l : List Event) (h : Step w w') :
    Step (w.behind l) (w'.behind l) := by
  cases h with
  | registry registry => exact .registry registry
  | @apply name replicas template port services hconflict h =>
    have := Step.apply (w := w.behind l) hconflict h
    rwa [World.behind, List.append_assoc] at this
  | reconcile now h =>
    refine .reconcile now ?_
    have := h.behind l
    rwa [World.behind, ← List.append_assoc] at this
  | delete now ord hget h =>
    refine .delete now ord hget ?_
    have := h.behind l
    rwa [World.behind, ← List.append_assoc] at this
  | @read f answer hsite hput =>
    have := Step.read (w := w.behind l) answer hsite hput
    rwa [World.behind, List.append_assoc] at this
  | put answer hpath hmethod hsite howner =>
    rw [World.behind_answered]
    exact .put answer hpath hmethod hsite howner
  | drop answer hpath hmethod hsite =>
    rw [World.behind_answered]
    exact .drop answer hpath hmethod hsite
  | promote now answer h =>
    rw [World.behind_answered]
    exact .promote now answer h
  | fence addr answer h =>
    rw [World.behind_answered]
    exact .fence addr answer h

theorem Move.behind {request : Request} {w w' : World} (l : List Event)
    (h : Move request w w') : Move request (w.behind l) (w'.behind l) where
  step := h.step.behind l
  registry := h.registry
  services := h.services
  routed e he := by
    rcases List.mem_append.1 he with he | he
    · exact Or.inl (List.mem_append_left _ he)
    · exact (h.routed e he).imp_left (List.mem_append_right _)

theorem Moves.behind {request : Request} {w w' : World} (l : List Event)
    (h : Moves request w w') : Moves request (w.behind l) (w'.behind l) := by
  induction h with
  | refl => exact .refl
  | tail _ hmove ih => exact ih.tail (hmove.behind l)

theorem Steps.behind {w w' : World} (l : List Event) (h : Steps w w') :
    Steps (w.behind l) (w'.behind l) := by
  induction h with
  | refl => exact .refl
  | tail _ hstep ih => exact ih.tail (hstep.behind l)

/-! ## The handlers -/

/-- What a handler leaves is reached by steps of its request. -/
abbrev Handled (request : Request) {α : Type} (p : Handler α) : Prop :=
  ∀ w : World, p.wp semantics w fun _ w' => Moves request w w'

/-- A command leaves one event at most, and never a forward's. -/
theorem Command.note_cases {ρ : Type} (now : Instant) (before : Worker) (c : Command ρ) (reply : ρ) :
    c.note now before reply = [] ∨ ∃ e, c.note now before reply = [e] ∧
      (∀ before' f answer, e ≠ .sent before' f answer) ∧
      ∀ t before' actions, e = .planned t before' actions → now = t := by
  cases c with
  | reconcileServices =>
    refine Or.inr ⟨.planned now before reply, rfl, fun _ _ _ h => (by cases h), fun _ _ _ h => ?_⟩
    cases h
    rfl
  | deleteService name =>
    rcases reply with e | actions
    · exact Or.inl rfl
    · refine Or.inr ⟨.planned now before actions, rfl, fun _ _ _ h => (by cases h),
        fun _ _ _ h => ?_⟩
      cases h
      rfl
  | applyService name replicas template port =>
    rcases reply with e | ⟨⟩
    · exact Or.inl rfl
    · exact Or.inr ⟨.applied before name, rfl, fun _ _ _ h => (by cases h),
        fun _ _ _ h => (by cases h)⟩
  | _ => exact Or.inl rfl

/-- A forward, whatever the answer. -/
theorem wp_forward_iff {α : Type} {f : Forward} {k : ForwardResult → Handler α} {w : World}
    {Q : α → World → Prop} :
    (Prog.forward f k).wp semantics w Q ↔
      ∀ answer, (k answer).wp semantics ⟨w.worker, w.log ++ [.sent w.worker f answer]⟩ Q :=
  ⟨fun h answer => h ⟨0, .listed, answer⟩, fun h o => h o.answer⟩

/-- A command, whatever the clock and the iteration order. -/
theorem wp_command_iff {α ρ : Type} {c : Command ρ} {k : ρ → Handler α} {w : World}
    {Q : α → World → Prop} :
    (Prog.command c k).wp semantics w Q ↔
      ∀ now ord, (k (Worker.handleCommand now ord c w.worker).1).wp semantics
        ⟨(Worker.handleCommand now ord c w.worker).2,
          w.log ++ c.note now w.worker (Worker.handleCommand now ord c w.worker).1⟩ Q :=
  ⟨fun h now ord => h ⟨now, ord, .error ""⟩, fun h o => h o.now o.order⟩

/-- The same of the run on given choices. -/
theorem run_forward {α : Type} {f : Forward} {k : ForwardResult → Handler α} {o : ℕ → Choice}
    {i : ℕ} {w : World} :
    (Prog.forward f k).run semantics o i w = (k (o i).answer).run semantics o (i + 1)
      ⟨w.worker, w.log ++ [.sent w.worker f (o i).answer]⟩ := rfl

theorem run_command {α ρ : Type} {c : Command ρ} {k : ρ → Handler α} {o : ℕ → Choice} {i : ℕ}
    {w : World} :
    (Prog.command c k).run semantics o i w =
      (k (Worker.handleCommand (o i).now (o i).order c w.worker).1).run semantics o (i + 1)
        ⟨(Worker.handleCommand (o i).now (o i).order c w.worker).2, w.log ++ c.note (o i).now
          w.worker (Worker.handleCommand (o i).now (o i).order c w.worker).1⟩ := rfl

theorem wp_send_iff {ρ : Type} {c : Command ρ} {w : World} {Q : ρ → World → Prop} :
    (Prog.send c : Handler ρ).wp semantics w Q ↔
      ∀ now ord, Q (Worker.handleCommand now ord c w.worker).1
        ⟨(Worker.handleCommand now ord c w.worker).2,
          w.log ++ c.note now w.worker (Worker.handleCommand now ord c w.worker).1⟩ :=
  wp_command_iff

/-- An action is sent, and written once it is accepted. -/
theorem wp_executeReplicaAction {a : ReplicaAction} {w : World} {Q : Unit → World → Prop} :
    (executeReplicaAction a).wp semantics w Q ↔ ∀ answer, Q () (w.execute a answer) := by
  cases a with
  | schedule name nodeId nodeAddr template address prefixLen standbyNodeId standbyAddr =>
    simp only [executeReplicaAction, Prog.bind_eq, Prog.call_bind, wp_forward_iff]
    refine forall_congr' fun answer => ?_
    rcases answer with e | ⟨status, text⟩
    · exact Iff.rfl
    · by_cases hs : isSuccess status
      · simp only [hs, if_true, sendRecordPlacement, sendRecordReplicaAddress, sendRecordStandby,
          Prog.send_bind, wp_command_iff, Worker.handleCommand, Command.note, List.append_nil,
          forall_const, World.execute, World.answered, accepted, ReplicaAction.forward,
          ReplicaAction.settle]
        cases standbyNodeId with
        | none => exact Iff.rfl
        | some standbyId =>
          simp only [wp_send_iff, Worker.handleCommand, Command.note, List.append_nil,
            forall_const, Option.elim_some]
      · simp only [hs, Prog.pure_eq, World.execute, World.answered, accepted]
        exact Iff.rfl
  | tearDown name nodeId nodeAddr =>
    simp only [executeReplicaAction, Prog.bind_eq, Prog.call_bind, wp_forward_iff]
    refine forall_congr' fun answer => ?_
    rcases answer with e | ⟨status, text⟩
    · exact Iff.rfl
    · by_cases hs : isSuccess status
      · simp only [hs, if_true, sendRemovePlacement, sendReleaseReplicaAddress, Prog.send_bind,
          wp_send_iff, wp_command_iff, Worker.handleCommand, Command.note, List.append_nil,
          forall_const, World.execute, World.answered, accepted, ReplicaAction.forward,
          ReplicaAction.settle]
      · simp only [hs, Prog.pure_eq, World.execute, World.answered, accepted]
        exact Iff.rfl

/-- A plan is executed action by action. -/
theorem wp_executeReplicaActions (as : List ReplicaAction) (w : World) :
    (executeReplicaActions as).wp semantics w fun _ w' => Executed w as w' := by
  -- What is done so far, and what is left, make up the plan.
  refine Prog.wp_mono ?_ (Prog.wp_forEach
    (fun rest w' => ∃ done, done ++ rest = as ∧ Executed w done w') ?_ as ⟨[], rfl, .nil⟩)
  · rintro _ w' ⟨done, rfl, hdone⟩
    rwa [List.append_nil]
  · rintro a rest w' ⟨done, rfl, hdone⟩
    rw [wp_executeReplicaAction]
    exact fun answer => ⟨done ++ [a], by simp, hdone.snoc a answer⟩

theorem reconcileAndExecute_handled (request : Request) :
    Handled request reconcileAndExecute := by
  intro w
  simp only [reconcileAndExecute, Prog.bind_eq, Prog.send_bind, wp_command_iff,
    Worker.handleCommand, Command.note]
  intro now _
  exact Prog.wp_mono (fun _ _ h => .single (.reconcile now h)) (wp_executeReplicaActions _ _)

theorem wp_executeFence {nodeId addr r : String} {w : World} {Q : Unit → World → Prop} :
    (executeFence nodeId addr r).wp semantics w Q ↔
      ∀ answer, Q () (w.answered (fenceForward nodeId addr r) answer (gone answer) fun worker =>
        { worker with pendingFences := worker.pendingFences.erase r }) := by
  simp only [executeFence, Prog.bind_eq, Prog.call_bind, wp_forward_iff]
  refine forall_congr' fun answer => ?_
  rcases answer with e | ⟨status, text⟩
  · exact Iff.rfl
  · by_cases hs : (isSuccess status || status == 404) = true
    · simp only [hs, if_true, sendRemovePendingFence, wp_send_iff, Worker.handleCommand,
        Command.note, List.append_nil, forall_const, World.answered, gone, fenceForward]
    · simp only [hs, Prog.pure_eq, World.answered, gone]
      exact Iff.rfl

/-- Each replica a node is owed is still owed when its turn comes: the
others' deletes strike off only themselves. -/
theorem checkAndExecuteFencing_handled (request : Request) (nodeId : String) :
    Handled request (checkAndExecuteFencing nodeId) := by
  intro w
  rw [checkAndExecuteFencing, Prog.bind_eq, Prog.send_bind, wp_command_iff]
  intro now ord
  simp only [Command.note, List.append_nil]
  split
  · exact .refl
  simp only [Prog.bind_eq, Prog.send_bind, wp_command_iff, Worker.handleCommand, Command.note,
    List.append_nil]
  intro now' _
  split
  · exact .refl
  rename_i addr haddr
  refine Prog.wp_mono (fun _ _ h => h.1) (Prog.wp_forEach
    (fun rest w' => Moves request w w' ∧ w'.worker.registry = w.worker.registry ∧ rest.Nodup ∧
      ∀ r ∈ rest, w'.worker.pendingFences.lookup r = some nodeId) ?_ _
    ⟨.refl, rfl, PendingFences.nodup_forNode, fun r hr => PendingFences.mem_forNode.1 hr⟩)
  · rintro r rest w' ⟨hmoves, hregistry, hnodup, howed⟩
    rw [wp_executeFence]
    intro answer
    obtain ⟨hr, hrest⟩ := List.nodup_cons.1 hnodup
    have hstep := Step.fence addr answer (howed r List.mem_cons_self)
    have hroute : w'.worker.registry.resolve nodeId now' = .ok addr := by rw [hregistry, haddr]
    refine ⟨hmoves.tail (.of_answered _ hstep hroute rfl rfl), ?_, hrest, ?_⟩
    · rw [World.answered_worker]
      split <;> exact hregistry
    · intro r' hr'
      rw [World.answered_worker]
      have howed' := howed r' (List.mem_cons_of_mem _ hr')
      split
      · rw [Table.lookup_erase_eq, if_neg (by rintro rfl; exact hr hr'), howed']
      · exact howed'

/-! ## The routes -/

theorem handleRegister_handled (body : Except String NodeRegistration) :
    Handled (.register body) (handleRegister body) := by
  intro w
  cases body with
  | error e => exact .refl
  | ok r =>
    simp only [handleRegister, Prog.bind_eq, Prog.send_bind, wp_command_iff, Worker.handleCommand,
      Command.note, List.append_nil]
    intro now _
    have hmove := Move.registryCall (w := w) (.register (.ok r)) now rfl
    split <;> exact .single hmove

/-- What is left of a heartbeat once its node has spoken. -/
theorem afterHeartbeat_handled (request : Request) (id : String) :
    Handled request (reconcileAndExecute.bind fun _ => (checkAndExecuteFencing id).bind fun _ =>
      Prog.command .listServiceProxyEntries fun entries =>
        Prog.ret (⟨200, .entries entries⟩ : Response)) := by
  intro w
  rw [Prog.wp_bind]
  refine Prog.wp_mono ?_ (reconcileAndExecute_handled request w)
  intro _ w₁ h₁
  rw [Prog.wp_bind]
  refine Prog.wp_mono ?_ (checkAndExecuteFencing_handled request id w₁)
  intro _ w₂ h₂
  simp only [wp_command_iff, Worker.handleCommand, Command.note, List.append_nil]
  intro _ _
  exact h₁.trans h₂

theorem handleHeartbeat_handled (id : String) (body : Except String Heartbeat) :
    Handled (.heartbeat id body) (handleHeartbeat id body) := by
  intro w
  cases body with
  | error e => exact .refl
  | ok h =>
    simp only [handleHeartbeat, Prog.bind_eq, Prog.send_bind, wp_command_iff, Worker.handleCommand,
      Command.note, List.append_nil]
    intro now _
    have hmove := Move.registryCall (w := w) (.heartbeat id (.ok h)) now rfl
    split
    · exact .single hmove
    · refine Prog.wp_mono ?_ (afterHeartbeat_handled (.heartbeat id (.ok h)) id _)
      intro _ w' h'
      exact .head hmove h'

/-- A forward to a named node answers success exactly when the node
does. -/
theorem wp_handleForward {id : String} {method : Method} {path : NodePath} {body : Body}
    {w : World} {Q : Response → World → Prop}
    (hunsent : ∀ response, isSuccess response.status = false → Q response w)
    (hsent : ∀ now addr answer response, w.worker.registry.resolve id now = .ok addr →
      isSuccess response.status = accepted answer → Q response ⟨w.worker, w.log ++ [.sent w.worker ⟨addr, method, path, body, id, .direct⟩
        answer]⟩) :
    (handleForward id method path body).wp semantics w Q := by
  simp only [handleForward, Prog.bind_eq, Prog.send_bind, wp_command_iff, Worker.handleCommand,
    Command.note, List.append_nil]
  intro now _
  split
  · exact hunsent _ (by simp [errorResponse, isSuccess])
  · rename_i addr haddr
    simp only [Prog.call_bind, wp_forward_iff]
    intro answer
    rcases answer with e | ⟨status, text⟩
    · exact hsent now addr _ _ haddr (by simp [failedToReach, errorResponse, isSuccess, accepted])
    · exact hsent now addr _ _ haddr rfl

/-- A forward to a named node that no jail is written for. -/
theorem handleForward_handled (request : Request) (id : String) (method : Method)
    (path : NodePath) (body : Body) (h : ∀ name, path = .jail name → method = .get) :
    Handled request (handleForward id method path body) := by
  intro w
  refine wp_handleForward (fun _ _ => .refl) fun now addr answer _ haddr _ => ?_
  exact .single (.read haddr answer (by simp) h)

/-- A write that follows an answer only if it is a success is the write
the answer brings. -/
theorem wp_write_of_success {α : Type} {request : Request} {f : Forward} {answer : ForwardResult} {w : World}
    {status : ℕ} {c : Command Unit} {t : Worker → Worker} {response : α}
    (hstatus : isSuccess status = accepted answer)
    (hc : ∀ now ord worker, Worker.handleCommand now ord c worker = ((), t worker))
    (hnote : ∀ now worker, c.note now worker () = [])
    (hmove : Move request w (w.answered f answer (accepted answer) t)) :
    (if isSuccess status then Prog.command c fun _ => Prog.ret response
      else Prog.ret response : Handler α).wp semantics
      ⟨w.worker, w.log ++ [.sent w.worker f answer]⟩ fun _ w' => Moves request w w' := by
  rw [World.answered, ← hstatus] at hmove
  cases hs : isSuccess status with
  | true =>
    simp only [if_true, wp_command_iff, hc, hnote, List.append_nil, Prog.wp_ret]
    intro _ _
    rw [hs, if_pos rfl] at hmove
    exact .single hmove
  | false =>
    rw [hs] at hmove
    exact .single hmove

/-- The guard of an operator's `PUT` lets a name through only if no
service has it. -/
theorem wp_rejectIfServiceOwned {name : String} {w : World}
    {Q : Option Response → World → Prop} (hreject : ∀ response, Q (some response) w)
    (hpass : (∀ s, ownerOf name w.worker.placements w.worker.services ≠ some (.service s)) →
      Q none w) :
    (rejectIfServiceOwned name).wp semantics w Q := by
  simp only [rejectIfServiceOwned, Prog.bind_eq, Prog.send_bind, wp_command_iff,
    Worker.handleCommand, Command.note, List.append_nil]
  intro _ _
  split
  · exact hreject _
  · rename_i hne
    exact hpass fun s hs => hne s hs

theorem handlePutNodeJail_handled (id name : String) (body : Except String JailSpec) :
    Handled (.putNodeJail id name body) (handlePutNodeJail id name body) := by
  intro w
  rw [handlePutNodeJail, Prog.bind_eq, Prog.wp_bind]
  refine wp_rejectIfServiceOwned (fun _ => .refl) fun howner => ?_
  rw [Prog.bind_eq, Prog.wp_bind]
  refine wp_handleForward (fun response hs => ?_) fun now addr answer response haddr hs => ?_
  · simp only [hs]
    exact .refl
  · have hstep := Step.put (w := w) (f := ⟨addr, .put, .jail name, .yaml body, id, .direct⟩)
      answer rfl rfl rfl howner
    refine wp_write_of_success hs ?_ ?_ (.of_answered _ hstep haddr rfl rfl) <;> intros <;> rfl

theorem handleDeleteNodeJail_handled (id name : String) :
    Handled (.deleteNodeJail id name) (handleDeleteNodeJail id name) := by
  intro w
  rw [handleDeleteNodeJail, Prog.bind_eq, Prog.wp_bind]
  refine wp_handleForward (fun response hs => ?_) fun now addr answer response haddr hs => ?_
  · simp only [hs]
    exact .refl
  · have hstep := Step.drop (w := w) (f := ⟨addr, .delete, .jail name, .empty, id, .direct⟩)
      answer rfl rfl rfl
    refine wp_write_of_success hs ?_ ?_ (.of_answered _ hstep haddr rfl rfl) <;> intros <;> rfl

/-- A node a resolution comes with is at the address it comes with. -/
theorem eq_ok_of_map_pair {r : Except ResolveError String} {nodeId : String} {x : String × String}
    {ε : Type} {f : ResolveError → ε}
    (h : (r.map fun addr => (nodeId, addr)).mapError f = .ok x) : r = .ok x.2 ∧ nodeId = x.1 := by
  cases r with
  | error e => cases h
  | ok addr =>
    cases h
    exact ⟨rfl, rfl⟩

theorem resolveOrSchedule_ok {w : Worker} {now : Instant} {name nodeId addr : String}
    (h : w.resolveOrSchedule now name = .ok (nodeId, addr)) :
    w.registry.resolve nodeId now = .ok addr := by
  simp only [Worker.resolveOrSchedule] at h
  split at h
  · obtain ⟨haddr, hnode⟩ := eq_ok_of_map_pair h
    rwa [hnode] at haddr
  · split at h
    · cases h
    · obtain ⟨haddr, hnode⟩ := eq_ok_of_map_pair h
      rwa [hnode] at haddr

theorem resolvePlacement_ok {w : Worker} {now : Instant} {name nodeId addr : String}
    (h : w.resolvePlacement now name = .ok (nodeId, addr)) :
    w.registry.resolve nodeId now = .ok addr := by
  simp only [Worker.resolvePlacement] at h
  split at h
  · cases h
  · obtain ⟨haddr, hnode⟩ := eq_ok_of_map_pair h
    rwa [hnode] at haddr

theorem handlePutJail_handled (name : String) (body : Except String JailSpec) :
    Handled (.putJail name body) (handlePutJail name body) := by
  intro w
  rw [handlePutJail, Prog.bind_eq, Prog.wp_bind]
  refine wp_rejectIfServiceOwned (fun _ => .refl) fun howner => ?_
  simp only [handleScheduledApply, Prog.bind_eq, Prog.send_bind, wp_command_iff,
    Worker.handleCommand, Command.note, List.append_nil]
  intro now _
  split
  · exact .refl
  · exact .refl
  · rename_i nodeId addr hresolve
    have haddr := resolveOrSchedule_ok hresolve
    simp only [Prog.call_bind, wp_forward_iff]
    intro answer
    have hstep := Step.put (w := w) (f := ⟨addr, .put, .jail name, .yaml body, nodeId, .scheduled⟩)
      answer rfl rfl rfl howner
    have hmove := Move.of_answered (.putJail name body) hstep haddr rfl rfl
    rcases answer with e | ⟨status, text⟩
    · exact .single hmove
    · refine wp_write_of_success rfl ?_ ?_ hmove <;> intros <;> rfl

theorem handleScheduledRead_handled (name : String) :
    Handled (.getJail name) (handleScheduledRead name) := by
  intro w
  simp only [handleScheduledRead, Prog.bind_eq, Prog.send_bind, wp_command_iff,
    Worker.handleCommand, Command.note, List.append_nil]
  intro now _
  split
  · exact .refl
  · rename_i nodeId addr hresolve
    have haddr := resolvePlacement_ok hresolve
    simp only [Prog.call_bind, wp_forward_iff]
    intro answer
    split <;> exact .single (.read haddr _ (by simp) fun _ _ => rfl)

theorem handleScheduledDelete_handled (name : String) :
    Handled (.deleteJail name) (handleScheduledDelete name) := by
  intro w
  simp only [handleScheduledDelete, Prog.bind_eq, Prog.send_bind, wp_command_iff,
    Worker.handleCommand, Command.note, List.append_nil]
  intro now _
  split
  · exact .refl
  · rename_i nodeId addr hresolve
    have haddr := resolvePlacement_ok hresolve
    simp only [Prog.call_bind, wp_forward_iff]
    intro answer
    have hstep := Step.drop (w := w) (f := ⟨addr, .delete, .jail name, .empty, nodeId, .scheduled⟩)
      answer rfl rfl rfl
    have hmove := Move.of_answered (.deleteJail name) hstep haddr rfl rfl
    rcases answer with e | ⟨status, text⟩
    · exact .single hmove
    · refine wp_write_of_success rfl ?_ ?_ hmove <;> intros <;> rfl

/-- A promotion writes every table once the standby says yes, and answers
`200` then and only then. -/
theorem wp_promote {name : String} {prep : ForceRepinPrep} {w : World}
    {Q : Response → World → Prop}
    (h : ∀ answer response, (response.status = 200 ↔ accepted answer = true) →
      Q response (w.answered (prep.forward name) answer (accepted answer) (prep.settle name))) :
    (promote name prep).wp semantics w Q := by
  simp only [promote, Prog.bind_eq, Prog.call_bind, wp_forward_iff]
  intro answer
  rcases answer with e | ⟨status, text⟩
  · exact h (.error e) (failedToReach prep.standbyNodeId prep.standbyAddr e)
      (by simp [failedToReach, errorResponse, accepted])
  · by_cases hs : isSuccess status
    · simp only [hs, if_true, sendRecordPlacement, sendRecordReplicaAddress, sendRecordStandby,
        sendRecordPendingFence, Prog.send_bind, wp_command_iff, Worker.handleCommand, Command.note,
        List.append_nil, forall_const, Prog.pure_eq, Prog.wp_ret]
      have := h (.ok (status, text)) ⟨200, .raw text⟩
        (iff_of_true rfl hs)
      simpa only [World.answered, accepted, hs, if_true, ForceRepinPrep.settle,
        ForceRepinPrep.forward] using this
    · have := h (.ok (status, text)) (errorResponse status text)
        (iff_of_false (by rintro rfl; exact absurd rfl hs) hs)
      simp only [World.answered, accepted, hs] at this
      simp only [hs]
      exact this

theorem ForceRepinError.status_ne (e : ForceRepinError) : e.status ≠ 200 := by
  cases e <;> simp [ForceRepinError.status]

/-- **A force-repin.** The worker prepares it, the standby is asked
whether it is ready, and only then is the replica promoted: a `200` means
the promotion was accepted. -/
theorem wp_handleForceRepin {name : String} {w : World} {Q : Response → World → Prop}
    (hrefused : ∀ w' response, Moves (.forceRepin name) w w' → w'.worker = w.worker → response.status ≠ 200 →
      Q response w')
    (hpromoted : ∀ w' now prep answer response, Moves (.forceRepin name) w w' → w'.worker = w.worker →
      w.worker.prepareForceRepin now name = .ok prep →
      (response.status = 200 ↔ accepted answer = true) →
      Q response (w'.answered (prep.forward name) answer (accepted answer) (prep.settle name))) :
    (handleForceRepin name).wp semantics w Q := by
  simp only [handleForceRepin, Prog.bind_eq, Prog.send_bind, wp_command_iff, Worker.handleCommand,
    Command.note, List.append_nil]
  intro now _
  split
  · rename_i e _
    exact hrefused w _ .refl rfl e.status_ne
  · rename_i prep hprep
    simp only [Prog.call_bind, wp_forward_iff]
    intro answer
    have hread : Moves (.forceRepin name) w ⟨w.worker, w.log ++ [.sent w.worker
        ⟨prep.standbyAddr, .get, .replicaTarget name, .empty, prep.standbyNodeId, .readiness⟩
        answer]⟩ :=
      .single (.read (prepareForceRepin_ok hprep).standby_alive answer (by simp) (by simp))
    rcases answer with e | ⟨status, text⟩
    · exact hrefused _ _ hread rfl (by simp [errorResponse])
    · by_cases hs : isSuccess status
      · simp only [hs, if_true]
        exact wp_promote fun answer response hresponse =>
          hpromoted _ now prep answer response hread rfl hprep hresponse
      · by_cases h4 : (status == 404 || status == 409) = true
        · simp only [hs, h4]
          exact hrefused _ _ hread rfl (by simp [errorResponse])
        · simp only [hs, h4]
          exact hrefused _ _ hread rfl (by simp [errorResponse])

theorem handleForceRepin_handled (name : String) :
    Handled (.forceRepin name) (handleForceRepin name) := by
  intro w
  refine wp_handleForceRepin (fun _ _ h _ _ => h) ?_
  intro w' now prep answer _ hmoves hworker hprep _
  rw [← hworker] at hprep
  have hstep := Step.promote now answer hprep
  exact hmoves.tail (.of_answered _ hstep (prepareForceRepin_ok hprep).standby_alive rfl rfl)

theorem handleApplyService_handled (name : String) (body : Except String ServiceSpec) :
    Handled (.putService name body) (handleApplyService name body) := by
  intro w
  rw [handleApplyService]
  split
  · exact .refl
  · rename_i spec _
    by_cases hname : spec.metadata.name ≠ name
    · rw [if_pos hname]
      exact .refl
    · rw [if_neg hname]
      simp only [Prog.bind_eq, Prog.send_bind, wp_command_iff, Worker.handleCommand,
        Worker.applyService]
      intro _ _
      cases hconflict : w.worker.nameConflict name spec.spec.replicas with
      | some e =>
        simp only [Command.note, List.append_nil]
        exact .refl
      | none =>
        simp only
        rcases happly : w.worker.services.apply name spec.spec.replicas spec.spec.template
          spec.spec.port with ⟨_ | ⟨⟩, services⟩
        · rw [Services.apply_error happly]
          simp only [Command.note, List.append_nil]
          exact .refl
        · simp only [Command.note, Prog.pure_eq]
          rw [Prog.wp_bind]
          refine Prog.wp_mono ?_ (reconcileAndExecute_handled (.putService name body) _)
          intro _ w' hw'
          exact .head (.apply hconflict happly) hw'

/-- **A service deleted**: refused, as there is none of the name, or
answered `200` once a tear-down was sent for every replica on a node that
resolves. -/
theorem wp_handleDeleteService {name : String} {w : World} {Q : Response → World → Prop}
    (hrefused : w.worker.services.get name = none → ∀ e, Q (errorResponse 404 e) w)
    (hdeleted : ∀ now ord record w', w.worker.services.get name = some record →
      Executed ⟨{ w.worker with services := w.worker.services.remove name },
        w.log ++ [.planned now w.worker (w.worker.deleteActions now ord name)]⟩
        (w.worker.deleteActions now ord name) w' → Q ⟨200, .empty⟩ w') :
    (handleDeleteService name).wp semantics w Q := by
  simp only [handleDeleteService, Prog.bind_eq, Prog.send_bind, wp_command_iff,
    Worker.handleCommand, Worker.deleteService]
  intro now ord
  cases hget : w.worker.services.get name with
  | none =>
    simp only [Command.note, List.append_nil]
    exact hrefused hget _
  | some record =>
    simp only [Command.note]
    rw [Prog.wp_bind]
    refine Prog.wp_mono ?_ (wp_executeReplicaActions _ _)
    intro _ w' hw'
    exact hdeleted now ord record w' hget hw'

theorem handleDeleteService_handled (name : String) :
    Handled (.deleteService name) (handleDeleteService name) := by
  intro w
  refine wp_handleDeleteService (fun _ _ => .refl) fun now ord record w' hget hw' => ?_
  exact .single (.delete now ord hget hw')

/-- **Every request is a sequence of its steps.** -/
theorem handler_moves (request : Request) : Handled request request.handler := by
  cases request with
  | register body => exact handleRegister_handled body
  | heartbeat id body => exact handleHeartbeat_handled id body
  | putNodeJail id name body => exact handlePutNodeJail_handled id name body
  | deleteNodeJail id name => exact handleDeleteNodeJail_handled id name
  | putJail name body => exact handlePutJail_handled name body
  | getJail name => exact handleScheduledRead_handled name
  | deleteJail name => exact handleScheduledDelete_handled name
  | putService name body => exact handleApplyService_handled name body
  | deleteService name => exact handleDeleteService_handled name
  | forceRepin name => exact handleForceRepin_handled name
  | getNodeJails id => exact handleForward_handled _ id _ _ _ (by simp)
  | getNodeJail id name => exact handleForward_handled _ id _ _ _ fun _ _ => rfl
  | getNodeVolume id name => exact handleForward_handled _ id _ _ _ (by simp)
  | deleteNodeVolume id name => exact handleForward_handled _ id _ _ _ (by simp)
  | noRoute method path => exact fun _ => .refl
  | listNodes =>
    intro w
    simp only [Request.handler, handleList, Prog.bind_eq, Prog.send_bind, wp_command_iff,
      Worker.handleCommand, Command.note, List.append_nil]
    exact fun _ _ => .refl
  | listServices =>
    intro w
    simp only [Request.handler, handleListServices, Prog.bind_eq, Prog.send_bind, wp_command_iff,
      Worker.handleCommand, Command.note, List.append_nil]
    exact fun _ _ => .refl
  | getService name =>
    intro w
    simp only [Request.handler, handleGetService, Prog.bind_eq, Prog.send_bind, wp_command_iff,
      Worker.handleCommand, Command.note, List.append_nil]
    intro _ _
    split <;> exact .refl

/-! ## Steps that leave the registry alone -/

/-- **A step of a request past its call on the registry.** -/
structure Quiet (w w' : World) : Prop where
  step : Step w w'
  registry : w'.worker.registry = w.worker.registry
  routed : ∀ e ∈ w'.log, e ∈ w.log ∨ e.Routed

abbrev Quiets := Relation.ReflTransGen Quiet

theorem Moves.quiet {request : Request} {w w' : World} (h : Moves request w w')
    (hcall : ∀ now, request.registryCall now = none) : Quiets w w' := by
  induction h with
  | refl => exact .refl
  | tail _ hmove ih =>
    refine ih.tail ⟨hmove.step, ?_, hmove.routed⟩
    rcases hmove.registry with hsame | ⟨now, call, hsome, -⟩
    · exact hsame
    · rw [hcall now] at hsome
      cases hsome

/-- They route what they send. -/
theorem Quiets.routed {w w' : World} (h : Quiets w w') (hw : ∀ e ∈ w.log, e.Routed) :
    ∀ e ∈ w'.log, e.Routed := by
  induction h with
  | refl => exact hw
  | tail _ hquiet ih => exact fun e he => (hquiet.routed e he).elim (ih e) id

/-- **A request calls the registry first, or not at all.** -/
theorem registryCall_cases (request : Request) :
    (∀ now, request.registryCall now = none) ∨
      ∃ (ρ : Type) (c : Command ρ) (k : ρ → Handler Response), request.handler = .command c k ∧
        (∀ now ord w, ∃ call, request.registryCall now = some call ∧
          (Worker.handleCommand now ord c w).2 = { w with registry := w.registry.call call }) ∧
        (∀ now w reply, c.note now w reply = []) ∧
        ∀ q reply, Handled q (k reply) := by
  cases request with
  | register body =>
    rcases body with e | r
    · exact Or.inl fun _ => rfl
    refine Or.inr ⟨_, .register r.id r.addr r.replicateAddr r.capacityCpu r.capacityMemory, _, rfl,
      fun _ _ _ => ⟨_, rfl, rfl⟩, fun _ _ _ => rfl, fun q reply => ?_⟩
    rcases reply with e | podCidr <;> exact fun _ => .refl
  | heartbeat id body =>
    rcases body with e | h
    · exact Or.inl fun _ => rfl
    refine Or.inr ⟨_, .heartbeat id h.committedCpu h.committedMemory h.jails, _, rfl,
      fun _ _ _ => ⟨_, rfl, rfl⟩, fun _ _ _ => rfl, fun q reply => ?_⟩
    rcases reply with e | ⟨⟩
    · exact fun _ => .refl
    · exact afterHeartbeat_handled q id
  | _ => exact Or.inl fun _ => rfl

/-! ## Runs -/

theorem serve_moves (request : Request) (o : ℕ → Choice) (w : Worker) :
    Moves request ⟨w, []⟩ ⟨(serve request o w).after, (serve request o w).log⟩ :=
  Prog.wp_run (handler_moves request ⟨w, []⟩)

theorem serve_steps (request : Request) (o : ℕ → Choice) (w : Worker) :
    Steps ⟨w, []⟩ ⟨(serve request o w).after, (serve request o w).log⟩ :=
  (serve_moves request o w).steps

/-- **A service deleted**: there is none of the name, and nothing happens;
or it is taken off, and a tear-down is sent for every replica on a node
that resolves. -/
theorem serve_deleteService (s : String) (o : ℕ → Choice) (w : Worker) :
    w.services.get s = none ∧ (serve (.deleteService s) o w).response.status = 404 ∧
        (serve (.deleteService s) o w).after = w ∧ (serve (.deleteService s) o w).log = [] ∨
      ∃ record, w.services.get s = some record ∧
        (serve (.deleteService s) o w).response.status = 200 ∧
        Executed ⟨{ w with services := w.services.remove s },
            [.planned (o 0).now w (w.deleteActions (o 0).now (o 0).order s)]⟩
          (w.deleteActions (o 0).now (o 0).order s)
          ⟨(serve (.deleteService s) o w).after, (serve (.deleteService s) o w).log⟩ := by
  have hrun : serve (.deleteService s) o w =
      ⟨.deleteService s, w, ((Request.deleteService s).handler.run semantics o 0 ⟨w, []⟩).1,
        ((Request.deleteService s).handler.run semantics o 0 ⟨w, []⟩).2.log,
        ((Request.deleteService s).handler.run semantics o 0 ⟨w, []⟩).2.worker⟩ := rfl
  simp only [Request.handler, handleDeleteService, Prog.bind_eq, Prog.send_bind, Prog.run,
    semantics, World.command, Worker.handleCommand, Worker.deleteService] at hrun
  cases hget : w.services.get s with
  | none =>
    simp only [hget] at hrun
    rw [hrun]
    exact Or.inl ⟨rfl, rfl, rfl, rfl⟩
  | some record =>
    simp only [hget] at hrun
    -- The rest of the handler executes the plan, whatever is answered.
    have hwp : ((executeReplicaActions (w.deleteActions (o 0).now (o 0).order s)).bind fun _ =>
        Prog.ret (⟨200, .empty⟩ : Response)).wp semantics
        ⟨{ w with services := w.services.remove s },
          [.planned (o 0).now w (w.deleteActions (o 0).now (o 0).order s)]⟩
        fun response w' => response.status = 200 ∧
          Executed ⟨{ w with services := w.services.remove s },
            [.planned (o 0).now w (w.deleteActions (o 0).now (o 0).order s)]⟩
            (w.deleteActions (o 0).now (o 0).order s) w' := by
      rw [Prog.wp_bind]
      exact Prog.wp_mono (fun _ _ h => ⟨rfl, h⟩) (wp_executeReplicaActions _ _)
    have hexec := Prog.wp_run (o := o) (i := 1) hwp
    rw [hrun]
    exact Or.inr ⟨record, rfl, hexec.1, hexec.2⟩

/-- Everything a run's requests did. -/
def events (w : Worker) (script : Script) : List Event :=
  (history w script).flatMap Served.log

/-- **Every run is a sequence of steps.** -/
theorem run_steps (w : Worker) (script : Script) (l : List Event) :
    Steps ⟨w, l⟩ ⟨final w script, l ++ events w script⟩ := by
  induction script generalizing w l with
  | nil => simpa [final, events, history] using Relation.ReflTransGen.refl
  | cons step rest ih =>
    obtain ⟨request, o⟩ := step
    have hserve := (serve_steps request o w).behind l
    have hrest := ih (serve request o w).after (l ++ (serve request o w).log)
    simp only [World.behind, List.append_nil] at hserve
    simp only [events, history, List.flatMap_cons, final] at hrest ⊢
    rw [← List.append_assoc]
    exact hserve.trans hrest

end ControlPlane

end Keel
