import Keel.ControlPlane.Subnets
import Keel.Agent.Routes
import Keel.Cluster.Fleet
/-!
# What a fleet's control plane knows, and what a step does to a node

Every node in the registry is one of the fleet's, at its own address and
on the block its id hashes to (`Registry.Truthful`): a lawful command, one
that registers no node but a node of the fleet, keeps that.

A step of the fleet is, to the control plane and one node of it, one of a
few things (`Fleet.Moves`). What each of them keeps, every run keeps
(`Fleet.run_keeps`).
-/

namespace Keel

open ControlPlane
open Agent (Errand Call Circumstance RegistrationLoop registerOnce heartbeatOnce)

namespace ControlPlane

/-! ## Commands and the registry -/

/-- A command of the handler of another request leaves the nodes as they
are, or takes a heartbeat. -/
theorem registry_of_not_register {ρ : Type} {c : Command ρ} (hc : Fleet.isRegister c = false)
    (now : Instant) (ord : IterOrder) (w : Worker) :
    (Worker.handleCommand now ord c w).2.registry = w.registry ∨
      ∃ id cpu memory jails, (Worker.handleCommand now ord c w).2.registry =
        (w.registry.heartbeat id cpu memory jails now).2 := by
  cases c with
  | register => cases hc
  | heartbeat id cpu memory jails => exact Or.inr ⟨id, cpu, memory, jails, rfl⟩
  | applyService name replicas template port =>
    refine Or.inl ?_
    show (w.applyService name replicas template port).2.registry = w.registry
    unfold Worker.applyService
    split <;> rfl
  | deleteService name =>
    refine Or.inl ?_
    show (w.deleteService now ord name).2.registry = w.registry
    unfold Worker.deleteService
    split <;> rfl
  | _ => exact Or.inl rfl

namespace Registry

variable {N : Type} (nodes : N → NodeRegistration) (cidr : Ipv4Net)

/-- **Every node known is a node of the fleet**, at its address, on its
block. -/
structure Truthful (r : Registry) : Prop where
  blocks : r.Blocks cidr
  known : ∀ id record, r.nodes.lookup id = some record →
    ∃ n, (nodes n).id = id ∧ (nodes n).addr = record.addr

variable {nodes cidr} {r : Registry}

theorem Truthful.new : (Registry.new cidr).Truthful nodes cidr :=
  ⟨.new cidr, fun id record hrecord => by cases hrecord⟩

/-- A heartbeat is kept with the address and the network that were
there. -/
theorem lookup_heartbeat {id : String} {cpu : ℚ} {memory : ℕ} {jails : List JailHealth}
    {now : Instant} {k : String} {record : NodeRecord}
    (h : (r.heartbeat id cpu memory jails now).2.nodes.lookup k = some record) :
    ∃ before, r.nodes.lookup k = some before ∧ before.addr = record.addr := by
  simp only [heartbeat] at h
  split at h
  · rename_i before hbefore
    rw [Table.lookup_insert_eq] at h
    split at h
    · rename_i hk
      cases h
      exact ⟨before, hk ▸ hbefore, rfl⟩
    · exact ⟨record, h, rfl⟩
  · exact ⟨record, h, rfl⟩

theorem Truthful.heartbeat (h : r.Truthful nodes cidr) (id : String) (cpu : ℚ) (memory : ℕ)
    (jails : List JailHealth) (now : Instant) :
    (r.heartbeat id cpu memory jails now).2.Truthful nodes cidr := by
  refine ⟨h.blocks.call (.heartbeat id cpu memory jails now), fun k record hrecord => ?_⟩
  obtain ⟨before, hbefore, haddr⟩ := lookup_heartbeat hrecord
  obtain ⟨n, hid, hn⟩ := h.known k before hbefore
  exact ⟨n, hid, hn.trans haddr⟩

/-- A node of the fleet registers. -/
theorem Truthful.register (h : r.Truthful nodes cidr) (n : N) (now : Instant) :
    (r.register (nodes n).id (nodes n).addr (nodes n).replicateAddr (nodes n).capacityCpu
      (nodes n).capacityMemory now).2.Truthful nodes cidr := by
  refine ⟨h.blocks.call (.register _ _ _ _ _ now), fun k record hrecord => ?_⟩
  simp only [Registry.register] at hrecord
  split at hrecord
  · exact h.known k record hrecord
  · rw [Table.lookup_insert_eq] at hrecord
    split at hrecord
    · rename_i hk
      cases hrecord
      exact ⟨n, hk.symm, rfl⟩
    · exact h.known k record hrecord

/-- A node that is known stays known, and keeps its network. -/
theorem podCidr_register {id addr : String} {replicateAddr : Option String} {cpu : ℚ}
    {memory : ℕ} {now : Instant} {k : String} {podCidr : Ipv4Net} (h : r.Blocks cidr)
    (hk : r.podCidr k = some podCidr) :
    (r.register id addr replicateAddr cpu memory now).2.podCidr k = some podCidr := by
  rcases r.register_cases id addr replicateAddr cpu memory now with
    ⟨e, heq, -, -⟩ | ⟨record, hpod, -, heq⟩
  · rw [heq]
    exact hk
  · rw [heq, podCidr_insert]
    split
    · rename_i hid
      rw [hpod, h.derived k podCidr hk, h.cidr_eq, hid]
    · exact hk

end Registry

/-! ## Handlers -/

section Lawful

variable {N : Type} (nodes : N → NodeRegistration)

/-- A command that registers no node but one of the fleet. -/
def Command.Lawful : {ρ : Type} → Command ρ → Prop
  | _, .register id addr replicateAddr capacityCpu capacityMemory =>
    ∃ n, nodes n = ⟨id, addr, replicateAddr, capacityCpu, capacityMemory⟩
  | _, _ => True

/-- A handler that sends lawful commands. -/
abbrev Handler.Lawful {α : Type} (h : Handler α) : Prop :=
  h.Sends (Command.Lawful nodes) fun _ _ => True

variable {nodes}

theorem Command.lawful_of_not_register {ρ : Type} {c : Command ρ}
    (hc : Fleet.isRegister c = false) : c.Lawful nodes := by
  cases c with
  | register => cases hc
  | _ => trivial

theorem Command.lawful_register (n : N) : (Fleet.register (nodes n)).Lawful nodes := ⟨n, rfl⟩

theorem executeReplicaActions_lawful (actions : List ReplicaAction) :
    Handler.Lawful nodes (executeReplicaActions actions) := by
  refine Prog.sends_forEach fun a _ => ?_
  cases a with
  | schedule name nodeId nodeAddr template address prefixLen standbyNodeId standbyAddr =>
    simp only [executeReplicaAction, Prog.bind_eq, Prog.call_bind, Prog.sends_forward]
    intro answer
    rcases answer with e | ⟨status, text⟩
    · exact Prog.sends_ret
    · simp only
      split
      · refine ⟨trivial, fun _ _ => ⟨trivial, fun _ _ => ?_⟩⟩
        cases standbyNodeId with
        | none => exact Prog.sends_ret
        | some standbyId => exact Prog.sends_send.2 trivial
      · exact Prog.sends_ret
  | tearDown name nodeId nodeAddr =>
    simp only [executeReplicaAction, Prog.bind_eq, Prog.call_bind, Prog.sends_forward]
    intro answer
    rcases answer with e | ⟨status, text⟩
    · exact Prog.sends_ret
    · simp only
      split
      · exact ⟨trivial, fun _ _ => Prog.sends_send.2 trivial⟩
      · exact Prog.sends_ret

theorem checkAndExecuteFencing_lawful (nodeId : String) :
    Handler.Lawful nodes (checkAndExecuteFencing nodeId) := by
  refine ⟨trivial, fun replicaNames _ => ?_⟩
  simp only [Prog.ret_bind]
  split
  · exact Prog.sends_ret
  refine ⟨trivial, fun addr _ => ?_⟩
  rcases addr with e | addr
  · exact Prog.sends_ret
  refine Prog.sends_forEach fun r _ => ?_
  simp only [executeFence, Prog.bind_eq, Prog.call_bind, Prog.sends_forward]
  intro answer
  rcases answer with e | ⟨status, text⟩
  · exact Prog.sends_ret
  simp only
  split
  · exact Prog.sends_send.2 trivial
  · exact Prog.sends_ret

theorem handleHeartbeat_lawful (id : String) (body : Except String Heartbeat) :
    Handler.Lawful nodes (handleHeartbeat id body) := by
  rcases body with e | h
  · exact Prog.sends_ret
  refine ⟨trivial, fun reply _ => ?_⟩
  rcases reply with e | ⟨⟩
  · exact Prog.sends_ret
  simp only [Prog.ret_bind]
  refine Prog.sends_bind ⟨trivial, fun actions _ => executeReplicaActions_lawful actions⟩
    fun _ => ?_
  refine Prog.sends_bind (checkAndExecuteFencing_lawful id) fun _ => ?_
  exact ⟨trivial, fun _ _ => Prog.sends_ret⟩

theorem handleRegister_lawful (n : N) : Handler.Lawful nodes (handleRegister (.ok (nodes n))) := by
  refine ⟨⟨n, rfl⟩, fun reply _ => ?_⟩
  rcases reply with e | podCidr <;> exact Prog.sends_ret

theorem handleList_lawful : Handler.Lawful nodes handleList :=
  ⟨trivial, fun _ _ => Prog.sends_ret⟩

variable {cidr : Ipv4Net} {w : Worker} {ρ : Type} {c : Command ρ}

/-- **A lawful command** keeps the registry truthful. -/
theorem Registry.Truthful.command (h : w.registry.Truthful nodes cidr) (hc : c.Lawful nodes)
    (now : Instant) (ord : IterOrder) :
    (Worker.handleCommand now ord c w).2.registry.Truthful nodes cidr := by
  cases hregister : Fleet.isRegister c with
  | true =>
    cases c with
    | register id addr replicateAddr capacityCpu capacityMemory =>
      obtain ⟨n, hn⟩ := hc
      have hregistered := h.register n now
      rw [hn] at hregistered
      exact hregistered
    | _ => cases hregister
  | false =>
    rcases registry_of_not_register hregister now ord w with heq | ⟨id, cpu, memory, jails, heq⟩
    · rw [heq]
      exact h
    · rw [heq]
      exact h.heartbeat id cpu memory jails now

/-- And forgets no node. -/
theorem Registry.Truthful.podCidr_command (h : w.registry.Truthful nodes cidr) (now : Instant)
    (ord : IterOrder) {k : String} {podCidr : Ipv4Net} (hk : w.registry.podCidr k = some podCidr) :
    (Worker.handleCommand now ord c w).2.registry.podCidr k = some podCidr := by
  cases hregister : Fleet.isRegister c with
  | true =>
    cases c with
    | register id addr replicateAddr capacityCpu capacityMemory =>
      exact Registry.podCidr_register h.blocks hk
    | _ => cases hregister
  | false =>
    rcases registry_of_not_register hregister now ord w with heq | ⟨id, cpu, memory, jails, heq⟩
    · rw [heq]
      exact hk
    · rw [heq, Registry.podCidr_heartbeat]
      exact hk

end Lawful

end ControlPlane

namespace Fleet

variable {N A : Type} [DecidableEq N] [Ipnet] {parse : String → Option A}
  {nodes : N → NodeRegistration} {cidr : Ipv4Net} {f : Fleet N A}

/-! ## What a step does to a node -/

/-- A step of the fleet, as the control plane and one node have it. -/
inductive Moves (parse : String → Option A) (nodes : N → NodeRegistration) (n : N) :
    Label N → Worker → RegistrationLoop A → Worker → RegistrationLoop A → Prop
  | still {label w l} : Moves parse nodes n label w l w l
  /-- Another request is served. -/
  | aside {label w l} (now : Instant) (ord : IterOrder) {ρ : Type} {c : Command ρ}
      (hc : c.Lawful nodes) : Moves parse nodes n label w l (Worker.handleCommand now ord c w).2 l
  | begun {w l report} (h : l.call = none) :
      Moves parse nodes n (.begin n report) w l w (l.begin (nodes n) report)
  | served {w l o errand} {ρ : Type} {c : Command ρ} {k : ρ → Handler Response}
      (h : l.call = some ⟨errand, some (.command c k)⟩) (hc : c.Lawful nodes) :
      Moves parse nodes n (.serve n o) w l (Worker.handleCommand o.now o.order c w).2
        { l with call := some ⟨errand, some (k (Worker.handleCommand o.now o.order c w).1)⟩ }
  | forwarded {w l o errand x} {k : ForwardResult → Handler Response}
      (h : l.call = some ⟨errand, some (.forward x k)⟩) :
      Moves parse nodes n (.serve n o) w l w { l with call := some ⟨errand, some (k o.answer)⟩ }
  | heard {w l x errand response} (h : l.call = some ⟨errand, some (.ret response)⟩) :
      Moves parse nodes n (.hear n true x) w l w
        (l.conclude parse (nodes n) x errand (some response))
  | gaveUp {w l x errand handler} (h : l.call = some ⟨errand, handler⟩) :
      Moves parse nodes n (.hear n false x) w l w (l.conclude parse (nodes n) x errand none)
  | restarted {w l} : Moves parse nodes n .restart w l
      (.spawn w.registry.clusterCidr w.services.serviceCidr)
      { l with call := l.call.map fun call => { call with handler := none } }
  | rebooted {w l} : Moves parse nodes n (.reboot n) w l w .start
  | respawned {w l} : Moves parse nodes n (.respawn n) w l w l.respawn

/-- Every request a loop waits on sends lawful commands. -/
def Lawful (nodes : N → NodeRegistration) (f : Fleet N A) : Prop :=
  ∀ n errand handler, (f.loops n).call = some ⟨errand, some handler⟩ → Handler.Lawful nodes handler

omit [Ipnet] in
theorem loops_setLoop (n m : N) (l : RegistrationLoop A) :
    (f.setLoop n l).loops m = if m = n then l else f.loops m := Function.update_apply ..

/-- A step that is only to one loop. -/
theorem moves_setLoop {label : Label N} {m : N} {l : RegistrationLoop A} (n : N)
    (hself : Moves parse nodes m label f.worker (f.loops m) f.worker l) :
    Moves parse nodes n label f.worker (f.loops n) f.worker ((f.setLoop m l).loops n) := by
  rw [loops_setLoop]
  split
  · rename_i hn
    rw [hn]
    exact hself
  · exact .still

theorem serve_moves (h : f.Lawful nodes) (m : N) (o : Choice) (n : N) :
    Moves parse nodes n (.serve m o) f.worker (f.loops n) (f.serve m o).worker
      ((f.serve m o).loops n) := by
  unfold serve
  split
  · rename_i errand ρ c k hcall
    have hc : c.Lawful nodes := (h m errand _ hcall).1
    show Moves parse nodes n _ _ _ (Worker.handleCommand o.now o.order c f.worker).2
      (Function.update f.loops m _ n)
    rw [Function.update_apply]
    split
    · rename_i hn
      rw [hn]
      exact .served hcall hc
    · exact .aside o.now o.order hc
  · rename_i errand x k hcall
    exact moves_setLoop n (.forwarded hcall)
  · exact .still

theorem hear_moves (m : N) (gets : Bool) (x : Circumstance) (n : N) :
    Moves parse nodes n (.hear m gets x) f.worker (f.loops n)
      (f.hear parse nodes m gets x).worker ((f.hear parse nodes m gets x).loops n) := by
  unfold hear
  split
  · rename_i errand handler hcall
    split
    · exact moves_setLoop n (.heard hcall)
    · exact .still
    · exact moves_setLoop n (.gaveUp hcall)
  · exact .still

/-- **What a step is to a node.** -/
theorem step_moves (h : f.Lawful nodes) (label : Label N) (n : N) :
    Moves parse nodes n label f.worker (f.loops n) (f.step parse nodes label).worker
      ((f.step parse nodes label).loops n) := by
  cases label with
  | begin m report =>
    simp only [step]
    split
    · rename_i hcall
      exact moves_setLoop n (.begun hcall)
    · exact .still
  | serve m o => exact serve_moves h m o n
  | hear m gets x => exact hear_moves m gets x n
  | stray k o =>
    simp only [step, stray]
    split
    · rename_i m _
      exact .aside o.now o.order (Command.lawful_register m)
    · exact .still
  | command o c =>
    simp only [step]
    split
    · exact .still
    · rename_i hc
      rw [Bool.not_eq_true] at hc
      exact .aside o.now o.order (Command.lawful_of_not_register hc)
  | restart => exact .restarted
  | reboot m => exact moves_setLoop n .rebooted
  | respawn m => exact moves_setLoop n .respawned

omit [DecidableEq N] in
/-- What a loop waits on after a move. -/
theorem Moves.lawful {n : N} {label : Label N} {w w' : Worker} {l l' : RegistrationLoop A}
    (hmove : Moves parse nodes n label w l w' l')
    (h : ∀ errand handler, l.call = some ⟨errand, some handler⟩ → Handler.Lawful nodes handler)
    (errand : Errand) (handler : Handler Response) (hcall : l'.call = some ⟨errand, some handler⟩) :
    Handler.Lawful nodes handler := by
  have hfetch : ∀ {l : RegistrationLoop A}, l.fetch.call = some ⟨errand, some handler⟩ →
      Handler.Lawful nodes handler := by
    intro l hl
    cases hl
    exact handleList_lawful
  have hconclude : ∀ {x errand' response},
      (l.conclude parse (nodes n) x errand' response).call = some ⟨errand, some handler⟩ →
      Handler.Lawful nodes handler := by
    intro x errand' response hl
    cases errand' with
    | register =>
      simp only [RegistrationLoop.conclude] at hl
      split at hl <;> exact hfetch hl
    | heartbeat =>
      simp only [RegistrationLoop.conclude] at hl
      split at hl <;> exact hfetch hl
    | nodes =>
      simp only [RegistrationLoop.conclude] at hl
      split at hl <;> cases hl
  cases hmove with
  | still => exact h errand handler hcall
  | aside => exact h errand handler hcall
  | begun hnone =>
    rename_i report
    unfold RegistrationLoop.begin at hcall
    split at hcall
    · split at hcall
      · cases hcall
        exact handleHeartbeat_lawful _ _
      · exact hfetch hcall
    · cases hcall
      exact handleRegister_lawful n
  | served hl _ =>
    cases hcall
    exact (h _ _ hl).2 _ trivial
  | forwarded hl =>
    cases hcall
    exact (h _ _ hl) _
  | heard hl => exact hconclude hcall
  | gaveUp hl => exact hconclude hcall
  | restarted =>
    cases hl : l.call with
    | none =>
      rw [hl] at hcall
      cases hcall
    | some call =>
      rw [hl] at hcall
      cases hcall
  | rebooted => cases hcall
  | respawned => cases hcall

theorem Lawful.step (h : f.Lawful nodes) (label : Label N) :
    (f.step parse nodes label).Lawful nodes :=
  fun n errand handler => (step_moves h label n).lawful (h n) errand handler

/-- The state of a fleet that every run keeps. -/
structure InOrder (nodes : N → NodeRegistration) (cidr : Ipv4Net) (f : Fleet N A) : Prop where
  lawful : f.Lawful nodes
  registry : f.worker.registry.Truthful nodes cidr

omit [DecidableEq N] in
theorem Moves.truthful {n : N} {label : Label N} {w w' : Worker} {l l' : RegistrationLoop A}
    (hmove : Moves parse nodes n label w l w' l') (h : w.registry.Truthful nodes cidr) :
    w'.registry.Truthful nodes cidr := by
  cases hmove with
  | still => exact h
  | aside now ord hc => exact h.command hc now ord
  | begun => exact h
  | served _ hc => exact h.command hc _ _
  | forwarded => exact h
  | heard => exact h
  | gaveUp => exact h
  | restarted =>
    rw [h.blocks.cidr_eq]
    exact .new
  | rebooted => exact h
  | respawned => exact h

/-- **The rule for runs.** What every move of a node keeps, every run
keeps. -/
theorem run_keeps (n : N) {P : Label N → Prop} {I : Worker → RegistrationLoop A → Prop}
    (hmoves : ∀ {label w l w' l'}, P label → w.registry.Truthful nodes cidr →
      Moves parse nodes n label w l w' l' → I w l → I w' l')
    {labels : List (Label N)} : ∀ {f : Fleet N A}, (∀ label ∈ labels, P label) →
    f.InOrder nodes cidr → I f.worker (f.loops n) →
    (f.run parse nodes labels).InOrder nodes cidr ∧
      I (f.run parse nodes labels).worker ((f.run parse nodes labels).loops n) := by
  induction labels with
  | nil => exact fun _ h hI => ⟨h, hI⟩
  | cons label labels ih =>
    intro f hP h hI
    have hmove : Moves parse nodes n label _ _ _ _ := step_moves h.lawful label n
    refine ih (fun label' hlabel' => hP label' (List.mem_cons_of_mem _ hlabel')) ?_ ?_
    · exact ⟨h.lawful.step label, hmove.truthful h.registry⟩
    · exact hmoves (hP label List.mem_cons_self) h.registry hmove hI

omit [DecidableEq N] [Ipnet] in
theorem InOrder.start (serviceCidr : Ipv4Net) :
    (Fleet.start cidr serviceCidr : Fleet N A).InOrder nodes cidr :=
  ⟨fun _ _ _ hcall => (nomatch hcall), .new⟩

variable (parse) in
theorem inOrder_start (n : N) (serviceCidr : Ipv4Net) (labels : List (Label N)) :
    ((Fleet.start cidr serviceCidr : Fleet N A).run parse nodes labels).InOrder nodes cidr :=
  (run_keeps n (P := fun _ => True) (I := fun _ _ => True) (fun _ _ _ _ => trivial)
    (fun _ _ => trivial) (.start serviceCidr) trivial).1

end Fleet

end Keel
