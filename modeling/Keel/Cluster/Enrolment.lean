import Keel.Cluster.Distinct
import Keel.Cluster.Helpers.Fleet
/-!
# Enrolment

A node's pod network is what the control plane answered its last
registration that was answered. The control plane has the node down for
it, until it is restarted; the node goes on with it, until it is told
otherwise.
-/

namespace Keel

open ControlPlane
open Agent (Errand Call Circumstance RegistrationLoop registerOnce heartbeatOnce)

namespace Fleet

variable {N A : Type} [DecidableEq N] [Ipnet] {parse : String → Option A}
  {nodes : N → NodeRegistration} {cidr : Ipv4Net} {f : Fleet N A}

/-! ## What a loop waits for -/

/-- What a registration is answered. -/
def registerAnswer : Except PodCidrCollision Ipv4Net → Response
  | .ok podCidr => ⟨200, .registered podCidr.display⟩
  | .error e => errorResponse 409 e.display

omit [Ipnet] in
theorem handleRegister_eq (me : NodeRegistration) :
    handleRegister (.ok me) =
      .command (register me) fun result => .ret (registerAnswer result) := by
  refine congrArg (Prog.command (register me)) (funext fun result => ?_)
  cases result <;> rfl

/-- A network is read back as it was written. -/
theorem registerOnce_registerAnswer
    (hparse : ∀ c : Ipv4Net, Ipnet.parse c.display = .ok (.v4 c.addr c.prefixLen))
    (podCidr : Ipv4Net) : registerOnce (registerAnswer (.ok podCidr)) = some podCidr := by
  have hread : parseIpv4Net podCidr.display = .ok podCidr := by
    rw [parseIpv4Net, hparse]
    simp only [podCidr.prefixLen_le, dif_pos]
  show (parseIpv4Net podCidr.display).toOption = some podCidr
  rw [hread]
  rfl

/-- The node is down for the network it was granted; or another node is
for the one it asks for. -/
def Answered (me : NodeRegistration) (w : Worker) : Except PodCidrCollision Ipv4Net → Prop
  | .ok podCidr => w.registry.podCidr me.id = some podCidr
  | .error e => e.conflictingNodeId ≠ me.id ∧
    w.registry.podCidr e.conflictingNodeId = some (derivePodCidr me.id w.registry.clusterCidr)

/-- How far the control plane is with a heartbeat: it has not come to it,
it does not know the node, or it does. -/
def Beats (me : NodeRegistration) (w : Worker) (handler : Handler Response) : Prop :=
  (∃ heartbeat, handler = handleHeartbeat me.id (.ok heartbeat)) ∨
    (∃ e, handler = .ret (errorResponse 404 e)) ∨
    (handler.Answers fun response => ∃ entries, heartbeatOnce response = some entries) ∧
      ∃ podCidr, w.registry.podCidr me.id = some podCidr

/-- What a loop waits for is what it asked, as far as the control plane is
with it. -/
structure Waits (me : NodeRegistration) (w : Worker) (l : RegistrationLoop A) : Prop where
  register : ∀ handler, l.call = some ⟨.register, some handler⟩ →
    handler = handleRegister (.ok me) ∨
      ∃ result, handler = .ret (registerAnswer result) ∧ Answered me w result
  heartbeat : ∀ handler, l.call = some ⟨.heartbeat, some handler⟩ → Beats me w handler
  registered : l.registered = true → ∃ podCidr, l.podCidr = some podCidr

variable {me : NodeRegistration}

omit [DecidableEq N] [Ipnet] in
/-- A lawful command takes back no answer. -/
theorem Answered.command {w : Worker} {result : Except PodCidrCollision Ipv4Net}
    (h : Answered me w result) (hw : w.registry.Truthful nodes cidr) {ρ : Type} {c : Command ρ}
    (hc : c.Lawful nodes) (now : Instant) (ord : IterOrder) :
    Answered me (Worker.handleCommand now ord c w).2 result := by
  cases result with
  | ok podCidr => exact hw.podCidr_command now ord h
  | error e =>
    refine ⟨h.1, ?_⟩
    rw [(hw.command hc now ord).blocks.cidr_eq, ← hw.blocks.cidr_eq]
    exact hw.podCidr_command now ord h.2

omit [DecidableEq N] [Ipnet] in
theorem Beats.command {w : Worker} {handler : Handler Response} (h : Beats me w handler)
    (hw : w.registry.Truthful nodes cidr) {ρ : Type} {c : Command ρ} (now : Instant)
    (ord : IterOrder) : Beats me (Worker.handleCommand now ord c w).2 handler := by
  rcases h with h | h | ⟨hanswers, podCidr, hpod⟩
  · exact Or.inl h
  · exact Or.inr (Or.inl h)
  · exact Or.inr (Or.inr ⟨hanswers, podCidr, hw.podCidr_command now ord hpod⟩)

omit [DecidableEq N] [Ipnet] in
/-- Another request is served: what a loop waits for it waits for still. -/
theorem Waits.command {w : Worker} {l : RegistrationLoop A} (h : Waits me w l)
    (hw : w.registry.Truthful nodes cidr) {ρ : Type} {c : Command ρ} (hc : c.Lawful nodes)
    (now : Instant) (ord : IterOrder) : Waits me (Worker.handleCommand now ord c w).2 l := by
  refine ⟨fun handler hcall => ?_, fun handler hcall => ?_, h.registered⟩
  · rcases h.register handler hcall with hh | ⟨result, hh, hanswered⟩
    · exact Or.inl hh
    · exact Or.inr ⟨result, hh, hanswered.command hw hc now ord⟩
  · exact (h.heartbeat handler hcall).command hw now ord

omit [DecidableEq N] [Ipnet] in
/-- What the control plane has of a node when it has answered its
registration. -/
theorem answered_register {w : Worker} (now : Instant) (ord : IterOrder) :
    Answered me (Worker.handleCommand now ord (register me) w).2
      (Worker.handleCommand now ord (register me) w).1 := by
  show Answered me { w with registry := (w.registry.register me.id me.addr me.replicateAddr
      me.capacityCpu me.capacityMemory now).2 } (w.registry.register me.id me.addr
      me.replicateAddr me.capacityCpu me.capacityMemory now).1
  rcases w.registry.register_cases me.id me.addr me.replicateAddr me.capacityCpu
    me.capacityMemory now with ⟨e, heq, hne, hpod⟩ | ⟨record, hpod, -, heq⟩
  · rw [heq]
    exact ⟨hne, hpod⟩
  · rw [heq]
    show Registry.podCidr _ me.id = _
    rw [Registry.podCidr_insert, if_pos rfl, hpod]

omit [DecidableEq N] [Ipnet] in
/-- The first command of a heartbeat: the node is not known; or it is, and
the heartbeat will be answered the service table. -/
theorem command_heartbeat {w : Worker} {heartbeat : Heartbeat} {ρ : Type} {c : Command ρ}
    {k : ρ → Handler Response} (h : Prog.command c k = handleHeartbeat me.id (.ok heartbeat))
    (now : Instant) (ord : IterOrder) :
    w.registry.podCidr me.id = none ∧
      (∃ e, k (Worker.handleCommand now ord c w).1 = .ret (errorResponse 404 e)) ∨
    ((k (Worker.handleCommand now ord c w).1).Answers fun response =>
        ∃ entries, heartbeatOnce response = some entries) ∧
      ∃ podCidr, w.registry.podCidr me.id = some podCidr := by
  cases h
  cases hknown : w.registry.nodes.lookup me.id with
  | none =>
    refine Or.inl ⟨by rw [Registry.podCidr, hknown, Option.map_none],
      (UnknownNode.mk me.id).display, ?_⟩
    simp only [Worker.handleCommand, Registry.heartbeat, hknown, Prog.ret_bind, Prog.pure_eq]
  | some record =>
    refine Or.inr ⟨?_, record.podCidr, by rw [Registry.podCidr, hknown, Option.map_some]⟩
    simp only [Worker.handleCommand, Registry.heartbeat, hknown, Prog.ret_bind]
    refine Prog.answers_bind fun _ => Prog.answers_bind fun _ entries => ?_
    exact ⟨entries, rfl⟩

/-! ## What a loop makes of it -/

omit [DecidableEq N] [Ipnet] in
theorem begin_unregistered {l : RegistrationLoop A} (h : l.registered = false)
    (report : Option Heartbeat) : l.begin me report =
      { l with call := some ⟨.register, some (handleRegister (.ok me))⟩ } := by
  simp only [RegistrationLoop.begin, h, Bool.false_eq_true, if_false]

omit [DecidableEq N] [Ipnet] in
theorem begin_registered {l : RegistrationLoop A} (h : l.registered = true)
    (heartbeat : Heartbeat) : l.begin me (some heartbeat) =
      { l with call := some ⟨.heartbeat, some (handleHeartbeat me.id (.ok heartbeat))⟩ } := by
  rw [RegistrationLoop.begin, if_pos h]

omit [DecidableEq N] in
/-- Back from a request, a loop asks for the peer list next, or sleeps. -/
theorem call_conclude (l : RegistrationLoop A) (x : Circumstance) (errand : Errand)
    (response : Option Response) :
    (l.conclude parse me x errand response).call =
      if errand = .nodes then none else some ⟨.nodes, some handleList⟩ := by
  cases errand with
  | register =>
    simp only [RegistrationLoop.conclude]
    split <;> rfl
  | heartbeat =>
    simp only [RegistrationLoop.conclude]
    split <;> rfl
  | nodes =>
    simp only [RegistrationLoop.conclude]
    split <;> rfl

omit [DecidableEq N] in
/-- A registration that is granted a network gives it to the node. Nothing
else does, and nothing else makes a node registered. -/
theorem conclude_cases (l : RegistrationLoop A) (x : Circumstance) (errand : Errand)
    (response : Option Response) :
    (∃ podCidr, errand = .register ∧ response.bind registerOnce = some podCidr ∧
      (l.conclude parse me x errand response).podCidr = some podCidr ∧
      (l.conclude parse me x errand response).registered = true) ∨
    (l.conclude parse me x errand response).podCidr = l.podCidr ∧
      ((l.conclude parse me x errand response).registered = true → l.registered = true) := by
  cases errand with
  | register =>
    simp only [RegistrationLoop.conclude]
    split
    · rename_i podCidr hresponse
      exact Or.inl ⟨podCidr, trivial, hresponse, rfl, rfl⟩
    · exact Or.inr ⟨rfl, id⟩
  | heartbeat =>
    simp only [RegistrationLoop.conclude]
    split
    · exact Or.inr ⟨rfl, id⟩
    · exact Or.inr ⟨rfl, fun h => absurd h Bool.false_ne_true⟩
  | nodes =>
    simp only [RegistrationLoop.conclude]
    split <;> exact Or.inr ⟨rfl, id⟩

omit [DecidableEq N] in
theorem Waits.conclude {w : Worker} {l : RegistrationLoop A} (h : Waits me w l)
    (x : Circumstance) (errand : Errand) (response : Option Response) :
    Waits me w (l.conclude parse me x errand response) := by
  have hcall : (l.conclude parse me x errand response).call = _ :=
    call_conclude l x errand response
  refine ⟨fun handler hregister => ?_, fun handler hheartbeat => ?_, fun hregistered => ?_⟩
  · rw [hcall] at hregister
    split at hregister <;> cases hregister
  · rw [hcall] at hheartbeat
    split at hheartbeat <;> cases hheartbeat
  · rcases conclude_cases l x errand response with
      ⟨podCidr, -, -, hpod, -⟩ | ⟨hpod, hbefore⟩
    · exact ⟨podCidr, hpod⟩
    · rw [hpod]
      exact h.registered (hbefore hregistered)

omit [DecidableEq N] [Ipnet] in
/-- A request another command or forward further. -/
theorem Waits.served {w : Worker} {l : RegistrationLoop A} {errand : Errand}
    {handler : Handler Response} (h : Waits me w l)
    (hregister : errand = .register → handler = handleRegister (.ok me) ∨
      ∃ result, handler = .ret (registerAnswer result) ∧ Answered me w result)
    (hheartbeat : errand = .heartbeat → Beats me w handler) :
    Waits me w { l with call := some ⟨errand, some handler⟩ } := by
  refine ⟨fun handler' hcall => ?_, fun handler' hcall => ?_, h.registered⟩
  · cases hcall
    exact hregister rfl
  · cases hcall
    exact hheartbeat rfl

omit [DecidableEq N] in
/-- **What a loop waits for, move by move.** -/
theorem Moves.waits {n : N} {label : Label N} {w w' : Worker} {l l' : RegistrationLoop A}
    (hmove : Moves parse nodes n label w l w' l') (hw : w.registry.Truthful nodes cidr)
    (h : Waits (nodes n) w l) : Waits (nodes n) w' l' := by
  cases hmove with
  | still => exact h
  | aside now ord hc => exact h.command hw hc now ord
  | @begun _ _ report _ =>
    cases hregistered : l.registered with
    | false =>
      rw [begin_unregistered hregistered]
      exact h.served (fun _ => Or.inl rfl) nofun
    | true =>
      cases report with
      | none =>
        rw [RegistrationLoop.begin, if_pos hregistered]
        refine ⟨fun _ hcall => ?_, fun _ hcall => ?_, nofun⟩ <;> cases hcall
      | some heartbeat =>
        rw [begin_registered hregistered]
        exact h.served nofun fun _ => Or.inl ⟨heartbeat, rfl⟩
  | @served _ _ o errand ρ c k hcall hc =>
    refine (h.command hw hc o.now o.order).served (fun herrand => ?_) fun herrand => ?_
    · subst herrand
      rcases h.register _ hcall with hh | ⟨result, hh, -⟩
      · rw [handleRegister_eq] at hh
        cases hh
        exact Or.inr ⟨_, rfl, answered_register o.now o.order⟩
      · cases hh
    · subst herrand
      rcases h.heartbeat _ hcall with ⟨heartbeat, hh⟩ | ⟨e, hh⟩ | ⟨hanswers, podCidr, hpod⟩
      · rcases command_heartbeat hh o.now o.order with ⟨-, hunknown⟩ | ⟨hanswers, podCidr, hpod⟩
        · exact Or.inr (Or.inl hunknown)
        · exact Or.inr (Or.inr ⟨hanswers, podCidr, hw.podCidr_command o.now o.order hpod⟩)
      · cases hh
      · exact Or.inr (Or.inr ⟨hanswers _, podCidr, hw.podCidr_command o.now o.order hpod⟩)
  | @forwarded _ _ o errand x k hcall =>
    refine h.served (fun herrand => ?_) fun herrand => ?_
    · subst herrand
      rcases h.register _ hcall with hh | ⟨result, hh, -⟩
      · rw [handleRegister_eq] at hh
        cases hh
      · cases hh
    · subst herrand
      rcases h.heartbeat _ hcall with ⟨heartbeat, hh⟩ | ⟨e, hh⟩ | ⟨hanswers, hpod⟩
      · cases hh
      · cases hh
      · exact Or.inr (Or.inr ⟨hanswers _, hpod⟩)
  | heard => exact h.conclude ..
  | gaveUp => exact h.conclude ..
  | restarted =>
    refine ⟨fun handler hcall => ?_, fun handler hcall => ?_, h.registered⟩
    · obtain ⟨call, -, heq⟩ := Option.map_eq_some_iff.1 hcall
      cases congrArg Call.handler heq
    · obtain ⟨call, -, heq⟩ := Option.map_eq_some_iff.1 hcall
      cases congrArg Call.handler heq
  | rebooted => exact ⟨nofun, nofun, nofun⟩
  | respawned => exact ⟨nofun, nofun, nofun⟩

/-! ## Pod networks -/

/-- A node that has a network has its block. -/
structure OnBlock (me : NodeRegistration) (cidr : Ipv4Net) (w : Worker)
    (l : RegistrationLoop A) : Prop where
  waits : Waits me w l
  podCidr : ∀ podCidr, l.podCidr = some podCidr → podCidr = derivePodCidr me.id cidr

section PodNetworks

variable (hparse : ∀ c : Ipv4Net, Ipnet.parse c.display = .ok (.v4 c.addr c.prefixLen))

include hparse

omit [DecidableEq N] in
/-- The network a loop hears it is granted is the one the node is down
for. -/
theorem Waits.granted {w : Worker} {l : RegistrationLoop A} (h : Waits me w l)
    {response : Response} (hcall : l.call = some ⟨.register, some (.ret response)⟩)
    {podCidr : Ipv4Net} (hgranted : registerOnce response = some podCidr) :
    w.registry.podCidr me.id = some podCidr := by
  rcases h.register _ hcall with hh | ⟨result, hh, hanswered⟩
  · rw [handleRegister_eq] at hh
    cases hh
  · cases hh
    cases result with
    | ok podCidr' =>
      rw [registerOnce_registerAnswer hparse] at hgranted
      cases hgranted
      exact hanswered
    | error e => cases hgranted

omit [DecidableEq N] in
/-- A move leaves a node's network as it was, makes it the one the node is
down for, or takes it away. -/
theorem Moves.podCidr {n : N} {label : Label N} {w w' : Worker} {l l' : RegistrationLoop A}
    (hmove : Moves parse nodes n label w l w' l') (h : Waits (nodes n) w l) :
    l'.podCidr = l.podCidr ∨ l'.podCidr = w'.registry.podCidr (nodes n).id ∨
      l'.podCidr = none := by
  cases hmove with
  | still => exact Or.inl rfl
  | aside => exact Or.inl rfl
  | begun =>
    refine Or.inl ?_
    unfold RegistrationLoop.begin
    split
    · split <;> rfl
    · rfl
  | served => exact Or.inl rfl
  | forwarded => exact Or.inl rfl
  | @heard _ _ x errand response hcall =>
    rcases conclude_cases l x errand (some response) with
      ⟨podCidr, herrand, hgranted, hpod, -⟩ | ⟨hpod, -⟩
    · subst herrand
      refine Or.inr (Or.inl ?_)
      rw [hpod, h.granted hparse hcall hgranted]
    · exact Or.inl hpod
  | @gaveUp _ _ x errand handler hcall =>
    rcases conclude_cases l x errand none with ⟨podCidr, -, hgranted, -, -⟩ | ⟨hpod, -⟩
    · cases hgranted
    · exact Or.inl hpod
  | restarted => exact Or.inl rfl
  | rebooted => exact Or.inr (Or.inr rfl)
  | respawned => exact Or.inr (Or.inr rfl)

omit [DecidableEq N] hparse in
/-- The control plane forgets a node only with all the others. -/
theorem Moves.registry {n : N} {label : Label N} {w w' : Worker} {l l' : RegistrationLoop A}
    (hmove : Moves parse nodes n label w l w' l') (hw : w.registry.Truthful nodes cidr)
    (hlabel : label ≠ .restart) {id : String} {podCidr : Ipv4Net}
    (h : w.registry.podCidr id = some podCidr) : w'.registry.podCidr id = some podCidr := by
  cases hmove with
  | aside now ord hc => exact hw.podCidr_command now ord h
  | served => exact hw.podCidr_command _ _ h
  | restarted => exact absurd rfl hlabel
  | _ => exact h

omit [DecidableEq N] in
theorem Moves.onBlock {n : N} {label : Label N} {w w' : Worker} {l l' : RegistrationLoop A}
    (hmove : Moves parse nodes n label w l w' l') (hw : w.registry.Truthful nodes cidr)
    (h : OnBlock (nodes n) cidr w l) : OnBlock (nodes n) cidr w' l' := by
  refine ⟨hmove.waits hw h.waits, fun podCidr hpod => ?_⟩
  rcases hmove.podCidr hparse h.waits with heq | heq | heq
  · exact h.podCidr podCidr (heq ▸ hpod)
  · exact (hmove.truthful hw).blocks.derived _ _ (heq ▸ hpod)
  · rw [heq] at hpod
    cases hpod

variable (parse) in
theorem onBlock_run (serviceCidr : Ipv4Net) (labels : List (Label N)) (n : N) :
    OnBlock (nodes n) cidr ((start cidr serviceCidr : Fleet N A).run parse nodes labels).worker
      (((start cidr serviceCidr : Fleet N A).run parse nodes labels).loops n) :=
  (run_keeps n (P := fun _ => True) (I := OnBlock (nodes n) cidr)
    (fun _ hw hmove h => hmove.onBlock hparse hw h) (fun _ _ => trivial) (.start serviceCidr)
    ⟨⟨nofun, nofun, nofun⟩, nofun⟩).2

/-- A node's network is its block, in every run. -/
theorem podCidr_run (serviceCidr : Ipv4Net) (labels : List (Label N)) (n : N) {podCidr : Ipv4Net}
    (hpod : (((start cidr serviceCidr : Fleet N A).run parse nodes labels).loops n).podCidr =
      some podCidr) : podCidr = derivePodCidr (nodes n).id cidr :=
  (onBlock_run parse hparse serviceCidr labels n).podCidr podCidr hpod

/-- And it is down for it, as long as the control plane is not
restarted. -/
theorem podCidr_registry_run (serviceCidr : Ipv4Net) {labels : List (Label N)}
    (hlabels : ∀ label ∈ labels, label ≠ .restart) (n : N) {podCidr : Ipv4Net}
    (hpod : (((start cidr serviceCidr : Fleet N A).run parse nodes labels).loops n).podCidr =
      some podCidr) :
    ((start cidr serviceCidr : Fleet N A).run parse nodes labels).worker.registry.podCidr
      (nodes n).id = some podCidr := by
  refine (run_keeps n (P := fun label => label ≠ .restart)
    (I := fun w l => Waits (nodes n) w l ∧
      ∀ podCidr, l.podCidr = some podCidr → w.registry.podCidr (nodes n).id = some podCidr)
    (fun hlabel hw hmove h => ⟨hmove.waits hw h.1, fun podCidr hpod => ?_⟩) hlabels
    (.start serviceCidr) ⟨⟨nofun, nofun, nofun⟩, nofun⟩).2.2 podCidr hpod
  rcases hmove.podCidr hparse h.1 with heq | heq | heq
  · exact hmove.registry hw hlabel (h.2 podCidr (heq ▸ hpod))
  · rw [← heq, hpod]
  · rw [heq] at hpod
    cases hpod

variable (parse nodes) in
omit hparse in
theorem loops_step_begin {n : N} (hcall : (f.loops n).call = none)
    (hregistered : (f.loops n).registered = false) :
    (f.step parse nodes (.begin n none)).worker = f.worker ∧
    ((f.step parse nodes (.begin n none)).loops n).call =
      some ⟨.register, some (handleRegister (.ok (nodes n)))⟩ ∧
    ∀ m, m ≠ n → (f.step parse nodes (.begin n none)).loops m = f.loops m := by
  simp only [step, hcall, begin_unregistered hregistered]
  refine ⟨rfl, ?_, fun m hm => ?_⟩
  · rw [loops_setLoop, if_pos rfl]
  · rw [loops_setLoop, if_neg hm]

variable (parse nodes) in
omit hparse in
theorem loops_step_serve {n : N} (o : Choice)
    (h : (f.loops n).call = some ⟨.register, some (handleRegister (.ok (nodes n)))⟩) :
    ((f.step parse nodes (.serve n o)).loops n).call = some ⟨.register, some (.ret (registerAnswer
      (Worker.handleCommand o.now o.order (register (nodes n)) f.worker).1))⟩ ∧
    ∀ m, m ≠ n → (f.step parse nodes (.serve n o)).loops m = f.loops m := by
  rw [handleRegister_eq] at h
  simp only [step, serve, h]
  refine ⟨?_, fun m hm => ?_⟩
  · rw [loops_setLoop, if_pos rfl]
  · rw [loops_setLoop, if_neg hm]

variable (parse nodes) in
theorem loops_step_hear {n : N} (x : Circumstance) {podCidr : Ipv4Net}
    (h : (f.loops n).call = some ⟨.register, some (.ret (registerAnswer (.ok podCidr)))⟩) :
    ((f.step parse nodes (.hear n true x)).loops n).podCidr = some podCidr ∧
    ∀ m, m ≠ n → (f.step parse nodes (.hear n true x)).loops m = f.loops m := by
  simp only [step, hear, h]
  refine ⟨?_, fun m hm => ?_⟩
  · rw [loops_setLoop, if_pos rfl]
    simp only [RegistrationLoop.conclude, Option.bind_some,
      registerOnce_registerAnswer hparse podCidr]
    rfl
  · rw [loops_setLoop, if_neg hm]

omit [DecidableEq N] [Ipnet] hparse in
/-- A control plane that knows no node grants a node its block. -/
theorem granted_of_new {w : Worker} (h : w.registry = .new cidr) (o : Choice) :
    (Worker.handleCommand o.now o.order (register me) w).1 =
      .ok (derivePodCidr me.id cidr) := by
  show (w.registry.register _ _ _ _ _ _).1 = _
  rw [h]
  rcases (Registry.new cidr).register_cases me.id me.addr me.replicateAddr me.capacityCpu
    me.capacityMemory o.now with ⟨e, -, -, hpod⟩ | ⟨record, -, -, heq⟩
  · cases hpod
  · rw [heq]
    rfl

/-- The first request of a node's turn, answered. -/
def enrol (n : N) (o : Choice) (x : Circumstance) : List (Label N) :=
  [.begin n none, .serve n o, .hear n true x]

variable (parse nodes) in
theorem run_enrol {n : N} (hcall : (f.loops n).call = none)
    (hregistered : (f.loops n).registered = false) (hregistry : f.worker.registry = .new cidr)
    (o : Choice) (x : Circumstance) :
    ((f.run parse nodes (enrol n o x)).loops n).podCidr = some (derivePodCidr (nodes n).id cidr) ∧
    ∀ m, m ≠ n → (f.run parse nodes (enrol n o x)).loops m = f.loops m := by
  obtain ⟨hworker, hbegun, hbegin⟩ := loops_step_begin parse nodes hcall hregistered
  obtain ⟨hserved, hserve⟩ := loops_step_serve parse nodes o hbegun
  rw [hworker, granted_of_new hregistry] at hserved
  obtain ⟨hheard, hhear⟩ := loops_step_hear parse nodes hparse x hserved
  refine ⟨hheard, fun m hm => ?_⟩
  calc (f.run parse nodes (enrol n o x)).loops m
    _ = _ := hhear m hm
    _ = _ := hserve m hm
    _ = f.loops m := hbegin m hm

/-- Networks of a run that overlap are one. -/
theorem eq_of_contains (hcidr : cidr.prefixLen ≤ podPrefixLen) (serviceCidr : Ipv4Net)
    {labels : List (Label N)} {n m : N} {podCidr podCidr' : Ipv4Net}
    (hn : (((start cidr serviceCidr : Fleet N A).run parse nodes labels).loops n).podCidr =
      some podCidr)
    (hm : (((start cidr serviceCidr : Fleet N A).run parse nodes labels).loops m).podCidr =
      some podCidr') {a : Ipv4Addr}
    (ha : podCidr.contains a = true ∧ podCidr'.contains a = true) : podCidr = podCidr' := by
  have hblock := podCidr_run hparse serviceCidr labels n hn
  have hblock' := podCidr_run hparse serviceCidr labels m hm
  subst hblock hblock'
  exact derivePodCidr_eq_of_contains hcidr (nodes n).id ha.1 ha.2

/-- Pod networks that do not overlap. -/
def Apart (f : Fleet N A) : Prop :=
  ∀ n m podCidr podCidr', n ≠ m → (f.loops n).podCidr = some podCidr →
    (f.loops m).podCidr = some podCidr' →
    ∀ a, ¬ (podCidr.contains a = true ∧ podCidr'.contains a = true)

/-- **Pod networks, over every run** of the loops of a fleet of nodes. -/
structure PodNetworks (parse : String → Option A) (nodes : N → NodeRegistration)
    (cidr serviceCidr : Ipv4Net) : Prop where
  /-- A node's is a block of the cluster network, and always the same. -/
  inside : ∀ labels n podCidr,
    (((start cidr serviceCidr : Fleet N A).run parse nodes labels).loops n).podCidr = some podCidr →
    podCidr = derivePodCidr (nodes n).id cidr ∧
      ∀ a, podCidr.contains a = true → cidr.contains a = true
  /-- As long as the control plane runs, it knows which, and no two nodes'
  overlap. -/
  disjoint : ∀ labels : List (Label N), (∀ label ∈ labels, label ≠ .restart) →
    (∀ n podCidr,
      (((start cidr serviceCidr : Fleet N A).run parse nodes labels).loops n).podCidr =
        some podCidr →
      ((start cidr serviceCidr : Fleet N A).run parse nodes labels).worker.registry.podCidr
        (nodes n).id = some podCidr) ∧
    Apart ((start cidr serviceCidr : Fleet N A).run parse nodes labels)
  /-- A control plane that may be restarted keeps nodes apart exactly when
  no two ids hash to one block. -/
  restarted : (∀ labels, Apart ((start cidr serviceCidr : Fleet N A).run parse nodes labels)) ↔
    ∀ n m, n ≠ m → derivePodCidr (nodes n).id cidr ≠ derivePodCidr (nodes m).id cidr

variable (parse) in
/-- A node that has never registered does so after a restart, and is
granted its block whatever the other nodes have. -/
theorem run_restart_enrol (hf : f.InOrder nodes cidr) {m : N} (hm : f.loops m = .start)
    (o : Choice) (x : Circumstance) :
    ((f.run parse nodes (.restart :: enrol m o x)).loops m).podCidr =
      some (derivePodCidr (nodes m).id cidr) ∧
    ∀ k, k ≠ m → ((f.run parse nodes (.restart :: enrol m o x)).loops k).podCidr =
      (f.loops k).podCidr := by
  have hloop : (f.step parse nodes .restart).loops m = .start := by
    have hloops : (f.step parse nodes .restart).loops m = { f.loops m with
        call := (f.loops m).call.map fun call => { call with handler := none } } := rfl
    rw [hloops, hm]
    rfl
  have hregistry : (f.step parse nodes .restart).worker.registry = .new cidr :=
    congrArg Registry.new hf.registry.blocks.cidr_eq
  obtain ⟨hpod, hothers⟩ := run_enrol parse nodes hparse (by rw [hloop]; rfl) (by rw [hloop]; rfl)
    hregistry o x
  refine ⟨hpod, fun k hk => ?_⟩
  calc ((f.run parse nodes (.restart :: enrol m o x)).loops k).podCidr
    _ = ((f.step parse nodes .restart).loops k).podCidr := congrArg _ (hothers k hk)
    _ = (f.loops k).podCidr := rfl

/-- A restart in between: the second of two nodes whose ids hash to one
block is granted the network the first still has. -/
theorem not_apart_of_restart {n m : N} (hne : n ≠ m)
    (heq : derivePodCidr (nodes n).id cidr = derivePodCidr (nodes m).id cidr)
    (serviceCidr : Ipv4Net) (o : Choice) (x : Circumstance) :
    ¬ Apart ((start cidr serviceCidr : Fleet N A).run parse nodes
      (enrol n o x ++ .restart :: enrol m o x)) := by
  obtain ⟨hfirst, hothers⟩ : _ ∧ ∀ k, k ≠ n → _ := run_enrol parse nodes hparse
    (f := start cidr serviceCidr) (n := n) rfl rfl rfl o x
  obtain ⟨hsecond, hkept⟩ := run_restart_enrol parse hparse
    (inOrder_start parse n serviceCidr (enrol n o x)) (hothers m hne.symm) o x
  intro h
  rw [run, List.foldl_append] at h
  refine h n m _ _ hne ((hkept n hne).trans hfirst) hsecond
    (derivePodCidr (nodes m).id cidr).addr ⟨?_, Ipv4Net.contains_addr _⟩
  rw [heq]
  exact Ipv4Net.contains_addr _

theorem podNetworks (hids : Function.Injective fun n => (nodes n).id)
    (hcidr : cidr.prefixLen ≤ podPrefixLen) (serviceCidr : Ipv4Net) :
    PodNetworks (A := A) parse nodes cidr serviceCidr := by
  refine ⟨fun labels n podCidr hpod => ?_, fun labels hlabels => ⟨fun n podCidr hpod => ?_, ?_⟩,
    ⟨fun h n m hne heq => ?_, fun h labels n m podCidr podCidr' hne hn hm a ha => ?_⟩⟩
  · have hblock := podCidr_run hparse serviceCidr labels n hpod
    exact ⟨hblock, fun a ha => contains_of_derivePodCidr hcidr (nodes n).id (hblock ▸ ha)⟩
  · exact podCidr_registry_run hparse serviceCidr hlabels n hpod
  · -- Two networks that overlap are one, and one node only is down for it.
    rintro n m podCidr podCidr' hne hn hm a ha
    have heq := eq_of_contains hparse hcidr serviceCidr hn hm ha
    have hreg := podCidr_registry_run hparse serviceCidr hlabels n hn
    have hreg' := podCidr_registry_run hparse serviceCidr hlabels m hm
    rw [← heq] at hreg'
    have hid := (inOrder_start parse n serviceCidr labels).registry.blocks.distinct _ _ _ hreg hreg'
    exact hne (hids hid)
  · exact not_apart_of_restart hparse hne heq serviceCidr ⟨0, .listed, .error ""⟩
      ⟨.listed, fun _ => .done, fun _ => .done, fun _ => .done, fun _ => true⟩ (h _)
  · have heq := eq_of_contains hparse hcidr serviceCidr hn hm ha
    have hblock := podCidr_run hparse serviceCidr labels n hn
    have hblock' := podCidr_run hparse serviceCidr labels m hm
    exact h n m hne (hblock.symm.trans (heq.trans hblock'))

end PodNetworks

end Fleet

namespace Fleet.Sample

/-- Two nodes. -/
def nodes (n : Bool) : NodeRegistration :=
  ⟨if n then "a" else "b", if n then "10.1.0.1:7621" else "10.1.0.2:7621", none, 4, 1024⟩

theorem sixteen_le : 16 ≤ 32 := by decide

def cidr : Ipv4Net := ⟨Ipv4Addr.ofOctets 10 0 0 0, 16, sixteen_le⟩

def serviceCidr : Ipv4Net := ⟨Ipv4Addr.ofOctets 10 96 0 0, 16, sixteen_le⟩

def circumstance : Circumstance :=
  ⟨.listed, fun _ => .done, fun _ => .done, fun _ => .done, fun _ => true⟩

def choice : Choice := ⟨0, .listed, .error ""⟩

theorem nodes_injective : Function.Injective fun n => (nodes n).id := by
  intro n m h
  cases n <;> cases m <;> first | rfl | exact absurd h (by decide +kernel)

end Fleet.Sample

open Fleet.Sample in
open scoped Agent.Sample in
theorem Fleet.podNetworks_two : PodNetworks (A := String) some nodes cidr serviceCidr :=
  podNetworks Agent.Sample.parse_display nodes_injective (by decide) serviceCidr

end Keel
