import Keel.Cluster.Enrolment
/-!
# A node finds its way back

Whatever has happened — the control plane was restarted, nodes were
rebooted, answers were lost — once nothing more of that happens to a node,
and no other node's id hashes to its block, the third turn its loop
completes leaves it registered, on its block and known to the control
plane, and so does every turn after it (`settles`).

A turn completed takes the node one stage further (`Stage`): from wherever
it is to the end of a turn; from there to one that ends with the node
known or knowingly not registered; from there to registered. Within a turn
a stage is not lost (`Moves.stage`).
-/

namespace Keel

open ControlPlane
open Agent (Errand Call Circumstance RegistrationLoop registerOnce heartbeatOnce)

namespace Fleet

variable {N A : Type} [DecidableEq N] [Ipnet] {parse : String → Option A}
  {nodes : N → NodeRegistration} {cidr : Ipv4Net} {f : Fleet N A} {me : NodeRegistration}

/-! ## Quiet runs -/

/-- Nothing that sets a node back: the control plane is not restarted, nor
the node or its agent, each of its requests is answered, and its worker tells
what a heartbeat needs. -/
def Quiet (n : N) : Label N → Prop
  | .begin m report => m = n → report ≠ none
  | .hear m gets _ => m = n → gets = true
  | .restart => False
  | .reboot m | .respawn m => m ≠ n
  | _ => True

/-- A step a node completes a turn by: it hears the peer list. -/
def finishes (f : Fleet N A) (n : N) : Label N → Bool
  | .hear m true _ =>
    match (f.loops n).call with
    | some ⟨.nodes, some (.ret _)⟩ => decide (m = n)
    | _ => false
  | _ => false

/-- The turns a node completes in a run. -/
def turns (parse : String → Option A) (nodes : N → NodeRegistration) (n : N) :
    List (Label N) → Fleet N A → ℕ
  | [], _ => 0
  | label :: labels, f =>
    (if f.finishes n label then 1 else 0) + turns parse nodes n labels (f.step parse nodes label)

/-! ## Stages -/

/-- A heartbeat that will be answered the service table. -/
def WillAnswer (me : NodeRegistration) (handler : Handler Response) : Prop :=
  (∃ heartbeat, handler = handleHeartbeat me.id (.ok heartbeat)) ∨
    handler.Answers fun response => ∃ entries, heartbeatOnce response = some entries

/-- The node is registered, on its block and known, and nothing under way
can make it think otherwise. -/
structure Enrolled (me : NodeRegistration) (cidr : Ipv4Net) (w : Worker)
    (l : RegistrationLoop A) : Prop where
  registered : l.registered = true
  podCidr : l.podCidr = some (derivePodCidr me.id cidr)
  known : w.registry.podCidr me.id = some (derivePodCidr me.id cidr)
  call : ∀ call, l.call = some call → call.errand ≠ .register
  heartbeat : ∀ handler, l.call = some ⟨.heartbeat, some handler⟩ → WillAnswer me handler

/-- What can be said of a node that has at most `k` turns to complete. -/
def Stage (me : NodeRegistration) (cidr : Ipv4Net) :
    ℕ → Worker → RegistrationLoop A → Prop
  | 0, w, l => Enrolled me cidr w l
  | 1, w, l => Enrolled me cidr w l ∨
    l.registered = false ∧ ∀ call, l.call = some call → call.errand = .register
  | 2, w, l => Enrolled me cidr w l ∨
    (l.registered = false ∧ ∀ call, l.call = some call → call.errand ≠ .heartbeat) ∨
    l.registered = true ∧ ∀ call, l.call = some call → call.errand = .heartbeat
  | _, _, _ => True

/-! ## What a turn comes to -/

omit [DecidableEq N] [Ipnet] in
/-- A heartbeat that is answered, and was to be answered the service
table, is. -/
theorem WillAnswer.heartbeatOnce {response : Response}
    (h : WillAnswer me (.ret response)) : ∃ entries, heartbeatOnce response = some entries := by
  rcases h with ⟨heartbeat, hh⟩ | hanswers
  · cases hh
  · exact hanswers

variable (parse me) in
omit [DecidableEq N] in
theorem conclude_nodes (l : RegistrationLoop A) (x : Circumstance) (response : Option Response) :
    (l.conclude parse me x .nodes response).call = none ∧
      (l.conclude parse me x .nodes response).registered = l.registered ∧
      (l.conclude parse me x .nodes response).podCidr = l.podCidr := by
  simp only [RegistrationLoop.conclude]
  split <;> exact ⟨rfl, rfl, rfl⟩

section Free

variable {n : N}
  (hparse : ∀ c : Ipv4Net, Ipnet.parse c.display = .ok (.v4 c.addr c.prefixLen))
  (hfree : ∀ m, m ≠ n → derivePodCidr (nodes m).id cidr ≠ derivePodCidr (nodes n).id cidr)

omit [DecidableEq N] [Ipnet] in
include hfree in
/-- Where no other node's id hashes to its block, no node is refused for
it. -/
theorem not_answered_error {w : Worker} (hw : w.registry.Truthful nodes cidr)
    {e : PodCidrCollision} : ¬ Answered (nodes n) w (.error e) := by
  rintro ⟨hne, hpod⟩
  obtain ⟨record, hrecord, -⟩ := Option.map_eq_some_iff.1 hpod
  obtain ⟨m, hid, -⟩ := hw.known _ record hrecord
  have hblock := hw.blocks.derived _ _ hpod
  rw [hw.blocks.cidr_eq, ← hid] at hblock
  refine hfree m ?_ hblock.symm
  rintro rfl
  exact hne hid.symm

include hparse hfree in
omit [DecidableEq N] in
/-- A registration that is answered is granted. -/
theorem Waits.accepted {w : Worker} {l : RegistrationLoop A} (h : Waits (nodes n) w l)
    (hw : w.registry.Truthful nodes cidr) {response : Response}
    (hcall : l.call = some ⟨.register, some (.ret response)⟩) :
    registerOnce response = some (derivePodCidr (nodes n).id cidr) ∧
      w.registry.podCidr (nodes n).id = some (derivePodCidr (nodes n).id cidr) := by
  rcases h.register _ hcall with hh | ⟨result, hh, hanswered⟩
  · rw [handleRegister_eq] at hh
    cases hh
  · cases hh
    cases result with
    | error e => exact absurd hanswered (not_answered_error hfree hw)
    | ok podCidr =>
      rw [registerOnce_registerAnswer hparse]
      have hblock := hw.blocks.derived _ _ hanswered
      subst hblock
      exact ⟨rfl, hanswered⟩

variable {label : Label N} {w w' : Worker} {l l' : RegistrationLoop A}

omit [DecidableEq N] in
/-- A node that is enrolled stays so. -/
theorem Moves.enrolled (hmove : Moves parse nodes n label w l w' l') (hquiet : Quiet n label)
    (hw : w.registry.Truthful nodes cidr) (h : Enrolled (nodes n) cidr w l) :
    Enrolled (nodes n) cidr w' l' := by
  cases hmove with
  | still => exact h
  | aside now ord hc => exact { h with known := hw.podCidr_command now ord h.known }
  | @begun _ _ report _ =>
    obtain ⟨heartbeat, rfl⟩ := Option.ne_none_iff_exists'.1 (hquiet rfl)
    rw [begin_registered h.registered]
    refine { h with call := fun call hcall => ?_, heartbeat := fun handler hcall => ?_ }
    · cases hcall
      exact Errand.noConfusion
    · cases hcall
      exact Or.inl ⟨heartbeat, rfl⟩
  | @served _ _ o errand ρ c k hcall hc =>
    have hknown := hw.podCidr_command (c := c) o.now o.order h.known
    have herrand := h.call _ hcall
    refine { h with known := hknown, call := fun call hcall' => ?_, heartbeat := ?_ }
    · cases hcall'
      exact herrand
    · intro handler hcall'
      cases hcall'
      rcases h.heartbeat _ hcall with ⟨heartbeat, hh⟩ | hanswers
      · rcases command_heartbeat hh o.now o.order with ⟨hunknown, -⟩ | ⟨hanswers, -⟩
        · rw [h.known] at hunknown
          cases hunknown
        · exact Or.inr hanswers
      · exact Or.inr (hanswers _)
  | @forwarded _ _ o errand x k hcall =>
    have herrand := h.call _ hcall
    refine { h with call := fun call hcall' => ?_, heartbeat := fun handler hcall' => ?_ }
    · cases hcall'
      exact herrand
    · cases hcall'
      rcases h.heartbeat _ hcall with ⟨heartbeat, hh⟩ | hanswers
      · cases hh
      · exact Or.inr (hanswers _)
  | @heard _ _ x errand response hcall =>
    cases errand with
    | register => exact absurd rfl (h.call _ hcall)
    | heartbeat =>
      obtain ⟨entries, hentries⟩ := (h.heartbeat _ hcall).heartbeatOnce
      simp only [RegistrationLoop.conclude, Option.bind_some, hentries]
      refine ⟨h.registered, h.podCidr, h.known, fun call hcall' => ?_, fun handler hcall' => ?_⟩
      · cases hcall'
        exact Errand.noConfusion
      · cases hcall'
    | nodes =>
      obtain ⟨hnone, hregistered, hpod⟩ := conclude_nodes parse (nodes n) l x (some response)
      refine ⟨hregistered.trans h.registered, hpod.trans h.podCidr, h.known, ?_, ?_⟩
      · intro call hcall'
        rw [hnone] at hcall'
        cases hcall'
      · intro handler hcall'
        rw [hnone] at hcall'
        cases hcall'
  | gaveUp => exact absurd (hquiet rfl) Bool.false_ne_true
  | restarted => exact hquiet.elim
  | rebooted => exact absurd rfl hquiet
  | respawned => exact absurd rfl hquiet

omit [DecidableEq N] in
include hparse hfree in
/-- A node that is not registered asks for nothing but to be, until it
is. `P` is what else it may be waiting for. -/
theorem Moves.unregistered {P : Errand → Prop} (hregister : P .register)
    (hheartbeat : ¬ P .heartbeat) (hmove : Moves parse nodes n label w l w' l')
    (hquiet : Quiet n label) (hw : w.registry.Truthful nodes cidr) (hwaits : Waits (nodes n) w l)
    (hregistered : l.registered = false) (h : ∀ call, l.call = some call → P call.errand) :
    Enrolled (nodes n) cidr w' l' ∨
      l'.registered = false ∧ ∀ call, l'.call = some call → P call.errand := by
  cases hmove with
  | still => exact Or.inr ⟨hregistered, h⟩
  | aside => exact Or.inr ⟨hregistered, h⟩
  | begun =>
    rw [begin_unregistered hregistered]
    refine Or.inr ⟨hregistered, fun call hcall => ?_⟩
    cases hcall
    exact hregister
  | served hcall =>
    have herrand := h _ hcall
    refine Or.inr ⟨hregistered, fun call hcall' => ?_⟩
    cases hcall'
    exact herrand
  | forwarded hcall =>
    have herrand := h _ hcall
    refine Or.inr ⟨hregistered, fun call hcall' => ?_⟩
    cases hcall'
    exact herrand
  | @heard _ _ x errand response hcall =>
    cases errand with
    | register =>
      obtain ⟨hgranted, hknown⟩ := hwaits.accepted hparse hfree hw hcall
      simp only [RegistrationLoop.conclude, Option.bind_some, hgranted]
      refine Or.inl ⟨rfl, rfl, hknown, fun call hcall' => ?_, fun handler hcall' => ?_⟩
      · cases hcall'
        exact Errand.noConfusion
      · cases hcall'
    | heartbeat => exact absurd (h _ hcall) hheartbeat
    | nodes =>
      obtain ⟨hnone, hkept, -⟩ := conclude_nodes parse (nodes n) l x (some response)
      refine Or.inr ⟨hkept.trans hregistered, fun call hcall' => ?_⟩
      rw [hnone] at hcall'
      cases hcall'
  | gaveUp => exact absurd (hquiet rfl) Bool.false_ne_true
  | restarted => exact hquiet.elim
  | rebooted => exact absurd rfl hquiet
  | respawned => exact absurd rfl hquiet

omit [DecidableEq N] in
/-- The heartbeat of a node that takes itself for registered tells whether
it is. -/
theorem Moves.registered (hmove : Moves parse nodes n label w l w' l') (hquiet : Quiet n label)
    (hw : w.registry.Truthful nodes cidr) (hwaits : Waits (nodes n) w l)
    (hpod : ∀ podCidr, l.podCidr = some podCidr → podCidr = derivePodCidr (nodes n).id cidr)
    (hregistered : l.registered = true)
    (h : ∀ call, l.call = some call → call.errand = .heartbeat) :
    Stage (nodes n) cidr 2 w' l' := by
  cases hmove with
  | still => exact Or.inr (Or.inr ⟨hregistered, h⟩)
  | aside => exact Or.inr (Or.inr ⟨hregistered, h⟩)
  | @begun _ _ report _ =>
    obtain ⟨heartbeat, rfl⟩ := Option.ne_none_iff_exists'.1 (hquiet rfl)
    rw [begin_registered hregistered]
    refine Or.inr (Or.inr ⟨hregistered, fun call hcall => ?_⟩)
    cases hcall
    rfl
  | served hcall =>
    have herrand := h _ hcall
    refine Or.inr (Or.inr ⟨hregistered, fun call hcall' => ?_⟩)
    cases hcall'
    exact herrand
  | forwarded hcall =>
    have herrand := h _ hcall
    refine Or.inr (Or.inr ⟨hregistered, fun call hcall' => ?_⟩)
    cases hcall'
    exact herrand
  | @heard _ _ x errand response hcall =>
    obtain rfl : errand = .heartbeat := h _ hcall
    obtain ⟨podCidr, hslot⟩ := hwaits.registered hregistered
    rcases hwaits.heartbeat _ hcall with ⟨heartbeat, hh⟩ | ⟨e, hh⟩ |
      ⟨⟨entries, hentries⟩, known, hknown⟩
    · cases hh
    · -- The control plane does not know the node, which hears so.
      cases hh
      refine Or.inr (Or.inl ⟨rfl, fun call hcall' => ?_⟩)
      cases hcall'
      exact Errand.noConfusion
    · simp only [RegistrationLoop.conclude, Option.bind_some, hentries]
      rw [hw.blocks.derived _ _ hknown] at hknown
      rw [hpod _ hslot] at hslot
      refine Or.inl ⟨hregistered, hslot, hknown, fun call hcall' => ?_, fun handler hcall' => ?_⟩
      · cases hcall'
        exact Errand.noConfusion
      · cases hcall'
  | gaveUp => exact absurd (hquiet rfl) Bool.false_ne_true
  | restarted => exact hquiet.elim
  | rebooted => exact absurd rfl hquiet
  | respawned => exact absurd rfl hquiet

/-! ## Stage by stage -/

omit [DecidableEq N] in
include hparse hfree in
/-- **Within a turn a stage is not lost.** -/
theorem Moves.stage (hmove : Moves parse nodes n label w l w' l') (hquiet : Quiet n label)
    (hw : w.registry.Truthful nodes cidr) (hwaits : Waits (nodes n) w l)
    (hpod : ∀ podCidr, l.podCidr = some podCidr → podCidr = derivePodCidr (nodes n).id cidr) :
    ∀ k, Stage (nodes n) cidr k w l → Stage (nodes n) cidr k w' l'
  | 0, h => hmove.enrolled hquiet hw h
  | 1, h => by
    rcases h with h | ⟨hregistered, h⟩
    · exact Or.inl (hmove.enrolled hquiet hw h)
    · exact hmove.unregistered hparse hfree (P := (· = .register)) rfl (by decide) hquiet hw
        hwaits hregistered h
  | 2, h => by
    rcases h with h | ⟨hregistered, h⟩ | ⟨hregistered, h⟩
    · exact Or.inl (hmove.enrolled hquiet hw h)
    · rcases hmove.unregistered hparse hfree (P := (· ≠ .heartbeat)) (by decide) (by decide)
        hquiet hw hwaits hregistered h with h | h
      · exact Or.inl h
      · exact Or.inr (Or.inl h)
    · exact hmove.registered hquiet hw hwaits hpod hregistered h
  | _ + 3, _ => trivial

omit [DecidableEq N] in
/-- **A turn completed is a stage further.** -/
theorem Stage.conclude {x : Circumstance} {response : Option Response}
    {handler : Option (Handler Response)} (hcall : l.call = some ⟨.nodes, handler⟩) :
    ∀ k, Stage me cidr (k + 1) w l → Stage me cidr k w (l.conclude parse me x .nodes response) := by
  obtain ⟨hnone, hregistered, hpod⟩ := conclude_nodes parse me l x response
  have hcalls : ∀ {P : Call → Prop} call,
      (l.conclude parse me x .nodes response).call = some call → P call := by
    intro P call hcall'
    rw [hnone] at hcall'
    cases hcall'
  have henrolled : Enrolled me cidr w l →
      Enrolled me cidr w (l.conclude parse me x .nodes response) := fun h =>
    ⟨hregistered.trans h.registered, hpod.trans h.podCidr, h.known, hcalls,
      fun handler hcall' => by rw [hnone] at hcall'; cases hcall'⟩
  rintro (_ | _ | _ | k) h
  · rcases h with h | ⟨-, h⟩
    · exact henrolled h
    · cases h _ hcall
  · rcases h with h | ⟨hunregistered, -⟩ | ⟨-, h⟩
    · exact Or.inl (henrolled h)
    · exact Or.inr ⟨hregistered.trans hunregistered, hcalls⟩
    · cases h _ hcall
  · cases hl : l.registered with
    | false => exact Or.inr (Or.inl ⟨hregistered.trans hl, hcalls⟩)
    | true => exact Or.inr (Or.inr ⟨hregistered.trans hl, hcalls⟩)
  · trivial

/-! ## Runs -/

omit [Ipnet] in
theorem finishes_eq_true (h : f.finishes n label = true) : ∃ x response,
    label = .hear n true x ∧ (f.loops n).call = some ⟨.nodes, some (.ret response)⟩ := by
  unfold finishes at h
  split at h
  · rename_i m x
    split at h
    · rename_i response hcall
      obtain rfl : m = n := of_decide_eq_true h
      exact ⟨x, response, rfl, hcall⟩
    · cases h
  · cases h

variable (parse) in
include hparse hfree in
theorem stage_run {labels : List (Label N)} : ∀ {f : Fleet N A} {k : ℕ},
    (∀ label ∈ labels, Quiet n label) → f.InOrder nodes cidr →
    OnBlock (nodes n) cidr f.worker (f.loops n) → Stage (nodes n) cidr k f.worker (f.loops n) →
    Stage (nodes n) cidr (k - turns parse nodes n labels f) (f.run parse nodes labels).worker
      ((f.run parse nodes labels).loops n) := by
  induction labels with
  | nil => exact fun _ _ _ h => h
  | cons label labels ih =>
    intro f k hquiet hf hblock h
    have hmove : Moves parse nodes n label _ _ _ _ := step_moves hf.lawful label n
    have hstage := hmove.stage hparse hfree (hquiet label List.mem_cons_self) hf.registry
      hblock.waits hblock.podCidr
    have hnext : Stage (nodes n) cidr (k - if f.finishes n label then 1 else 0)
        (f.step parse nodes label).worker ((f.step parse nodes label).loops n) := by
      split
      · rename_i hfinishes
        obtain ⟨x, response, rfl, hcall⟩ := finishes_eq_true hfinishes
        cases k with
        | zero => exact hstage 0 h
        | succ k =>
          simp only [step, hear, hcall, loops_setLoop, if_true]
          exact Stage.conclude hcall k h
      · exact hstage k h
    have hrest := ih (fun label' hlabel' => hquiet label' (List.mem_cons_of_mem _ hlabel'))
      ⟨hf.lawful.step label, hmove.truthful hf.registry⟩ (hmove.onBlock hparse hf.registry hblock)
      hnext
    rw [Nat.sub_sub] at hrest
    exact hrest

include hparse hfree in
/-- **A node finds its way back**, from wherever a run has left it. -/
theorem settles (serviceCidr : Ipv4Net) (past : List (Label N)) {labels : List (Label N)}
    (hquiet : ∀ label ∈ labels, Quiet n label)
    (hturns : 3 ≤ turns parse nodes n labels
      ((start cidr serviceCidr : Fleet N A).run parse nodes past)) :
    let f := ((start cidr serviceCidr : Fleet N A).run parse nodes past).run parse nodes labels
    (f.loops n).registered = true ∧
      (f.loops n).podCidr = some (derivePodCidr (nodes n).id cidr) ∧
      f.worker.registry.podCidr (nodes n).id = some (derivePodCidr (nodes n).id cidr) := by
  have h := stage_run parse hparse hfree (k := 3) hquiet (inOrder_start parse n serviceCidr past)
    (onBlock_run (A := A) parse hparse serviceCidr past n) trivial
  rw [Nat.sub_eq_zero_of_le hturns] at h
  exact ⟨h.registered, h.podCidr, h.known⟩

end Free

end Fleet

namespace Fleet.Sample

/-- A turn of a node that every request of is answered. -/
def turn (n : Bool) : List (Label Bool) :=
  [.begin n (some ⟨0, 0, []⟩), .serve n choice, .serve n choice, .serve n choice, .serve n choice,
    .hear n true circumstance, .serve n choice, .hear n true circumstance]

end Fleet.Sample

open Fleet.Sample in
open scoped Agent.Sample in
/-- A node registers, and the control plane is restarted. -/
theorem Fleet.settles_restarted :
    let f := ((start cidr serviceCidr : Fleet Bool String).run some nodes
      (turn true ++ [.restart])).run some nodes (turn true ++ turn true ++ turn true)
    (f.loops true).registered = true ∧
      (f.loops true).podCidr = some (derivePodCidr (nodes true).id cidr) ∧
      f.worker.registry.podCidr (nodes true).id = some (derivePodCidr (nodes true).id cidr) := by
  refine settles Agent.Sample.parse_display (fun m hm => ?_) serviceCidr _ ?_ (by decide +kernel)
  · cases m with
    | true => exact absurd rfl hm
    | false => decide +kernel
  · intro label hlabel
    have hall : ∀ label ∈ turn true, Quiet true label := by
      simp only [turn, List.forall_mem_cons, Quiet]
      exact ⟨nofun, trivial, trivial, trivial, trivial, fun _ => trivial, trivial,
        fun _ => trivial, nofun⟩
    simp only [List.mem_append] at hlabel
    rcases hlabel with (h | h) | h <;> exact hall label h

end Keel
