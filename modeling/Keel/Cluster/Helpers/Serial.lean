import Mathlib.Data.Fintype.Defs
import Mathlib.Data.Fintype.Basic
import Keel.Agent.Helpers.Records
import Keel.Cluster.Helpers
import Keel.Cluster.Serial
import Keel.ControlPlane.Helpers.Steps
/-!
# What a request leaves of the agents

A request of the serial cluster is a request of the control plane whose
answers are the agents' (`simulates`): what holds of its log and of the
tables whatever the nodes answer holds here, and the log tells in
addition what became of every record (`Truthful`). So an invariant of the
tables and the records is proved along the steps of the control plane,
for whatever the agents may have done meanwhile.
-/

namespace Keel

open Agent

namespace Cluster

variable {N : Type} [DecidableEq N] {net : Net N} {c : Cluster N}

/-! ## Steps of the agents' own -/

theorem writes_setAgent {n : N} {a : Agentd} (h : (c.agents n).Writes none a) (k : N) :
    (c.agents k).Writes none ((c.setAgent n a).agents k) := by
  rw [agents_setAgent]
  split
  · rename_i hk
    rwa [hk]
  · exact .refl _

theorem conclude_reconciler (n m : N) (i : ℕ) (prunes : Bool) (result : SendOnce) :
    ((c.conclude n i prunes result).agents m).reconciler = (c.agents m).reconciler := by
  rw [conclude, agents_setAgent]
  split
  · rename_i hm
    rw [hm, Agentd.conclude]
    split <;> rfl
  · rfl

/-- **A step of an agent's own leaves the records**, but for the
ingress's. -/
theorem writes_own [Ipnet] (net : Net N) (hsynced : ∀ n, (c.agents n).Synced) {label : Label N}
    (h : label.own = true) (k : N) : (c.agents k).Writes none ((c.step net label).agents k) := by
  cases label with
  | serve => cases h
  | advance => cases h
  | ask => cases h
  | timer n m => exact writes_setAgent (.reconcile _ m) k
  | assign n podCidr =>
    have hassign : (c.agents n).Writes none { c.agents n with podCidr } := .of_reconciler rfl
    exact writes_setAgent hassign k
  | wake n i snapshots connects =>
    refine writes_setAgent (.of_reconciler ?_) k
    rcases (c.agents n).wake_cases i snapshots connects c.fresh with heq | ⟨_, _, _, -, heq, -⟩
    · rw [heq]
    · rw [heq]
      rfl
  | exit n i =>
    refine writes_setAgent (.of_reconciler ?_) k
    rcases (c.agents n).exit_cases i with heq | ⟨_, -, heq⟩
    · rw [heq]
    · rw [heq]
      rfl
  | answer n i saves peerAddr =>
    refine .of_reconciler ?_
    rcases c.answer_cases net n i saves peerAddr with heq | ⟨_, _, _, -, -, _, heq, -⟩
    · rw [step, heq]
    · rw [step, heq, turn_reconciler, listen_reconciler]
  | abandon n i =>
    refine .of_reconciler ?_
    rcases c.abandon_cases net n i with heq | ⟨_, _, _, -, heq⟩
    · rw [step, heq]
    · rw [step, heq, turn_reconciler]
      rfl
  | send n i sends arrives prunes =>
    refine .of_reconciler ?_
    rcases c.send_cases n i sends arrives prunes with
      heq | ⟨_, _, _, -, ⟨-, heq⟩ | ⟨-, heq | ⟨_, _, -, -, heq⟩⟩⟩
    · rw [step, heq]
    · rw [step, heq, turn_reconciler]
    · rw [step, heq, turn_reconciler]
      rfl
    · rw [step, heq, conclude_reconciler]
      rfl
  | receive k works =>
    refine .of_reconciler ?_
    rcases c.receive_cases k works with heq | heq | ⟨_, _, -, -, -, heq⟩
    · rw [step, heq]
    · rw [step, heq]
      rfl
    · rw [step, heq, (stored_keeps ..).1]
  | record k saves => exact .of_reconciler (record_keeps ..).1
  | answerOrphan i saves peerAddr =>
    refine .of_reconciler ?_
    rw [step, answerOrphan]
    split
    · exact listen_reconciler ..
    · rfl
  | restart n =>
    rw [step, restart_agents]
    split
    · rename_i hk
      rw [hk]
      exact .restart (hsynced n)
    · exact .refl _

omit [DecidableEq N] in
theorem control_of_own {label : Label N} (h : label.own = true) : label.control = false := by
  cases label <;> first | rfl | cases h

/-- Any number of them. -/
theorem run_own [Ipnet] (net : Net N) (own : List {label : Label N // label.own = true}) :
    ∀ {c : Cluster N}, (∀ n, (c.agents n).Synced) →
      (c.run net (own.map Subtype.val)).worker = c.worker ∧
        ∀ k, (c.agents k).Writes none ((c.run net (own.map Subtype.val)).agents k) := by
  induction own with
  | nil => intro c _; exact ⟨rfl, fun k => .refl _⟩
  | cons label own ih =>
    intro c hsynced
    have hstep := fun k => writes_own net hsynced label.2 k
    obtain ⟨hworker, hwrites⟩ := ih fun n => (hstep n).synced (hsynced n)
    refine ⟨hworker.trans (c.step_control net (control_of_own label.2)).1, fun k => ?_⟩
    exact (hstep k).trans (hwrites k)

end Cluster

namespace Serial

open ControlPlane (Event Forward)

variable {N : Type} [DecidableEq N]

/-! ## What the log tells -/

/-- The two are the same, as far as records go. -/
structure Scene.Same (a b : Scene N) : Prop where
  specOf : ∀ k r, r ≠ "ingress" → (b.agents k).specOf r = (a.agents k).specOf r
  creators : b.creators = a.creators

namespace Entry

/-- What the forward of an entry was to write. -/
def writes? (x : Entry N) : Option (String × Option JailSpec) :=
  match x.event with
  | .sent _ f _ => f.request.writes?
  | _ => none

/-- What an entry makes of an agent's record. -/
def specAfter (x : Entry N) (k : N) (r : String) : Option JailSpec :=
  x.writes?.elim ((x.scene.agents k).specOf r) fun y =>
    if x.carriedBy = some k ∧ r = y.1 then y.2 else (x.scene.agents k).specOf r

/-- And of where it was created from. -/
def creatorAfter (x : Entry N) (k : N) (r : String) : Option ControlPlane.Site :=
  match x.event with
  | .sent _ f _ =>
    if x.carriedBy = some k ∧ (f.request.writes?.any fun y => y.1 == r && y.2.isSome) ∧
        (x.scene.agents k).specOf r = none then
      some f.site
    else x.scene.creators k r
  | _ => x.scene.creators k r

/-- **An entry tells what happened**: what the agents hold after it, who
carried it out, and why the control plane was answered as it was. -/
structure Tells (net : Net N) (x : Entry N) (after : Scene N) : Prop where
  specOf : ∀ k r, r ≠ "ingress" → (after.agents k).specOf r = x.specAfter k r
  creators : ∀ k r, after.creators k r = x.creatorAfter k r
  /-- Only the agent at the address carries a forward out. -/
  carried : ∀ k ∈ x.carriedBy, ∃ before f answer, x.event = .sent before f answer ∧
    net.http f.addr = some k
  /-- A success means it was carried out. -/
  accepted : ∀ before f answer, x.event = .sent before f answer →
    ControlPlane.accepted answer = true → ∃ k, x.carriedBy = some k
  /-- A `404` to a `DELETE` means there was no record. -/
  missing : ∀ before f answer r, x.event = .sent before f answer → f.request = .deleteJail r →
    ControlPlane.gone answer = true → x.carriedBy = none →
      ∃ k, net.http f.addr = some k ∧ (x.scene.agents k).specOf r = none
  planned : ∀ t before actions, x.event = .planned t before actions → x.now = t

end Entry

/-- **The log tells what became of the agents**, from a scene on. -/
inductive Truthful (net : Net N) (first : Scene N) : List (Entry N) → Scene N → Prop
  | start : Truthful net first [] first
  | own {l : List (Entry N)} {a b : Scene N} : Truthful net first l a → a.Same b →
      Truthful net first l b
  | act {l : List (Entry N)} {x : Entry N} {b : Scene N} : Truthful net first l x.scene →
      (∀ y ∈ l, y.now ≤ x.now) → x.Tells net b → Truthful net first (l ++ [x]) b

omit [DecidableEq N] in
theorem Scene.Same.refl (a : Scene N) : a.Same a := ⟨fun _ _ _ => rfl, rfl⟩

omit [DecidableEq N] in
theorem Scene.Same.trans {a b c : Scene N} (h : a.Same b) (h' : b.Same c) : a.Same c :=
  ⟨fun k r hr => (h'.specOf k r hr).trans (h.specOf k r hr), h'.creators.trans h.creators⟩

theorem Entry.Tells.same {net : Net N} {x : Entry N} {a b : Scene N} (h : x.Tells net a)
    (hsame : a.Same b) : x.Tells net b where
  specOf k r hr := (hsame.specOf k r hr).trans (h.specOf k r hr)
  creators k r := by rw [hsame.creators]; exact h.creators k r
  carried := h.carried
  accepted := h.accepted
  missing := h.missing
  planned := h.planned

namespace Truthful

variable {net : Net N} {first after : Scene N} {l : List (Entry N)} {x : Entry N}

theorem nil (h : Truthful net first [] after) : first.Same after := by
  generalize hl : ([] : List (Entry N)) = l at h
  induction h with
  | start => exact .refl first
  | own _ hsame ih => exact (ih hl).trans hsame
  | act => simp at hl

/-- The last entry, and what came before it. -/
theorem snoc (h : Truthful net first (l ++ [x]) after) :
    Truthful net first l x.scene ∧ (∀ y ∈ l, y.now ≤ x.now) ∧ x.Tells net after := by
  generalize hl : l ++ [x] = l' at h
  induction h with
  | start => simp at hl
  | own _ hsame ih =>
    obtain ⟨hbefore, hnow, htells⟩ := ih hl
    exact ⟨hbefore, hnow, htells.same hsame⟩
  | act hbefore hnow htells =>
    obtain ⟨rfl, hx⟩ := List.append_inj' hl rfl
    cases hx
    exact ⟨hbefore, hnow, htells⟩

end Truthful

/-! ## A forward -/

omit [DecidableEq N] in
theorem request_ne_putReplicateTo (f : Forward) (name : String)
    (body : Option (Except String String)) : f.request ≠ .putReplicateTo name body := by
  rw [ControlPlane.Forward.request.eq_def]
  split <;> simp

theorem isSuccess_of_ge {status : ℕ} (h : 400 ≤ status) : ControlPlane.isSuccess status = false := by
  simp only [ControlPlane.isSuccess, Bool.and_eq_false_imp, decide_eq_true_eq, decide_eq_false_iff_not]
  omega

section Forward

variable [Ipnet] {net : Net N} {s : State N}

/-- The agent a forward gets to answers it, and carries it out if that is
a success. -/
theorem ask_specOf (s : State N) (n : N) (m : Machine) (f : Forward) {agent : Option N}
    (hagent : agent =
      if ControlPlane.isSuccess ((s.cluster.agents n).handle m f.request).1.status then some n
      else none) :
    (∀ k, (s.cluster.agents k).Synced → ((s.cluster.ask n m f.request).agents k).Synced) ∧
    ∀ k r, r ≠ "ingress" → ((s.cluster.ask n m f.request).agents k).specOf r =
      (f.request.writes?.elim ((s.cluster.agents k).specOf r) fun x =>
        if agent = some k ∧ r = x.1 then x.2 else (s.cluster.agents k).specOf r) := by
  have hanswers := Agentd.Answers.handle (s.cluster.agents n) m f.request
    (request_ne_putReplicateTo f)
  have hothers : ∀ k, k ≠ n → (s.cluster.ask n m f.request).agents k = s.cluster.agents k := by
    intro k hk
    rw [Cluster.ask, Cluster.agents_setAgent, if_neg hk]
  have hself : (s.cluster.ask n m f.request).agents n =
      ((s.cluster.agents n).handle m f.request).2 := by
    rw [Cluster.ask, Cluster.agents_setAgent, if_pos rfl]
  -- An agent that did not carry the request out keeps its records.
  have hsame : ∀ k r, agent ≠ some k → (f.request.writes?.elim ((s.cluster.agents k).specOf r)
      fun x => if agent = some k ∧ r = x.1 then x.2 else (s.cluster.agents k).specOf r) =
        (s.cluster.agents k).specOf r := by
    intro k r hk
    cases f.request.writes? with
    | none => rfl
    | some x => rw [Option.elim_some, if_neg fun h => hk h.1]
  have hsynced : (s.cluster.agents n).Synced →
      ((s.cluster.agents n).handle m f.request).2.Synced := by
    rcases hanswers with ⟨-, hwrites⟩ | ⟨-, hwrites⟩ <;> exact hwrites.synced
  refine ⟨fun k hk => ?_, fun k r hr => ?_⟩
  · by_cases hkn : k = n
    · subst hkn
      rw [hself]
      exact hsynced hk
    · rwa [hothers k hkn]
  · by_cases hkn : k = n
    · subst hkn
      rw [hself]
      rcases hanswers with ⟨hstatus, hwrites⟩ | ⟨hstatus, hwrites⟩
      · rw [hstatus, if_pos (by decide)] at hagent
        rw [hwrites.specOf r hr, hagent]
        simp only [true_and]
      · -- An error: nobody carried it out, and nothing was written.
        rw [isSuccess_of_ge hstatus, if_neg (by simp)] at hagent
        rw [hsame k r (by rw [hagent]; nofun), hwrites.specOf r hr]
        rfl
    · have hne : agent ≠ some k := by
        rw [hagent]
        split
        · exact fun h => hkn (Option.some.inj h).symm
        · nofun
      rw [hothers k hkn, hsame k r hne]

omit [Ipnet] in
theorem specAfter_of_none {x : Entry N} (h : x.carriedBy = none) (k : N) (r : String) :
    x.specAfter k r = (x.scene.agents k).specOf r := by
  rw [Entry.specAfter]
  cases x.writes? with
  | none => rfl
  | some y => rw [Option.elim_some, if_neg (by rw [h]; nofun)]

omit [Ipnet] in
/-- A forward that gets to nobody. -/
theorem tells_undelivered (s : State N) (f : Forward) (message : String) :
    (⟨s.clock, s.scene, none, .sent s.worker f (.error message)⟩ : Entry N).Tells net
      ⟨s.cluster.agents, s.created none f⟩ where
  specOf k r _ := by rw [specAfter_of_none rfl]; rfl
  creators k r := rfl
  carried k hk := nomatch hk
  accepted before g answer heq hacc := by
    cases heq
    cases hacc
  missing before g answer r heq _ hgone := by
    cases heq
    cases hgone
  planned t before actions heq := nomatch heq

omit [Ipnet] in
/-- What is no forward leaves the agents alone. -/
theorem tells_note (s : State N) {e : Event} (hsent : ∀ before f answer, e ≠ .sent before f answer)
    (hplanned : ∀ t before actions, e = .planned t before actions → s.clock = t) :
    (⟨s.clock, s.scene, none, e⟩ : Entry N).Tells net s.scene where
  specOf k r _ := by rw [specAfter_of_none rfl]
  creators k r := by
    cases e with
    | sent before f answer => exact absurd rfl (hsent before f answer)
    | planned => rfl
    | applied => rfl
  carried k hk := nomatch hk
  accepted before f answer heq := absurd heq (hsent before f answer)
  missing before f answer r heq := absurd heq (hsent before f answer)
  planned := hplanned

/-- **A forward that gets to an agent**, and what is made of its answer. -/
theorem tells_delivered (s : State N) {n : N} {m : Machine} {f : Forward} {agent : Option N}
    {answer : ControlPlane.ForwardResult} (hn : net.http f.addr = some n)
    (hagent : agent =
      if ControlPlane.isSuccess ((s.cluster.agents n).handle m f.request).1.status then some n
      else none)
    (hanswer : ∀ status text, answer = .ok (status, text) →
      status = ((s.cluster.agents n).handle m f.request).1.status)
    (htears : ∀ e, m.tearDown = .error e → statusForError e ≠ 404) :
    (⟨s.clock, s.scene, agent, .sent s.worker f answer⟩ : Entry N).Tells net
      ⟨(s.cluster.ask n m f.request).agents, s.created agent f⟩ where
  specOf k r hr := (ask_specOf s n m f hagent).2 k r hr
  creators k r := rfl
  carried k hk := by
    refine ⟨_, _, _, rfl, ?_⟩
    simp only [hagent] at hk
    split at hk
    · cases hk
      exact hn
    · cases hk
  accepted before g answer' heq hacc := by
    cases heq
    rcases answer with e | ⟨status, text⟩
    · cases hacc
    · rw [ControlPlane.accepted, hanswer status text rfl] at hacc
      exact ⟨n, by rw [hagent, if_pos hacc]⟩
  missing before g answer' r heq hrequest hgone hnone := by
    cases heq
    refine ⟨n, hn, ?_⟩
    rcases answer with e | ⟨status, text⟩
    · cases hgone
    · have hstatus := hanswer status text rfl
      simp only [hagent] at hnone
      split at hnone
      · cases hnone
      · -- Not carried out and yet gone: the answer was `404`.
        rename_i hfail
        rw [← hstatus] at hfail
        simp only [ControlPlane.gone, hfail, Bool.false_or, beq_iff_eq] at hgone
        rw [hgone, hrequest] at hstatus
        exact (Agentd.handle_deleteJail _ m r htears).1 hstatus.symm
  planned t before actions heq := nomatch heq

/-- **A forward is carried out or not**, and the log tells. -/
theorem tells_forward (s : State N) (m : Machine) (delivery : Delivery) (f : Forward)
    (htears : ∀ e, m.tearDown = .error e → statusForError e ≠ 404) :
    (⟨s.clock, s.scene, s.carriedBy net m delivery f, .sent s.worker f
        (s.cluster.forward net m delivery f).1⟩ : Entry N).Tells net
      ⟨(s.cluster.forward net m delivery f).2.agents, s.created (s.carriedBy net m delivery f) f⟩ := by
  rw [Cluster.forward.eq_def, State.carriedBy.eq_def]
  rcases hn : net.http f.addr with _ | n
  · cases delivery <;> exact tells_undelivered s f "connection refused"
  · cases delivery with
    | delivered =>
      refine tells_delivered s hn rfl (fun status text h => ?_) htears
      cases h
      rfl
    | lost message => exact tells_undelivered s f message
    | unanswered message => exact tells_delivered s hn rfl (fun _ _ h => by cases h) htears

theorem synced_forward {s : State N} (h : ∀ n, (s.cluster.agents n).Synced) (m : Machine)
    (delivery : Delivery) (f : Forward) (k : N) :
    ((s.cluster.forward net m delivery f).2.agents k).Synced := by
  rw [Cluster.forward.eq_def]
  rcases net.http f.addr with _ | n
  · exact h k
  · cases delivery with
    | delivered => exact (ask_specOf s n m f rfl).1 k (h k)
    | lost message => exact h k
    | unanswered message => exact (ask_specOf s n m f rfl).1 k (h k)

end Forward

/-! ## Requests -/

/-- The control plane's part of a world. -/
def World.control (w : World N) : ControlPlane.World :=
  ⟨w.state.worker, w.log.map Entry.event⟩

/-- **What is kept while a request is served**: the agents' disks are as
their memories, the log tells what became of their records, and nothing
in it is later than now. -/
structure World.Sound (net : Net N) (s : State N) (w : World N) : Prop where
  synced : ∀ n, (w.state.cluster.agents n).Synced
  truthful : Truthful net s.scene w.log w.state.scene
  clock : s.clock ≤ w.state.clock
  now : ∀ x ∈ w.log, s.clock ≤ x.now ∧ x.now ≤ w.state.clock

namespace World.Sound

variable [Ipnet] {net : Net N} {s : State N} {w : World N} (h : w.Sound net s)

include h

/-- Time passes. -/
theorem meanwhile (o : Circumstance N) :
    (w.state.meanwhile net o).worker = w.state.worker ∧
      (⟨w.state.meanwhile net o, w.log⟩ : World N).Sound net s := by
  obtain ⟨hworker, hwrites⟩ := Cluster.run_own net o.own h.synced
  refine ⟨hworker, fun n => (hwrites n).synced (h.synced n), h.truthful.own ⟨?_, rfl⟩, ?_, ?_⟩
  · exact fun k r hr => (hwrites k).specOf r hr
  · exact h.clock.trans (Nat.le_add_right _ _)
  · exact fun x hx => ⟨(h.now x hx).1, (h.now x hx).2.trans (Nat.le_add_right _ _)⟩

theorem command (o : Circumstance N) {ρ : Type} (c : ControlPlane.Command ρ) :
    (World.command net o c w).2.Sound net s ∧
      ∃ o', ControlPlane.World.command o' c w.control =
        ((World.command net o c w).1, (World.command net o c w).2.control) := by
  obtain ⟨hworker, hsound⟩ := h.meanwhile o
  refine ⟨⟨hsound.synced, ?_, hsound.clock, ?_⟩,
    ⟨(w.state.meanwhile net o).clock, o.order, .error ""⟩, ?_⟩
  · rcases c.note_cases (w.state.meanwhile net o).clock (w.state.meanwhile net o).worker
      (ControlPlane.Worker.handleCommand (w.state.meanwhile net o).clock o.order c
        (w.state.meanwhile net o).worker).1 with hnote | ⟨e, hnote, hsent, hplanned⟩
    · simp only [World.command, hnote, List.map_nil, List.append_nil]
      exact hsound.truthful
    · simp only [World.command, hnote, List.map_cons, List.map_nil]
      exact .act hsound.truthful (fun x hx => (hsound.now x hx).2) (tells_note _ hsent hplanned)
  · intro x hx
    rcases List.mem_append.1 hx with hx | hx
    · exact hsound.now x hx
    · obtain ⟨e, -, rfl⟩ := List.mem_map.1 hx
      exact ⟨hsound.clock, le_rfl⟩
  · simp only [World.command, ControlPlane.World.command, World.control, hworker]
    rw [List.map_append, List.map_map]
    have hid : (Entry.event ∘ fun e => (⟨(w.state.meanwhile net o).clock,
        (w.state.meanwhile net o).scene, none, e⟩ : Entry N)) = id := rfl
    rw [hid, List.map_id]
    rfl

theorem forward (o : Circumstance N) (f : Forward) :
    (World.forward net o f w).2.Sound net s ∧
      ∃ o', ControlPlane.World.forward o' f w.control =
        ((World.forward net o f w).1, (World.forward net o f w).2.control) := by
  obtain ⟨hworker, hsound⟩ := h.meanwhile o
  have htells : Entry.Tells net _ _ :=
    tells_forward (w.state.meanwhile net o) o.machine o.delivery f o.tearsDown
  refine ⟨⟨synced_forward hsound.synced o.machine o.delivery f,
    .act hsound.truthful (fun x hx => (hsound.now x hx).2) htells, hsound.clock, fun x hx => ?_⟩,
    ⟨0, .listed, (World.forward net o f w).1⟩, ?_⟩
  · rcases List.mem_append.1 hx with hx | hx
    · exact hsound.now x hx
    · rw [List.mem_singleton.1 hx]
      exact ⟨hsound.clock, le_rfl⟩
  · have hsame := ((w.state.meanwhile net o).cluster.forward_control net o.machine o.delivery f).1
    rw [State.worker, State.worker] at hworker
    simp only [ControlPlane.World.forward, World.control, World.forward, List.map_append,
      List.map_cons, List.map_nil, State.worker, hsame, hworker]

end World.Sound

/-- **A request of the serial cluster is one of the control plane**, whose
answers are the agents'. -/
theorem simulates [Ipnet] (net : Net N) (s : State N) :
    Prog.Simulates ControlPlane.semantics (semantics net) World.control (World.Sound net s) :=
  ⟨fun o' c _ h => h.command o' c, fun o' f _ h => h.forward o' f⟩

/-! ## What a request does -/

/-- A state between requests: the agents' disks are as their memories. -/
def State.Synced (s : State N) : Prop := ∀ n, (s.cluster.agents n).Synced

theorem State.Synced.sound {s : State N} (h : s.Synced) (net : Net N) :
    (⟨s, []⟩ : World N).Sound net s :=
  ⟨h, .start, le_rfl, fun _ hx => by cases hx⟩

omit [DecidableEq N] in
/-- A new agent has no records. -/
theorem start_reconciler (clusterCidr serviceCidr : Ipv4Net) (pools : N → String)
    (zfs : N → FakeZfsManager) (n : N) :
    ((start clusterCidr serviceCidr pools zfs).cluster.agents n).reconciler = .new (pools n) ∅ :=
  Agentd.startAll_reconciler _

omit [DecidableEq N] in
theorem start_synced (clusterCidr serviceCidr : Ipv4Net) (pools : N → String)
    (zfs : N → FakeZfsManager) : (start clusterCidr serviceCidr pools zfs).Synced := by
  intro n
  rw [Agentd.Synced, start_reconciler]
  rfl

/-- What a program that is handled by moves of a request leaves, from a
world on. -/
theorem run_moves [Ipnet] {net : Net N} {request : ControlPlane.Request} {α : Type}
    {p : ControlPlane.Handler α} (hp : ControlPlane.Handled request p) {s : State N} {w : World N}
    (h : w.Sound net s) (o : ℕ → Circumstance N) (i : ℕ) :
    ControlPlane.Moves request w.control (p.run (semantics net) o i w).2.control ∧
      (p.run (semantics net) o i w).2.Sound net s :=
  Prog.wp_run (Prog.wp_of_simulates (simulates net s) h (hp w.control))

/-- **A request served**: its call on the registry, if it has one, and then
steps that leave the registry alone. -/
structure Served.Splits (net : Net N) (x : Served N) (worker : ControlPlane.Worker)
    (begun : ControlPlane.Instant) : Prop where
  call : worker = x.before.worker ∧ begun = x.before.clock ∨
    begun = x.now ∧ x.before.clock ≤ begun ∧ ∃ call, x.request.registryCall x.now = some call ∧
      worker = { x.before.worker with registry := x.before.worker.registry.call call }
  quiets : ControlPlane.Quiets ⟨worker, []⟩ ⟨x.after.worker, x.log.map Entry.event⟩
  truthful : Truthful net x.before.scene x.log x.after.scene
  synced : x.after.Synced
  begun_le : begun ≤ x.after.clock
  now : ∀ e ∈ x.log, begun ≤ e.now ∧ e.now ≤ x.after.clock

theorem serve_splits [Ipnet] (net : Net N) (request : ControlPlane.Request)
    (o : ℕ → Circumstance N) {s : State N} (hs : s.Synced) :
    ∃ worker begun, (serve net request o s).Splits net worker begun := by
  have hsound := hs.sound net
  rcases ControlPlane.registryCall_cases request with hcall | ⟨ρ, c, k, hhandler, hcall, hnote, hk⟩
  · obtain ⟨hmoves, hafter⟩ := run_moves (ControlPlane.handler_moves request) hsound o 0
    exact ⟨s.worker, s.clock, Or.inl ⟨rfl, rfl⟩, hmoves.quiet hcall, hafter.truthful, hafter.synced,
      hafter.clock, hafter.now⟩
  · -- The first command is the call; what follows it moves no registry.
    obtain ⟨hfirst, -⟩ := hsound.command (o 0) c
    obtain ⟨hworker, -⟩ := hsound.meanwhile (o 0)
    let w₁ := (World.command net (o 0) c ⟨s, []⟩).2
    let reply := (World.command net (o 0) c ⟨s, []⟩).1
    have hlog : w₁.log = [] := by
      simp only [w₁, World.command, hnote, List.map_nil, List.append_nil]
    let run := (k reply).run (semantics net) o 1 w₁
    have hserve : serve net request o s =
        ⟨request, s, s.clock + (o 0).elapsed, run.1, run.2.log, run.2.state⟩ := by
      rw [serve, hhandler]
      rfl
    obtain ⟨hmoves, hafter⟩ := run_moves (hk .listNodes reply) hfirst o 1
    obtain ⟨call, hcall, hcalled⟩ := hcall (s.clock + (o 0).elapsed) (o 0).order s.worker
    have hcontrol : w₁.control =
        ⟨{ s.worker with registry := s.worker.registry.call call }, []⟩ := by
      rw [World.control, hlog, ← hcalled, ← hworker]
      rfl
    have hstart := State.Synced.sound (s := w₁.state) hfirst.synced net
    rw [← hlog] at hstart
    obtain ⟨-, hsince⟩ := run_moves (hk .listNodes reply) hstart o 1
    rw [hserve]
    refine ⟨_, _, Or.inr ⟨rfl, Nat.le_add_right _ _, call, hcall, rfl⟩, ?_, hafter.truthful,
      hafter.synced, hsince.clock, hsince.now⟩
    have hquiet := hmoves.quiet fun _ => rfl
    rw [hcontrol] at hquiet
    exact hquiet

/-- **The rule for runs**: what every request that meets the condition
makes of the invariant holds of every request of a run whose requests all
meet it. -/
theorem history_rule [Ipnet] {net : Net N} {I : State N → Prop} {C P : Served N → Prop}
    (hrequest : ∀ {x worker begun}, x.Splits net worker begun → C x → I x.before →
      P x ∧ I x.after) (script : Script N) :
    ∀ {s : State N}, s.Synced → I s → (∀ x ∈ history net s script, C x) →
      ∀ x ∈ history net s script, P x := by
  induction script with
  | nil => intro s _ _ _ x hx; cases hx
  | cons step rest ih =>
    obtain ⟨request, o⟩ := step
    intro s hsynced hI hC x hx
    obtain ⟨worker, begun, hsplits⟩ := serve_splits net request o hsynced
    obtain ⟨hserved, hafter⟩ := hrequest hsplits (hC _ List.mem_cons_self) hI
    rcases List.mem_cons.1 hx with rfl | hx
    · exact hserved
    · exact ih hsplits.synced hafter (fun y hy => hC y (List.mem_cons_of_mem _ hy)) x hx

/-! ## Invariants

What holds of the tables and the agents is proved from step to step of the
control plane, for every log that tells of it. -/

/-- `K` holds of a log, the tables and the agents, whatever the log tells
of the agents. -/
def Kept (net : Net N) (first : Scene N)
    (K : List (Entry N) → ControlPlane.Worker → Scene N → Prop) (w : ControlPlane.World) : Prop :=
  ∀ l scene, l.map Entry.event = w.log → Truthful net first l scene → K l w.worker scene

namespace Kept

variable {net : Net N} {first : Scene N}
  {K : List (Entry N) → ControlPlane.Worker → Scene N → Prop}

/-- Before anything happens. -/
theorem begin {worker : ControlPlane.Worker} (h : ∀ scene, first.Same scene → K [] worker scene) :
    Kept net first K ⟨worker, []⟩ := by
  intro l scene hl htruthful
  cases List.map_eq_nil_iff.1 hl
  exact h scene htruthful.nil

/-- **One thing more happens.** -/
theorem act {K' : List (Entry N) → ControlPlane.Worker → Scene N → Prop} {w : ControlPlane.World}
    {worker : ControlPlane.Worker} {e : Event} (h : Kept net first K w)
    (hact : ∀ l x scene, l.map Entry.event = w.log → x.event = e → Truthful net first l x.scene →
      (∀ y ∈ l, y.now ≤ x.now) → x.Tells net scene → K l w.worker x.scene →
        K' (l ++ [x]) worker scene) :
    Kept net first K' ⟨worker, w.log ++ [e]⟩ := by
  intro l' scene hl' htruthful
  obtain ⟨l, rest, rfl, hl, hrest⟩ := List.map_eq_append_iff.1 hl'
  obtain ⟨x, rfl, hx⟩ := List.map_eq_singleton_iff.1 hrest
  obtain ⟨hbefore, hnow, htells⟩ := htruthful.snoc
  exact hact l x scene hl hx hbefore hnow htells (h l x.scene hl hbefore)

end Kept

/-! ## Who listens where -/

/-- The registration a request is. -/
def registration? : ControlPlane.Request → Option ControlPlane.NodeRegistration
  | .register (.ok r) => some r
  | _ => none

/-- A node registers at an address of its own agent. -/
def Registers (net : Net N) (request : ControlPlane.Request) : Prop :=
  ∀ r ∈ registration? request, ∀ k, net.http r.addr = some k → net.nodeId k = r.id

instance [Fintype N] (net : Net N) : DecidablePred (Registers net) := fun request =>
  inferInstanceAs (Decidable (∀ _ ∈ registration? request, _))

/-- The addresses on record are the nodes' own. -/
def Honest (net : Net N) (registry : ControlPlane.Registry) : Prop :=
  ∀ id record, registry.nodes.lookup id = some record →
    ∀ k, net.http record.addr = some k → net.nodeId k = id

namespace Honest

omit [DecidableEq N]

variable {net : Net N} {registry : ControlPlane.Registry}

theorem nodeId_eq (h : Honest net registry) {id addr : String} {now : ControlPlane.Instant} {k : N}
    (hresolve : registry.resolve id now = .ok addr) (hk : net.http addr = some k) :
    net.nodeId k = id := by
  simp only [ControlPlane.Registry.resolve] at hresolve
  split at hresolve
  · cases hresolve
  rename_i record hrecord
  split at hresolve
  · cases hresolve
  · cases hresolve
    exact h id record hrecord k hk

theorem insert (h : Honest net registry) {id : String} {record : ControlPlane.NodeRecord}
    (hrecord : ∀ k, net.http record.addr = some k → net.nodeId k = id) :
    Honest net { registry with nodes := registry.nodes.insert id record } := by
  intro id' record' hlookup k hk
  simp only [Table.lookup_insert_eq] at hlookup
  split at hlookup
  · rename_i heq
    cases hlookup
    rw [heq]
    exact hrecord k hk
  · exact h id' record' hlookup k hk

/-- A call keeps them so. -/
theorem call (h : Honest net registry) {request : ControlPlane.Request}
    (hrequest : Registers net request) {now : ControlPlane.Instant}
    {call : ControlPlane.RegistryCall} (hcall : request.registryCall now = some call) :
    Honest net (registry.call call) := by
  rw [ControlPlane.Request.registryCall.eq_def] at hcall
  split at hcall
  · rename_i r
    cases hcall
    simp only [ControlPlane.Registry.call, ControlPlane.Registry.register]
    split
    · exact h
    · exact h.insert (hrequest r rfl)
  · rename_i id hb
    cases hcall
    simp only [ControlPlane.Registry.call, ControlPlane.Registry.heartbeat]
    split
    · rename_i record hrecord
      exact h.insert fun k hk => h id record hrecord k hk
    · exact h
  · cases hcall

end Honest

/-- Who carries a routed forward out is the node it goes to. -/
theorem Entry.Tells.nodeId_eq {net : Net N} {x : Entry N} {scene : Scene N}
    (h : x.Tells net scene) {before : ControlPlane.Worker} {f : Forward}
    {answer : ControlPlane.ForwardResult} (hx : x.event = .sent before f answer)
    (hrouted : x.event.Routed) (hhonest : Honest net before.registry) {k : N}
    (hk : x.carriedBy = some k) : net.nodeId k = f.nodeId := by
  obtain ⟨before', f', answer', hx', hnet⟩ := h.carried k hk
  rw [hx] at hx' hrouted
  cases hx'
  obtain ⟨now, hresolve⟩ := hrouted
  exact hhonest.nodeId_eq hresolve hnet

/-- A plan in the log was made no later than its last entry. -/
theorem Truthful.planned_le {net : Net N} {first scene : Scene N} {l : List (Entry N)}
    (h : Truthful net first l scene) {t t' : ControlPlane.Instant} {before : ControlPlane.Worker}
    {actions : List ControlPlane.ReplicaAction}
    (hmem : .planned t before actions ∈ l.map Entry.event) (hnow : ∀ x ∈ l, x.now ≤ t') :
    t ≤ t' := by
  obtain ⟨x, hx, hevent⟩ := List.mem_map.1 hmem
  have htells : x.now = t := by
    clear hnow hmem
    induction h with
    | start => cases hx
    | own _ _ ih => exact ih hx
    | act _ _ htells ih =>
      rcases List.mem_append.1 hx with hx | hx
      · exact ih hx
      · cases List.mem_singleton.1 hx
        exact htells.planned t before actions hevent
  rw [← htells]
  exact hnow x hx

/-! ## What a forward writes -/

section Writes

variable {f : Forward} {name r : String} {y : Option JailSpec}

omit [DecidableEq N] in
theorem Entry.writes?_sent {x : Entry N} {before : ControlPlane.Worker}
    {answer : ControlPlane.ForwardResult} (h : x.event = .sent before f answer) :
    x.writes? = f.request.writes? := by
  rw [Entry.writes?, h]

omit [DecidableEq N] in
/-- What is written down and sent nowhere writes nothing. -/
theorem Entry.writes?_of_unsent {x : Entry N} (h : ∀ before f answer, x.event ≠ .sent before f answer) :
    x.writes? = none := by
  rw [Entry.writes?]
  split
  · rename_i before f answer hsent
    exact absurd hsent (h before f answer)
  · rfl

/-- What a forward does not write stays. -/
theorem Entry.specAfter_of_unwritten {x : Entry N} {k : N}
    (h : x.carriedBy = some k → ∀ y, x.writes? ≠ some (r, y)) :
    x.specAfter k r = (x.scene.agents k).specOf r := by
  rw [specAfter]
  cases hwrites : x.writes? with
  | none => rfl
  | some y =>
    rw [Option.elim_some, if_neg]
    rintro ⟨hk, rfl⟩
    exact h hk y.2 hwrites

theorem Entry.creatorAfter_of_unwritten {x : Entry N} {k : N}
    (h : x.carriedBy = some k → ∀ y, x.writes? ≠ some (r, y)) :
    x.creatorAfter k r = x.scene.creators k r := by
  rw [creatorAfter]
  split
  · rename_i before f answer hevent
    rw [if_neg]
    rintro ⟨hk, hany, -⟩
    obtain ⟨y, hy, hyr⟩ := (Option.any_eq_true _ _).1 hany
    rw [Bool.and_eq_true, beq_iff_eq] at hyr
    refine h hk y.2 ?_
    rw [writes?_sent hevent, hy, ← hyr.1]
  · rfl

theorem writes?_delete (hmethod : f.method = .delete) (hpath : f.path = .jail name) :
    f.request.writes? = some (name, none) := by
  rcases f with ⟨addr, method, path, body, nodeId, site⟩
  cases hmethod
  cases hpath
  rfl

/-- A `PUT` writes the jail it is of. -/
theorem writes?_put (hmethod : f.method = .put) (hpath : f.path = .jail name)
    (h : f.request.writes? = some (r, y)) : r = name ∧ y.isSome = true := by
  rcases f with ⟨addr, method, path, body, nodeId, site⟩
  cases hmethod
  cases hpath
  rcases body with _ | _ | spec
  · cases h
  · cases h
  · cases h
    exact ⟨rfl, rfl⟩

/-- What writes a spec is a `PUT` of it. -/
theorem put_of_writes? {spec : JailSpec} (h : f.request.writes? = some (r, some spec)) :
    f.method = .put ∧ f.path = .jail r := by
  rcases f with ⟨addr, method, path, body, nodeId, site⟩
  cases method with
  | get => cases path <;> cases h
  | delete => cases path <;> cases h
  | put =>
    cases path with
    | jail name =>
      rcases body with _ | _ | spec
      · cases h
      · cases h
      · cases h
        exact ⟨rfl, rfl⟩
    | _ => cases h

/-- What only reads writes nothing. -/
theorem writes?_read (hget : ∀ name, f.path = .jail name → f.method = .get) :
    f.request.writes? = none := by
  rcases f with ⟨addr, method, path, body, nodeId, site⟩
  cases path with
  | jail name =>
    cases hget name rfl
    rfl
  | jails => cases method <;> rfl
  | volume name => cases method <;> rfl
  | replicaTarget name => cases method <;> rfl

end Writes

end Serial

end Keel
