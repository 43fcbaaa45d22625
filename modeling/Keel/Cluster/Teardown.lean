import Keel.Cluster.Helpers.Serial
/-!
# Tear-downs of what is gone

A `DELETE` may be carried out and its answer lost. The replica then stays
placed, and the next pass tears it down again: its agent, which has no
record of it any more, answers `404`. `check_and_execute_fencing` takes
that for an answer, as the jail is gone, and `execute_replica_actions`
does not: it writes the tables on a success alone. So a tear-down of a
replica its agent has no record of never takes it off the tables
(`tearDown_keeps_tables`), however often it is sent.
-/

namespace Keel

namespace Serial

open ControlPlane (executeReplicaAction)

variable {N : Type} [DecidableEq N]

/-- The replica is placed on a node that is alive and reached at `addr`,
and the agent there has no record of it. -/
structure Vanished (net : Net N) (s : State N) (r nodeId addr : String) (agent : N) : Prop where
  placed : s.worker.placements.lookup r = some nodeId
  alive : s.worker.registry.resolve nodeId s.clock = .ok addr
  reached : net.http addr = some agent
  missing : (s.cluster.agents agent).specOf r = none

/-- What a tear-down is for: the replica is off `Placements`, and its
address off `UsedAddresses`. -/
def Released (w : ControlPlane.Worker) (r : String) : Prop :=
  w.placements.lookup r = none ∧ w.usedAddresses.byJail.lookup r = none

instance (w : ControlPlane.Worker) (r : String) : Decidable (Released w r) :=
  inferInstanceAs (Decidable (_ ∧ _))

/-- A `DELETE` of what the agent has no record of is answered `404`. -/
theorem status_deleteJail [Ipnet] {a : Agent.Agentd} {r : String} (m : Agent.Machine)
    (hmissing : a.specOf r = none) : (a.handle m (.deleteJail r)).1.status = 404 := by
  have hrecord : a.reconciler.records.lookup r = none := by
    rwa [Agent.Agentd.specOf, Option.map_eq_none_iff] at hmissing
  simp only [Agent.Agentd.handle, Agent.Agentd.handleReply, Agent.Agentd.handleCommand,
    Agent.Agentd.delete, Agent.Reconciler.delete, hrecord]
  rfl

/-- **A tear-down of what is gone is never done with**: the agent answers
`404`, and the replica keeps its place and its address. -/
theorem tearDown_keeps_tables [Ipnet] (net : Net N) (w : World N) (o : ℕ → Circumstance N) (i : ℕ)
    {r nodeId addr : String} {agent : N}
    (hvanished : Vanished net (w.state.meanwhile net (o i)) r nodeId addr agent)
    (hdelivered : (o i).delivery = .delivered) :
    let s := w.state.meanwhile net (o i)
    let w' := ((executeReplicaAction (.tearDown r nodeId addr)).run (semantics net) o i w).2
    (∃ f text, w'.log = w.log ++ [⟨s.clock, s.scene, none, .sent s.worker f (.ok (404, text))⟩]) ∧
      w'.state.worker = s.worker ∧ ¬ Released w'.state.worker r := by
  intro s w'
  let f : ControlPlane.Forward := ⟨addr, .delete, .jail r, .empty, nodeId, .tearDown⟩
  have hreached : net.http f.addr = some agent := hvanished.reached
  have hstatus : ((s.cluster.agents agent).handle (o i).machine f.request).1.status = 404 :=
    status_deleteJail (o i).machine hvanished.missing
  -- The agent is asked and answers `404`, having no record.
  have hcarried : s.carriedBy net (o i).machine (o i).delivery f = none := by
    simp only [State.carriedBy, hreached, hdelivered, hstatus]
    rfl
  obtain ⟨text, hanswer⟩ : ∃ text, (World.forward net (o i) f w).1 = .ok (404, text) := by
    refine ⟨((s.cluster.agents agent).handle (o i).machine f.request).1.error.getD "", ?_⟩
    rw [← hstatus]
    simp only [World.forward, Cluster.forward, hreached, hdelivered]
    rfl
  -- The answer is no success, so the handler is done with the action.
  have hrun : w' = (World.forward net (o i) f w).2 := by
    simp only [w', executeReplicaAction, Prog.bind_eq, Prog.call_bind, Prog.run, semantics]
    rw [hanswer]
    rfl
  have hworker : w'.state.worker = s.worker := by
    rw [hrun]
    exact (s.cluster.forward_control net (o i).machine (o i).delivery f).1
  refine ⟨⟨f, text, ?_⟩, hworker, fun hreleased => ?_⟩
  · rw [hrun, ← hanswer, ← hcarried]
    rfl
  · have hplaced : w'.state.worker.placements.lookup r = some nodeId := by
      rw [hworker]
      exact hvanished.placed
    rw [hreleased.1] at hplaced
    cases hplaced

namespace Sample

open ControlPlane.Sample (register heartbeat service)

/-- `web-0` is created on `a`; `web` is scaled down, and `a` deletes
`web-0` without the control plane hearing of it. -/
def deletedUnheard : Script (Fin 4) :=
  [(register "a", after 0), (service "web" 1 [], after 1), (service "web" 0 [], afterUnanswered 1 2)]

end Sample

open Sample Cluster.Sample Agent.Sample in
theorem tearDown_keeps_tables_sample :
    .tearDown "web-0" "a" "a:7621" ∈
        (final net spawn deletedUnheard).worker.reconcileServices (2 * ControlPlane.second) ∧
      ¬ Released ((executeReplicaAction (.tearDown "web-0" "a" "a:7621")).run (semantics net)
        (after 0) 0 ⟨final net spawn deletedUnheard, []⟩).2.state.worker "web-0" := by
  refine ⟨by decide +kernel, ?_⟩
  have hvanished : Vanished net ((final net spawn deletedUnheard).meanwhile net (after 0 0)) "web-0"
      "a" "a:7621" 0 :=
    ⟨by decide +kernel, by decide +kernel, by decide +kernel, by decide +kernel⟩
  exact (tearDown_keeps_tables net ⟨final net spawn deletedUnheard, []⟩ (after 0) 0 hvanished
    rfl).2.2

open Sample Cluster.Sample Agent.Sample ControlPlane.Sample in
/-- **A heartbeat later** `web-0` is torn down once more, answered `404`,
and is still placed and has its address. -/
theorem tearDown_unheard :
    Vanished net (final net spawn deletedUnheard) "web-0" "a" "a:7621" 0 ∧
      ((serve net (heartbeat "a") (after 1) (final net spawn deletedUnheard)).log.any fun x =>
        match x.event with
        | .sent _ f (.ok (404, _)) => f.site == .tearDown && f.jail? == some "web-0"
        | _ => false) ∧
      ¬ Released (serve net (heartbeat "a") (after 1)
        (final net spawn deletedUnheard)).after.worker "web-0" :=
  ⟨⟨by decide +kernel, by decide +kernel, by decide +kernel, by decide +kernel⟩, by decide +kernel,
    by decide +kernel⟩

end Serial

end Keel
