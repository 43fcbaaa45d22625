import Keel.ControlPlane.Helpers.Steps
import Keel.ControlPlane.Helpers.Plan
/-!
# Fencing

A force-repin moves a replica off a node that stopped answering, and
leaves that node a debt: the forced delete of the replica, paid at the
node's next heartbeat. Two things are asked of the debt. It is kept until
the node confirms that the jail is gone; and paying it never deletes the
replica where it now lives.

The table of debts holds one node a replica, and nothing strikes a debt
off when the replica is put back on the node that owes it. So the first
holds as long as no second force-repin of the replica is accepted while
another node still owes its delete (`KeepsFence`), and the second as long
as no node accepts a replica whose delete it owes (`SparesOwed`). Both
conditions can fail, and `fence_overwritten` and `fence_hits_primary` are
runs in which they do.
-/

namespace Keel

namespace ControlPlane

namespace Event

/-- The node owing the delete of `r` was sent it, and the jail is gone. -/
def Fenced (r n : String) : Event → Prop
  | .sent _ f answer =>
    f.site = .fencing ∧ f.method = .delete ∧ f.path = .jail r ∧ f.nodeId = n ∧ gone answer = true
  | _ => False

/-- A promotion of `r` is accepted only while nobody, or the very node
`r` is leaving, owes its delete. -/
def KeepsFence (r : String) : Event → Prop
  | .sent before f answer =>
    f.site = .promote → f.path = .jail r → accepted answer = true →
      before.pendingFences.lookup r = none ∨
        before.pendingFences.lookup r = before.placements.lookup r
  | _ => True

/-- The forced delete of a jail does not go to the node the jail is
placed on. -/
def FencesNoPrimary : Event → Prop
  | .sent before f _ =>
    f.site = .fencing → ∀ r ∈ f.jail?, before.placements.lookup r ≠ some f.nodeId
  | _ => True

/-- A node that owes the delete of a jail does not accept the jail,
unless by a promotion. -/
def SparesOwed : Event → Prop
  | .sent before f answer =>
    f.method = .put → f.site ≠ .promote → accepted answer = true →
      ∀ r ∈ f.jail?, before.pendingFences.lookup r ≠ some f.nodeId
  | _ => True

instance (r n : String) : DecidablePred (Fenced r n)
  | .sent .. => inferInstanceAs (Decidable (_ ∧ _))
  | .planned .. => inferInstanceAs (Decidable False)
  | .applied .. => inferInstanceAs (Decidable False)

instance (r : String) : DecidablePred (KeepsFence r)
  | .sent .. => inferInstanceAs (Decidable (_ → _))
  | .planned .. => inferInstanceAs (Decidable True)
  | .applied .. => inferInstanceAs (Decidable True)

instance : DecidablePred FencesNoPrimary
  | .sent .. => inferInstanceAs (Decidable (_ → _))
  | .planned .. => inferInstanceAs (Decidable True)
  | .applied .. => inferInstanceAs (Decidable True)

instance : DecidablePred SparesOwed
  | .sent .. => inferInstanceAs (Decidable (_ → _))
  | .planned .. => inferInstanceAs (Decidable True)
  | .applied .. => inferInstanceAs (Decidable True)

end Event

/-! ## The debt is kept -/

/-- `n` owes the delete of `r`, or has been sent it and paid. -/
def OwedOrFenced (r n : String) (w : World) : Prop :=
  w.worker.pendingFences.lookup r = some n ∨ ∃ e ∈ w.log, e.Fenced r n

variable {r n : String}

theorem OwedOrFenced.of_eq {w w' : World} (hlog : w.log <+: w'.log)
    (heq : w'.worker.pendingFences.lookup r = w.worker.pendingFences.lookup r)
    (h : OwedOrFenced r n w) : OwedOrFenced r n w' := by
  rcases h with howed | ⟨e, he, hfenced⟩
  · exact Or.inl (by rw [heq, howed])
  · exact Or.inr ⟨e, hlog.mem he, hfenced⟩

/-- No action of a plan touches the debts. -/
theorem pendingFences_settle (a : ReplicaAction) (w : Worker) :
    (a.settle w).pendingFences = w.pendingFences := by
  cases a <;> rfl

theorem pendingFences_execute (w : World) (a : ReplicaAction) (answer : ForwardResult) :
    (w.execute a answer).worker.pendingFences = w.worker.pendingFences := by
  rw [World.execute, World.answered_worker]
  split
  · exact pendingFences_settle a _
  · rfl

theorem pendingFences_executed {w w' : World} {as : List ReplicaAction} (h : Executed w as w') :
    w'.worker.pendingFences = w.worker.pendingFences := by
  induction h with
  | nil => rfl
  | snoc a answer _ ih => rw [pendingFences_execute, ih]

/-- **A step keeps the debt.** Only a promotion and a fence write the
table of debts: the fence strikes off what it was answered for, and the
promotion leaves the debt of the node the replica leaves. -/
theorem owedOrFenced_step {w w' : World} (h : Step w w') (hkeeps : ∀ e ∈ w'.log, e.KeepsFence r)
    (howed : OwedOrFenced r n w) : OwedOrFenced r n w' := by
  have hlog := h.log_mono
  cases h with
  | registry => exact howed.of_eq hlog rfl
  | apply => exact howed.of_eq hlog rfl
  | read => exact howed.of_eq hlog rfl
  | reconcile now h => exact howed.of_eq hlog (by rw [pendingFences_executed h])
  | delete now ord hget h => exact howed.of_eq hlog (by rw [pendingFences_executed h])
  | put answer =>
    refine howed.of_eq hlog ?_
    rw [World.answered_worker]
    split <;> rfl
  | drop answer =>
    refine howed.of_eq hlog ?_
    rw [World.answered_worker]
    split <;> rfl
  | @promote name prep now answer hprep =>
    by_cases hwrites : accepted answer = true ∧ name = r
    · obtain ⟨hacc, rfl⟩ := hwrites
      rcases howed with howed | ⟨e, he, hfenced⟩
      · -- The debt on the table is the one the promotion leaves.
        have hsame := hkeeps _ List.mem_concat_self rfl rfl hacc
        rw [howed, (prepareForceRepin_ok hprep).placed] at hsame
        have hold : n = prep.oldNodeId := by simpa using hsame
        left
        rw [World.answered_worker, if_pos hacc, hold]
        exact AList.lookup_insert _
      · exact Or.inr ⟨e, hlog.mem he, hfenced⟩
    · refine howed.of_eq hlog ?_
      rw [World.answered_worker]
      split
      · rename_i hacc
        exact AList.lookup_insert_ne fun heq => hwrites ⟨hacc, heq.symm⟩
      · rfl
  | @fence nodeId r' addr answer hpending =>
    by_cases hwrites : gone answer = true ∧ r' = r
    · obtain ⟨hgone, rfl⟩ := hwrites
      rcases howed with howed | ⟨e, he, hfenced⟩
      · -- The debt is struck off, by the very `DELETE` that was answered.
        rw [hpending] at howed
        cases howed
        exact Or.inr ⟨_, List.mem_concat_self, rfl, rfl, rfl, rfl, hgone⟩
      · exact Or.inr ⟨e, hlog.mem he, hfenced⟩
    · refine howed.of_eq hlog ?_
      rw [World.answered_worker]
      split
      · rename_i hgone
        exact AList.lookup_erase_ne fun heq => hwrites ⟨hgone, heq.symm⟩
      · rfl

/-- A `200` leaves the node the replica was on its debt. -/
theorem pendingFence_of_forceRepin {w : Worker} {o : ℕ → Choice}
    (hplaced : w.placements.lookup r = some n)
    (hok : (serve (.forceRepin r) o w).response.status = 200) :
    (serve (.forceRepin r) o w).after.pendingFences.lookup r = some n := by
  have hwp : (handleForceRepin r).wp semantics ⟨w, []⟩ fun response w' =>
      response.status = 200 → w'.worker.pendingFences.lookup r = some n := by
    refine wp_handleForceRepin ?_ ?_
    · intro w' response _ _ hne hok
      exact absurd hok hne
    · intro w' now prep answer response _ hworker hprep hresponse hok
      rw [World.answered_worker, if_pos (hresponse.1 hok)]
      have hold := (prepareForceRepin_ok hprep).placed
      rw [hplaced] at hold
      cases hold
      exact AList.lookup_insert _
  exact Prog.wp_run hwp hok

/-- **No fence is lost.** Whatever the run so far has left, once a
force-repin of `r` off `n` is answered `200`, then after any further
requests either `n` is still owed the delete of `r`, or it has been sent
it and the jail is gone — provided that, from then on, no promotion of
`r` is accepted while a node other than the one `r` is leaving owes its
delete. -/
theorem fence_owed_until_gone (w : Worker) (o : ℕ → Choice) (future : Script) (r n : String)
    (hplaced : w.placements.lookup r = some n)
    (hok : (serve (.forceRepin r) o w).response.status = 200)
    (hkeeps : ∀ e ∈ events (serve (.forceRepin r) o w).after future, e.KeepsFence r) :
    (∀ ord, r ∈ (final w ((.forceRepin r, o) :: future)).pendingFences.forNode ord n) ∨
      ∃ e ∈ events (serve (.forceRepin r) o w).after future, e.Fenced r n := by
  have hstart := pendingFence_of_forceRepin hplaced hok
  have hsteps := run_steps (serve (.forceRepin r) o w).after future []
  rw [List.nil_append] at hsteps
  rcases hsteps.invariant owedOrFenced_step hkeeps (Or.inl hstart) with howed | hfenced
  · exact Or.inl fun ord => PendingFences.mem_forNode.2 howed
  · exact Or.inr hfenced

namespace Sample

/-- A replicated service on `a`, with `b` its standby; then `a` falls
silent. -/
def aSilent : Script :=
  [(register "a", clock 0 200), (register "b", clock 0 200), (register "c", clock 0 200),
    (register "d", clock 0 200), (service "db" 1 data, clock 1 200), (heartbeat "b", clock 20 200),
    (heartbeat "c", clock 20 200), (heartbeat "d", clock 20 200)]

/-- Then `b`, where the replica has gone, falls silent too, and the
replica goes on to `c`. -/
def bSilent : Script :=
  [(heartbeat "c", clock 40 200), (heartbeat "d", clock 40 200), (.forceRepin "db-0", clock 41 200),
    (heartbeat "a", clock 42 200)]

end Sample

open Sample in
theorem fence_owed_until_gone_sample :
    (∀ ord, "db-0" ∈ (final (final spawn aSilent) [(.forceRepin "db-0", clock 21 200),
        (service "db" 2 data, clock 22 200)]).pendingFences.forNode ord "a") ∨
      ∃ e ∈ events (serve (.forceRepin "db-0") (clock 21 200) (final spawn aSilent)).after
        [(service "db" 2 data, clock 22 200)], e.Fenced "db-0" "a" :=
  fence_owed_until_gone (final spawn aSilent) (clock 21 200) [(service "db" 2 data, clock 22 200)]
    "db-0" "a" (by decide +kernel) (by decide +kernel) (by decide +kernel)

open Sample in
/-- **A second promotion loses the first one's fence.** `db-0` has left
`a` and then `b`; `a` heartbeats again, is sent nothing, and is owed
nothing. -/
theorem fence_overwritten :
    (final spawn aSilent).placements.lookup "db-0" = some "a" ∧
      (serve (.forceRepin "db-0") (clock 21 200) (final spawn aSilent)).response.status = 200 ∧
      "db-0" ∉ (final (final spawn aSilent) ((.forceRepin "db-0", clock 21 200) ::
        bSilent)).pendingFences.forNode .listed "a" ∧
      ∀ e ∈ events (serve (.forceRepin "db-0") (clock 21 200) (final spawn aSilent)).after bSilent,
        ¬ e.Fenced "db-0" "a" := by
  decide +kernel

/-! ## The debt is paid to no primary -/

/-- No node owes the delete of a jail that is placed on it, and none was
ever sent it. -/
structure DebtsElsewhere (w : World) : Prop where
  apart : ∀ r n, w.worker.pendingFences.lookup r = some n → w.worker.placements.lookup r ≠ some n
  spared : ∀ e ∈ w.log, e.FencesNoPrimary

/-- A step that sends no fence keeps what the log says. -/
theorem DebtsElsewhere.of_sent {w : World} {f : Forward} {answer : ForwardResult}
    {worker : Worker} (h : DebtsElsewhere w) (hsite : f.site ≠ .fencing)
    (hapart : ∀ r n, worker.pendingFences.lookup r = some n →
      worker.placements.lookup r ≠ some n) :
    DebtsElsewhere ⟨worker, w.log ++ [.sent w.worker f answer]⟩ where
  apart := hapart
  spared e he := by
    rcases List.mem_append.1 he with he | he
    · exact h.spared e he
    · rw [List.mem_singleton.1 he]
      exact fun hfencing => absurd hfencing hsite

/-- Nor does a note that is no forward matter, whatever else is written. -/
theorem DebtsElsewhere.of_noted {w : World} {e : Event} {worker : Worker} (h : DebtsElsewhere w)
    (he : e.FencesNoPrimary) (hpending : worker.pendingFences = w.worker.pendingFences)
    (hplacements : worker.placements = w.worker.placements) :
    DebtsElsewhere ⟨worker, w.log ++ [e]⟩ where
  apart r n := by
    rw [hpending, hplacements]
    exact h.apart r n
  spared e' he' := by
    rcases List.mem_append.1 he' with he' | he'
    · exact h.spared e' he'
    · rw [List.mem_singleton.1 he']
      exact he

/-- Taking a jail off its node keeps debts elsewhere. -/
theorem apart_erase {w : Worker} {name : String}
    (h : ∀ r n, w.pendingFences.lookup r = some n → w.placements.lookup r ≠ some n) (r n : String)
    (hpending : w.pendingFences.lookup r = some n) :
    (w.placements.erase name).lookup r ≠ some n := by
  rw [Table.lookup_erase_eq]
  split
  · simp
  · exact h r n hpending

/-- And so does putting it on a node that owes it nothing. -/
theorem apart_insert {w : Worker} {name nodeId : String}
    (h : ∀ r n, w.pendingFences.lookup r = some n → w.placements.lookup r ≠ some n)
    (hne : w.pendingFences.lookup name ≠ some nodeId) (r n : String)
    (hpending : w.pendingFences.lookup r = some n) :
    (w.placements.insert name nodeId).lookup r ≠ some n := by
  rw [Table.lookup_insert_eq]
  split
  · rename_i heq
    rintro ⟨⟩
    exact hne (heq ▸ hpending)
  · exact h r n hpending

/-- One action of a plan. -/
theorem debtsElsewhere_execute {w : World} {a : ReplicaAction} {answer : ForwardResult}
    (hspares : (Event.sent w.worker a.forward answer).SparesOwed) (h : DebtsElsewhere w) :
    DebtsElsewhere (w.execute a answer) := by
  refine h.of_sent (by cases a <;> simp [ReplicaAction.forward]) ?_
  split
  · rename_i hacc
    cases a with
    | schedule name nodeId =>
      exact apart_insert h.apart (hspares rfl (by simp [ReplicaAction.forward]) hacc name rfl)
    | tearDown name nodeId => exact apart_erase h.apart
  · exact h.apart

/-- **A step keeps debts elsewhere.** A promotion moves the replica and
its debt at once, off the standby and onto the node it leaves, and these
are two nodes: one of them resolves. -/
theorem debtsElsewhere_step {w w' : World} (h : Step w w')
    (hspares : ∀ e ∈ w'.log, e.SparesOwed) (hw : DebtsElsewhere w) : DebtsElsewhere w' := by
  cases h with
  | registry registry => exact ⟨hw.apart, hw.spared⟩
  | apply hconflict h => exact hw.of_noted trivial rfl rfl
  | reconcile now h =>
    exact h.invariant (fun _ => debtsElsewhere_execute) hspares (hw.of_noted trivial rfl rfl)
  | delete now ord hget h =>
    exact h.invariant (fun _ => debtsElsewhere_execute) hspares (hw.of_noted trivial rfl rfl)
  | read answer hsite hput => exact hw.of_sent hsite hw.apart
  | @put f name answer hpath hmethod hsite howner =>
    have hsent := hspares _ List.mem_concat_self
    refine hw.of_sent (by rintro h; simp [h, Site.operator] at hsite) ?_
    split
    · rename_i hacc
      exact apart_insert hw.apart (hsent hmethod (by rintro h; simp [h, Site.operator] at hsite)
        hacc name (by simp [Forward.jail?, hpath]))
    · exact hw.apart
  | drop answer hpath hmethod hsite =>
    refine hw.of_sent (by rintro h; simp [h, Site.operator] at hsite) ?_
    split
    · exact apart_erase hw.apart
    · exact hw.apart
  | @promote name prep now answer hprep =>
    refine hw.of_sent (by simp [ForceRepinPrep.forward]) ?_
    split
    · intro r n
      simp only [ForceRepinPrep.settle, Table.lookup_insert_eq]
      split
      · -- The replica itself: placed on its standby, and owed by another node.
        intro hold hstandby
        exact (prepareForceRepin_ok hprep).standby_ne
          (Option.some.inj (hstandby.trans hold.symm))
      · exact hw.apart r n
    · exact hw.apart
  | @fence nodeId r addr answer hpending =>
    refine ⟨?_, ?_⟩
    · rw [World.answered_worker]
      intro r' n
      split
      · simp only [Table.lookup_erase_eq]
        split
        · rintro ⟨⟩
        · exact hw.apart r' n
      · exact hw.apart r' n
    · intro e he
      rcases List.mem_append.1 he with he | he
      · exact hw.spared e he
      · rw [List.mem_singleton.1 he]
        -- The debt was on the table, hence the replica elsewhere.
        rintro - r' ⟨⟩
        exact hw.apart r nodeId hpending

/-- **Fencing deletes no primary.** In every run, every forced delete of
a jail goes to a node the jail is not placed on — provided no node
accepts, other than by a promotion, a jail whose delete it owes. -/
theorem fencing_spares_primary (clusterCidr serviceCidr : Ipv4Net) (script : Script)
    (hspares : ∀ e ∈ events (Worker.spawn clusterCidr serviceCidr) script, e.SparesOwed) :
    ∀ e ∈ events (Worker.spawn clusterCidr serviceCidr) script, e.FencesNoPrimary := by
  have hsteps := run_steps (Worker.spawn clusterCidr serviceCidr) script []
  rw [List.nil_append] at hsteps
  have hstart : DebtsElsewhere ⟨Worker.spawn clusterCidr serviceCidr, []⟩ :=
    ⟨fun r n h => by simp [Worker.spawn] at h, by simp⟩
  exact (hsteps.invariant debtsElsewhere_step hspares hstart).spared

namespace Sample

/-- The service is scaled down and up again with `a` back but still owing
the delete of `db-0`, and lands on `a`. -/
def backOnA : Script :=
  [(register "a", clock 0 200), (register "b", clock 0 200), (register "c", clock 0 200),
    (service "db" 1 data, clock 1 200), (heartbeat "b", clock 20 200), (heartbeat "c", clock 20 200),
    (.forceRepin "db-0", clock 21 200), (service "db" 0 data, clock 22 200),
    (register "a", clock 23 200), (service "db" 1 data, clock 24 200), (heartbeat "a", clock 25 200)]

/-- `a` is back after the promotion, and its debt is called in. -/
def aFenced : Script :=
  aSilent ++ [(.forceRepin "db-0", clock 21 200), (register "a", clock 22 200),
    (heartbeat "a", clock 23 200)]

end Sample

open Sample in
theorem fencing_spares_primary_sample :
    (∃ e ∈ events spawn aFenced, e.Fenced "db-0" "a") ∧
      ∀ e ∈ events spawn aFenced, e.FencesNoPrimary :=
  ⟨by decide +kernel, fencing_spares_primary _ _ _ (by decide +kernel)⟩

open Sample in
/-- **A replica back on the node that owes its delete is deleted there.** -/
theorem fence_hits_primary : ¬ ∀ e ∈ events spawn backOnA, e.FencesNoPrimary := by
  decide +kernel

end ControlPlane

end Keel
