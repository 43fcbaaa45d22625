import Keel.Cluster.Copies
/-!
# Schedules a node accepts

An agent refuses a spec that changes the address of a jail it has a record
of. The control plane picks the address of a `Schedule` by its own tables,
so a record it does not know of makes the node refuse the replica, and
again at every pass (`schedule_refused`). It knows of every record on a
live node under the conditions of `Copies`, with all jails counting: a
replica it schedules is then not on the node it is put on, unless the node
is still to delete an older copy (`Clear`), and the node accepts it
(`schedule_acceptable`).
-/

namespace Keel

namespace Serial

open Agent
open ControlPlane (Event Executed Forward ForwardResult Instant Quiets ReplicaAction Site Step Worker)

variable {N : Type} [DecidableEq N]

/-- Every record counts. -/
def everyJail (_ : Option Site) : Bool := true

/-- The node's own validation of a spec, records apart. -/
def validate [Ipnet] (spec : JailSpec) : Except SpecError Unit := do
  validateName spec.metadata.name
  validateAddress spec.spec.network.address
  let _ ← parseCpuCores spec.spec.resources.cpu
  let _ ← parseMemoryBytes spec.spec.resources.memory

/-- A spec that is valid is applied where there is no record of its jail. -/
theorem apply_of_validate [Ipnet] {reconciler : Reconciler} {spec : JailSpec}
    (hvalid : (validate spec).isOk = true)
    (hnone : reconciler.records.lookup spec.metadata.name = none) :
    (reconciler.apply true spec).1 = .ok () := by
  have hcheck : reconciler.checkApply spec =
      .ok (reconciler.nextEpairOrdinal, reconciler.nextEpairOrdinal + 1) := by
    simp only [Reconciler.checkApply, hnone]
    simp only [validate] at hvalid
    cases hname : validateName spec.metadata.name with
    | error e => rw [hname] at hvalid; cases hvalid
    | ok =>
      cases haddress : validateAddress spec.spec.network.address with
      | error e => rw [hname, haddress] at hvalid; cases hvalid
      | ok =>
        cases hcpu : parseCpuCores spec.spec.resources.cpu with
        | error e => rw [hname, haddress, hcpu] at hvalid; cases hvalid
        | ok =>
          cases hmemory : parseMemoryBytes spec.spec.resources.memory with
          | error e => rw [hname, haddress, hcpu, hmemory] at hvalid; cases hvalid
          | ok => rfl
  simp only [Reconciler.apply, hcheck, Reconciler.keep, if_true]

/-! ## What a `Schedule` finds -/

/-- The agent a `Schedule` goes to has no record of the replica, or is
still to delete one. -/
def Clear (net : Net N) (w : Worker) (scene : Scene N) (f : Forward) : Prop :=
  ∀ address r spec k, f.site = .schedule address → f.request = .putJail r (.ok spec) →
    net.http f.addr = some k → (scene.agents k).specOf spec.metadata.name = none ∨
      w.pendingFences.lookup r = some f.nodeId

def Entry.Clear (net : Net N) (x : Entry N) : Prop :=
  ∀ before f answer, x.event = .sent before f answer → Serial.Clear net before x.scene f

/-- An action writes its replica. -/
theorem writes?_forward (a : ReplicaAction) : ∃ y, a.forward.request.writes? = some (a.name, y) := by
  cases a with
  | schedule => exact ⟨_, rfl⟩
  | tearDown => exact ⟨_, rfl⟩

section Steps

variable {net : Net N} {first : Scene N} {begun : Instant}

omit [DecidableEq N] in
/-- What a pass schedules is on no node it is put on, by books that are
right when the pass is made. -/
theorem Books.clear {w : Worker} {scene : Scene N} {now : Instant} {a : ReplicaAction}
    (h : Books net everyJail w scene now) (hplanned : ControlPlane.Planned w now a) :
    Clear net w scene a.forward := by
  intro address r spec k hsite hrequest hk
  cases a with
  | tearDown => cases hsite
  | schedule name nodeId nodeAddr template addr prefixLen standbyNodeId standbyAddr =>
    cases hrequest
    have hid : net.nodeId k = nodeId := h.honest.nodeId_eq hplanned.resolves hk
    by_contra hnot
    rw [not_or] at hnot
    -- A record at the node would be a copy on a live node, hence tracked:
    -- by the placement, and then it would not be scheduled, or by a fence.
    have hholds : scene.Holds everyJail k r :=
      Scene.holds_iff.2 ⟨hplanned.ne_ingress, rfl, hnot.1⟩
    have halive : Alive net w k now := by
      rw [Alive, hid, hplanned.resolves]
      rfl
    rcases h.tracked k r hholds halive with hplaced | hfence
    · rw [hid] at hplaced
      exact hplanned.not_placed hplaced
    · rw [hid] at hfence
      exact hnot.2 hfence

/-- A forward about another jail leaves a `Schedule` as clear as it was. -/
theorem Clear.act {w worker : Worker} {scene : Scene N} {x : Entry N} {f : Forward}
    (h : Clear net w x.scene f) (htells : x.Tells net scene)
    (hfences : worker.pendingFences = w.pendingFences)
    (hname : ∀ r spec, f.request = .putJail r (.ok spec) → spec.metadata.name ≠ "ingress" ∧
      ∀ y, x.writes? ≠ some (spec.metadata.name, y)) : Clear net worker scene f := by
  intro address r spec k hsite hrequest hk
  obtain ⟨hingress, hother⟩ := hname r spec hrequest
  rw [htells.specOf k _ hingress, Entry.specAfter_of_unwritten fun _ => hother, hfences]
  exact h address r spec k hsite hrequest hk

/-- Every `Schedule` sent so far was clear, as long as everything the
request did is fair. -/
def FairClear (net : Net N) (begun : Instant) (l : List (Entry N)) (_ : Worker) (_ : Scene N) :
    Prop :=
  (∀ x ∈ l, x.Fair net everyJail ∧ begun ≤ x.now) → ∀ x ∈ l, x.Clear net

/-- The same while a plan is executed, the rest of which is clear too. -/
def PlanClear (net : Net N) (begun : Instant) (full done : List ReplicaAction)
    (l : List (Entry N)) (w : Worker) (scene : Scene N) : Prop :=
  (∀ x ∈ l, x.Fair net everyJail ∧ begun ≤ x.now) → (∀ x ∈ l, x.Clear net) ∧
    ∀ a ∈ full, a.name ∉ done.map ReplicaAction.name → Clear net w scene a.forward

omit [DecidableEq N] in
theorem FairClear.snoc {l : List (Entry N)} {x : Entry N} {w worker : Worker} {scene a : Scene N}
    (h : FairClear net begun l w a) (hlast : x.Clear net) :
    FairClear net begun (l ++ [x]) worker scene := by
  intro hfair y hy
  rcases List.mem_append.1 hy with hy | hy
  · exact h (fun z hz => hfair z (List.mem_append_left _ hz)) y hy
  · rwa [List.mem_singleton.1 hy]

/-- **A plan executed finds its schedules clear.** No two of its actions
are about one replica. -/
theorem Kept.executed_clear {w w' : ControlPlane.World} {full as : List ReplicaAction}
    {before : Worker} {now : Instant} (h : Executed w as w') (hpre : as <+: full)
    (hplanned : ∀ a ∈ full, ControlPlane.Planned before now a)
    (hnodup : (full.map ReplicaAction.name).Nodup)
    (hkept : Kept net first (PlanClear net begun full []) w) :
    Kept net first (PlanClear net begun full as) w' := by
  induction h with
  | nil => exact hkept
  | @snoc as w₁ a answer hdone ih =>
    have ha : a ∈ full := hpre.mem List.mem_concat_self
    have hfresh : a.name ∉ as.map ReplicaAction.name :=
      (ControlPlane.name_notMem_of_nodup (hnodup.sublist (hpre.sublist.map ReplicaAction.name))).2
    -- The induction is on what was executed; what is left of the plan stays
    -- clear, as it is about other replicas.
    refine (ih ((List.prefix_append _ _).trans hpre)).act ?_
    intro l x scene hl hx _ _ htells hK hfair
    obtain ⟨hclear, hrest⟩ := hK fun y hy => hfair y (List.mem_append_left _ hy)
    refine ⟨fun y hy => ?_, fun b hb hbname => ?_⟩
    · rcases List.mem_append.1 hy with hy | hy
      · exact hclear y hy
      · rw [List.mem_singleton.1 hy]
        intro before' f answer' hx'
        rw [hx] at hx'
        cases hx'
        exact hrest a ha hfresh
    · rw [List.map_append, List.mem_append, not_or] at hbname
      refine (hrest b hb hbname.1).act htells ?_ fun r spec hrequest => ?_
      · split
        · cases a <;> rfl
        · rfl
      · have hb' := hplanned b hb
        cases b with
        | tearDown => cases hrequest
        | schedule =>
          cases hrequest
          refine ⟨hb'.ne_ingress, fun y hy => hbname.2 ?_⟩
          obtain ⟨y', hy'⟩ := writes?_forward a
          rw [Entry.writes?_sent hx, hy'] at hy
          rw [List.map_cons, List.map_nil, List.mem_singleton]
          exact (congrArg Prod.fst (Option.some.inj hy)).symm

/-- A plan is clear when it is made. -/
theorem Kept.planned_clear {w : ControlPlane.World} (worker : Worker) {now : Instant}
    {full : List ReplicaAction} (hbooks : Kept net first (FairBooks net everyJail begun) w)
    (hclear : Kept net first (FairClear net begun) w)
    (hplanned : ∀ a ∈ full, ControlPlane.Planned w.worker now a)
    (hfences : worker.pendingFences = w.worker.pendingFences) :
    Kept net first (PlanClear net begun full []) ⟨worker, w.log ++ [.planned now w.worker full]⟩ := by
  refine hclear.act fun l x scene hl hx htruthful hnow htells hK hfair => ?_
  have hlast : x ∈ l ++ [x] := List.mem_concat_self
  have hunsent : ∀ before f answer, x.event ≠ .sent before f answer := by
    rw [hx]
    rintro _ _ _ ⟨⟩
  have hwrites : x.writes? = none := Entry.writes?_of_unsent hunsent
  have hquiet : x.Clear net := fun before f answer hx' => absurd hx' (hunsent before f answer)
  have hsent : FairClear net begun (l ++ [x]) worker scene := hK.snoc hquiet
  refine ⟨hsent hfair, fun a ha _ => ?_⟩
  -- The books were right at the very moment the plan was made.
  have hright := hbooks l x.scene hl htruthful
    (fun y hy => hfair y (List.mem_append_left _ hy)) x.now (hfair x hlast).2 hnow
  rw [htells.planned now w.worker full hx] at hright
  refine (hright.clear (hplanned a ha)).act htells hfences fun r spec hrequest => ?_
  have hpa := hplanned a ha
  cases a with
  | tearDown => cases hrequest
  | schedule =>
    cases hrequest
    exact ⟨hpa.ne_ingress, fun y hy => by rw [hwrites] at hy; cases hy⟩

/-- **A step sends no `Schedule` that is not clear.** -/
theorem Kept.step_clear {w w' : ControlPlane.World} (h : Step w w')
    (hbooks : Kept net first (FairBooks net everyJail begun) w)
    (hclear : Kept net first (FairClear net begun) w) :
    Kept net first (FairClear net begun) w' := by
  -- What is no `Schedule`.
  have hother : ∀ (worker : Worker) (e : Event), (∀ before f answer address r spec,
      e = .sent before f answer → f.site = .schedule address → f.request ≠ .putJail r (.ok spec)) →
        Kept net first (FairClear net begun) ⟨worker, w.log ++ [e]⟩ := by
    intro worker e he
    refine hclear.act fun l x scene hl hx _ _ _ hK => hK.snoc ?_
    intro before f answer hx' address r spec k hsite hrequest
    exact absurd hrequest (he before f answer address r spec (hx.symm.trans hx') hsite)
  cases h with
  | registry registry => exact fun l scene hl htruthful => hclear l scene hl htruthful
  | apply hconflict h => exact hother _ _ fun _ _ _ _ _ _ heq => (by cases heq)
  | reconcile now h =>
    have hplanned : ∀ a ∈ w.worker.reconcileServices now, ControlPlane.Planned w.worker now a :=
      ControlPlane.reconcileServices_planned
    have hend := Kept.executed_clear h (List.prefix_refl _) hplanned
      ControlPlane.nodup_reconcileServices (Kept.planned_clear _ hbooks hclear hplanned rfl)
    exact fun l scene hl htruthful hfair => (hend l scene hl htruthful hfair).1
  | @delete _ name record now ord hget h =>
    have hplanned : ∀ a ∈ w.worker.deleteActions now ord name,
        ControlPlane.Planned w.worker now a := ControlPlane.deleteActions_planned
    have hend := Kept.executed_clear h (List.prefix_refl _) hplanned
      (ControlPlane.nodup_deleteActions ord name) (Kept.planned_clear _ hbooks hclear hplanned rfl)
    exact fun l scene hl htruthful hfair => (hend l scene hl htruthful hfair).1
  | @read f answer hsite hput =>
    refine hother _ _ fun before f' answer' address r spec heq _ hrequest => ?_
    cases heq
    have hwrites := writes?_read hput
    rw [hrequest] at hwrites
    cases hwrites
  | @put f name answer hpath hmethod hsite =>
    refine hother _ _ fun before f' answer' address r spec heq hschedule => ?_
    cases heq
    rw [hschedule] at hsite
    cases hsite
  | @drop f name answer hpath hmethod hsite =>
    refine hother _ _ fun before f' answer' address r spec heq hschedule => ?_
    cases heq
    rw [hschedule] at hsite
    cases hsite
  | promote now answer h =>
    refine hother _ _ fun before f' answer' address r spec heq hschedule => ?_
    cases heq
    cases hschedule
  | fence addr answer h =>
    refine hother _ _ fun before f' answer' address r spec heq hschedule => ?_
    cases heq
    cases hschedule

theorem Kept.quiets_clear (hnet : Function.Injective net.nodeId) {w w' : ControlPlane.World}
    (h : Quiets w w') (hbooks : Kept net first (FairBooks net everyJail begun) w)
    (hclear : Kept net first (FairClear net begun) w) :
    Kept net first (FairClear net begun) w' := by
  induction h with
  | refl => exact hclear
  | tail hsteps hquiet ih => exact Kept.step_clear hquiet.step (Kept.quiets hnet hsteps hbooks) ih

end Steps

/-! ## Requests -/

/-- Every `Schedule` of a fair request is clear. -/
theorem Served.Fair.clear {net : Net N} (hnet : Function.Injective net.nodeId) {x : Served N}
    (h : x.Fair net everyJail) {worker : Worker} {begun : Instant}
    (hsplits : x.Splits net worker begun)
    (hbooks : Books net everyJail x.before.worker x.before.scene x.before.clock) :
    ∀ e ∈ x.log, e.Clear net := by
  have hbegin : Kept net x.before.scene (FairBooks net everyJail begun) ⟨worker, []⟩ :=
    .begin fun scene hsame _ t ht _ => ((h.begin hsplits hbooks).mono ht).same hsame
  have hnothing : Kept net x.before.scene (FairClear net begun) ⟨worker, []⟩ :=
    .begin fun scene _ _ e he => nomatch he
  have hend := Kept.quiets_clear hnet hsplits.quiets hbegin hnothing
  have hrouted := hsplits.quiets.routed (by simp)
  refine hend x.log x.after.scene rfl hsplits.truthful fun e he => ?_
  exact ⟨⟨hrouted _ (List.mem_map_of_mem he), h.answered e he, h.others e he⟩,
    (hsplits.now e he).1⟩

/-- **A `Schedule` is acceptable to its node.** In every run in which every
`PUT` carried out is answered, no node comes back with a jail that is not
tracked, and no operator's request or promotion takes a jail's placement
from under a live copy: what is scheduled on a node that does not owe the
replica's delete, and passes the node's own validation, its reconciler
applies. -/
theorem schedule_acceptable [Ipnet] (net : Net N) (hnet : Function.Injective net.nodeId)
    (clusterCidr serviceCidr : Ipv4Net) (pools : N → String) (zfs : N → FakeZfsManager)
    (script : Script N)
    (hregisters : ∀ x ∈ history net (start clusterCidr serviceCidr pools zfs) script,
      Registers net x.request)
    (hanswered : ∀ x ∈ history net (start clusterCidr serviceCidr pools zfs) script,
      ∀ e ∈ x.log, e.PutAnswered)
    (hreturned : ∀ x ∈ history net (start clusterCidr serviceCidr pools zfs) script,
      x.KeepsReturned net everyJail)
    (hothers : ∀ x ∈ history net (start clusterCidr serviceCidr pools zfs) script,
      ∀ e ∈ x.log, e.KeepsOthers net everyJail) :
    ∀ x ∈ history net (start clusterCidr serviceCidr pools zfs) script, ∀ e ∈ x.log,
      ∀ before f answer address r spec k, e.event = .sent before f answer →
        f.site = .schedule address → f.request = .putJail r (.ok spec) →
        net.http f.addr = some k → before.pendingFences.lookup r ≠ some f.nodeId →
        (validate spec).isOk = true →
          ((e.scene.agents k).reconciler.apply true spec).1 = .ok () := by
  intro x hx e he before f answer address r spec k hevent hsite hrequest hk howed hvalid
  have hfair : ∀ y ∈ history net (start clusterCidr serviceCidr pools zfs) script,
      y.Fair net everyJail := fun y hy =>
    ⟨hregisters y hy, hanswered y hy, hreturned y hy, hothers y hy⟩
  obtain ⟨⟨worker, begun, hsplits⟩, hbooks, -⟩ := history_books hnet script
    (start_synced clusterCidr serviceCidr pools zfs)
    (start_books net everyJail clusterCidr serviceCidr pools zfs) hfair x hx
  have hclear := (hfair x hx).clear hnet hsplits hbooks e he before f answer hevent
  have hnone := (hclear address r spec k hsite hrequest hk).resolve_right howed
  rw [Agentd.specOf, Option.map_eq_none_iff] at hnone
  exact apply_of_validate hvalid hnone

namespace Sample

open ControlPlane.Sample (register service)

/-- `web-0` is put on `a`, and the control plane does not hear of it; then
there is another service, which comes first in every pass. -/
def webUnheard : Script (Fin 4) :=
  [(register "a", after 0), (service "web" 1 [], afterUnanswered 1 2), (service "app" 1 [], after 1)]

end Sample

open Sample Cluster.Sample Agent.Sample in
theorem schedule_acceptable_sample :
    (history net spawn dbFenced).map (fun x => x.response.status) = List.replicate 10 200 ∧
      ∀ x ∈ history net spawn dbFenced, ∀ e ∈ x.log,
        ∀ before f answer address r spec k, e.event = .sent before f answer →
          f.site = .schedule address → f.request = .putJail r (.ok spec) →
          net.http f.addr = some k → before.pendingFences.lookup r ≠ some f.nodeId →
          (validate spec).isOk = true →
            ((e.scene.agents k).reconciler.apply true spec).1 = .ok () :=
  ⟨by decide +kernel, schedule_acceptable net (by decide) _ _ _ _ dbFenced (by decide +kernel)
    (by decide +kernel) (by decide +kernel) (by decide +kernel)⟩

open Sample Cluster.Sample Agent.Sample in
/-- **A record nobody knows of.** `app-0` is given the address `web-0` has
on `a`, so `web-0` is scheduled at another, and `a` refuses the valid spec
as it has `web-0` already. -/
theorem schedule_refused :
    (history net spawn webUnheard).any fun x => x.log.any fun e =>
      match e.event with
      | .sent before ⟨addr, .put, .jail "web-0", .yaml (.ok spec), nodeId, .schedule _⟩
          (.ok (409, _)) =>
        decide (net.http addr = some 0) && decide (before.pendingFences.lookup "web-0" ≠ some nodeId)
          && (validate spec).isOk && !((e.scene.agents 0).reconciler.apply true spec).1.isOk
      | _ => false := by
  decide +kernel

end Serial

end Keel
