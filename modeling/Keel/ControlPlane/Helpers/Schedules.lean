import Keel.ControlPlane.Helpers.Nodes
import Keel.ControlPlane.Helpers.Plan
/-!
# How a pass chooses

What each schedule of a pass rests on, given the actions before it in the
list (`Chosen`): the node is the one the scheduler prefers off the nodes
that have a replica of the service, placed or planned, and the standby
the one it prefers once the node is counted in too. A pass under way keeps
its busy nodes equal to those that have a replica (`Spreading`).
-/

namespace Keel

namespace ControlPlane

/-! ## An element and those before it -/

section Stepwise

variable {α : Type*} {P : List α → α → Prop}

/-- Every element meets `P`, given those before it. -/
def Stepwise (P : List α → α → Prop) (l : List α) : Prop :=
  ∀ before a after, l = before ++ a :: after → P before a

theorem Stepwise.nil : Stepwise P [] := by
  intro before a after h
  exact absurd h (by simp)

theorem Stepwise.concat {l : List α} {a : α} (h : Stepwise P l) (ha : P l a) :
    Stepwise P (l ++ [a]) := by
  intro before b after heq
  rcases List.eq_nil_or_concat after with rfl | ⟨after, c, rfl⟩
  · obtain ⟨rfl, hab⟩ := List.append_inj' heq rfl
    rwa [← (List.cons.inj hab).1]
  · rw [List.concat_eq_append, ← List.cons_append, ← List.append_assoc] at heq
    obtain ⟨hl, -⟩ := List.append_inj' heq rfl
    exact h before b after hl

end Stepwise

/-! ## Nodes that have a replica -/

/-- A replica of the service is placed on the node. -/
def Worker.Hosts (w : Worker) (s n : String) : Prop :=
  ∃ r, w.placements.lookup r = some n ∧ (replicaIndex s r).isSome = true

/-- A replica of the service is scheduled on the node. -/
def Gives (as : List ReplicaAction) (s n : String) : Prop :=
  ∃ x ∈ slots as, (replicaIndex s x.1).isSome = true ∧ x.2.1 = n

/-- The nodes that have a replica of the service, placed or planned. -/
def Worker.occupied (w : Worker) (as : List ReplicaAction) (s : String) : Set String :=
  {n | w.Hosts s n ∨ Gives as s n}

theorem Worker.mem_occupied {w : Worker} {as : List ReplicaAction} {s n : String} :
    n ∈ w.occupied as s ↔ w.Hosts s n ∨ Gives as s n := Iff.rfl

theorem mem_nodesHostingService {w : Worker} {s n : String} :
    n ∈ nodesHostingService s w.placements ↔ w.Hosts s n := by
  simp only [nodesHostingService, List.mem_toFinset, List.mem_map, List.mem_filter]
  constructor
  · rintro ⟨e, ⟨he, hidx⟩, rfl⟩
    exact ⟨e.1, AList.mem_lookup_iff.2 he, hidx⟩
  · rintro ⟨r, hr, hidx⟩
    exact ⟨⟨r, n⟩, ⟨AList.mem_lookup_iff.1 hr, hidx⟩, rfl⟩

theorem not_gives_nil {s n : String} : ¬ Gives [] s n := by
  rintro ⟨x, hx, -⟩
  exact absurd hx (by simp [slots])

/-- A schedule gives its node a replica of its own service, and no other. -/
theorem gives_schedule {as : List ReplicaAction} {s s' n nodeId nodeAddr : String} {i : ℕ}
    {template : JailTemplate} {address : Ipv4Addr} {prefixLen : ℕ}
    {standbyNodeId standbyAddr : Option String} (hi : i < 2 ^ 32) :
    Gives (as ++ [.schedule (replicaName s i) nodeId nodeAddr template address prefixLen
      standbyNodeId standbyAddr]) s' n ↔ Gives as s' n ∨ s' = s ∧ n = nodeId := by
  have hidx := congrArg Option.isSome (replicaIndex_replicaName hi s)
  have hslots : slots [.schedule (replicaName s i) nodeId nodeAddr template address prefixLen
      standbyNodeId standbyAddr] = [(replicaName s i, nodeId, address)] := rfl
  simp only [Gives, slots_append, hslots, List.mem_append, List.mem_singleton]
  constructor
  · rintro ⟨x, hx | rfl, hx', rfl⟩
    · exact Or.inl ⟨x, hx, hx', rfl⟩
    · exact Or.inr ⟨service_unique hx' hidx, rfl⟩
  · rintro (⟨x, hx, hx', rfl⟩ | ⟨rfl, rfl⟩)
    · exact ⟨x, Or.inl hx, hx', rfl⟩
    · exact ⟨_, Or.inr rfl, hidx, rfl⟩

theorem gives_tearDown {as : List ReplicaAction} {s n r nodeId nodeAddr : String} :
    Gives (as ++ [.tearDown r nodeId nodeAddr]) s n ↔ Gives as s n := by
  have hslots : slots (as ++ [.tearDown r nodeId nodeAddr]) = slots as := by
    rw [slots_append]
    exact List.append_nil _
  rw [Gives, hslots, Gives]

/-! ## A choice -/

section Chosen

variable {w : Worker} {now : Instant}

/-- **The standby picked** for a replica on `nodeId`. -/
theorem pickStandby_eq_some {nodeId m addr : String} {busy : Finset String} :
    w.pickStandby now nodeId busy = some (m, addr) ↔
      w.Preferred now ↑busy m ∧ m ≠ nodeId ∧ w.registry.replicateAddr m = some addr := by
  simp only [Worker.pickStandby]
  cases hpick : pickNodeForService Binary64.nearest (w.aliveNodes now) busy with
  | error e =>
    simp only [reduceCtorEq, false_iff]
    rintro ⟨hm, -⟩
    rw [Worker.pickNodeForService_eq_ok.2 hm] at hpick
    cases hpick
  | ok standbyId =>
    have hsame : w.Preferred now ↑busy m ↔ standbyId = m := by
      rw [← Worker.pickNodeForService_eq_ok, hpick, Except.ok.injEq]
    rw [hsame]
    simp only
    split
    · rename_i heq
      simp only [reduceCtorEq, false_iff]
      rintro ⟨rfl, hne, -⟩
      exact hne heq
    · rename_i hne
      simp only [Option.map_eq_some_iff, Prod.mk.injEq]
      constructor
      · rintro ⟨addr', haddr, rfl, rfl⟩
        exact ⟨rfl, hne, haddr⟩
      · rintro ⟨rfl, -, haddr⟩
        exact ⟨addr, haddr, rfl, rfl⟩

/-- **How a schedule is chosen**, after the actions `before`, for a replica
of the service `s`. -/
structure Chosen (w : Worker) (now : Instant) (before : List ReplicaAction) (s r nodeId : String)
    (template : JailTemplate) (address : Ipv4Addr) (standbyNodeId standbyAddr : Option String) :
    Prop where
  service : ∃ record, w.services.get s = some record ∧ template = record.template
  replica : (replicaIndex s r).isSome = true
  node : w.Preferred now (w.occupied before s) nodeId
  inside : ∃ podCidr, w.registry.podCidr nodeId = some podCidr ∧ address ∈ podCidr.hosts.drop 1
  paired : standbyNodeId.isSome = standbyAddr.isSome
  standby : ∀ m addr, standbyNodeId = some m ∧ standbyAddr = some addr ↔
    template.volumes ≠ [] ∧ w.Preferred now (insert nodeId (w.occupied before s)) m ∧
      m ≠ nodeId ∧ w.registry.replicateAddr m = some addr

/-- The action, if it is a schedule, is chosen so for some service. -/
def ChosenAfter (w : Worker) (now : Instant) (before : List ReplicaAction) (a : ReplicaAction) :
    Prop :=
  ∀ r nodeId nodeAddr template address prefixLen standbyNodeId standbyAddr,
    a = .schedule r nodeId nodeAddr template address prefixLen standbyNodeId standbyAddr →
      ∃ s, Chosen w now before s r nodeId template address standbyNodeId standbyAddr

/-- A pass that has planned the services `done`, each schedule chosen as
it should be. -/
structure Spread (w : Worker) (now : Instant) (done : Set String) (p : Worker.Plan) : Prop where
  chosen : Stepwise (ChosenAfter w now) p.actions
  idle : ∀ s, s ∉ done → ∀ n, ¬ Gives p.actions s n

/-- The same in the midst of a service: the busy nodes are those that have
a replica of it. -/
structure Spreading (w : Worker) (now : Instant) (done : Set String) (s : String)
    (p : Worker.Plan) : Prop extends Spread w now (insert s done) p where
  busy : ↑p.busy = w.occupied p.actions s

theorem Spread.start {done : Set String} {p : Worker.Plan} {s : String}
    (h : Spread w now done p) (hs : s ∉ done) :
    Spreading w now done s { p with busy := nodesHostingService s w.placements } where
  chosen := h.chosen
  idle s' hs' := h.idle s' fun hdone => hs' (Set.mem_insert_of_mem s hdone)
  busy := by
    ext n
    rw [Finset.mem_coe, mem_nodesHostingService]
    exact (or_iff_left (h.idle s hs n)).symm

theorem Spreading.scheduleReplica {done : Set String} {p : Worker.Plan} {s : String}
    {record : ServiceRecord} (h : Spreading w now done s p)
    (hget : w.services.get s = some record) {i : ℕ} (hi : i < 2 ^ 32) :
    Spreading w now done s (w.scheduleReplica now s record p i) := by
  rcases scheduleReplica_cases w now s record p i with
    heq | ⟨nodeId, nodeAddr, podCidr, address, standby, hpick, hpod, haddress, -, hstandby, heq⟩
  · rwa [heq]
  have hnode := Worker.pickNodeForService_eq_ok.1 hpick
  rw [h.busy] at hnode
  have hactions := congrArg Worker.Plan.actions heq
  have hgives : ∀ s' n, Gives (w.scheduleReplica now s record p i).actions s' n ↔
      Gives p.actions s' n ∨ s' = s ∧ n = nodeId := by
    intro s' n
    rw [hactions]
    exact gives_schedule hi
  refine ⟨⟨?_, fun s' hs' n hn => ?_⟩, ?_⟩
  · rw [hactions]
    refine h.chosen.concat ?_
    rintro r _ _ _ _ _ _ _ ⟨⟩
    refine ⟨s, ⟨record, hget, rfl⟩, ?_, hnode, ⟨podCidr, hpod, List.mem_of_find?_eq_some haddress⟩,
      ?_, fun m addr => ?_⟩
    · rw [replicaIndex_replicaName hi]
      rfl
    · rw [Option.isSome_map, Option.isSome_map]
    · -- The standby is the worker's pick with the node itself counted in.
      have hpair : standby.map Prod.fst = some m ∧ standby.map Prod.snd = some addr ↔
          standby = some (m, addr) := by
        cases standby with
        | none => simp
        | some x => simp [Prod.ext_iff]
      rw [hpair, hstandby, ← h.busy, ← Finset.coe_insert, ← pickStandby_eq_some]
      split
      · rename_i hvolumes
        simp [hvolumes]
      · rename_i hvolumes
        rw [and_iff_right hvolumes]
  · rcases (hgives s' n).1 hn with hn | ⟨rfl, -⟩
    · exact h.idle s' hs' n hn
    · exact hs' (Set.mem_insert _ _)
  · have hbusy := congrArg Worker.Plan.busy heq
    ext n
    rw [hbusy, Finset.mem_coe, Finset.mem_insert, ← Finset.mem_coe, h.busy]
    simp only [Worker.mem_occupied, hgives, true_and]
    rw [or_comm, or_assoc]

theorem Spreading.tearDownReplica {done : Set String} {p : Worker.Plan} {s : String}
    (h : Spreading w now done s p) (i : ℕ) :
    Spreading w now done s (w.tearDownReplica now s p i) := by
  rcases tearDownReplica_cases w now s p i with heq | ⟨nodeId, nodeAddr, -, -, heq⟩
  · rwa [heq]
  · rw [heq]
    refine ⟨⟨h.chosen.concat ?_, fun s' hs' n hn => ?_⟩, ?_⟩
    · rintro _ _ _ _ _ _ _ _ ⟨⟩
    · exact h.idle s' hs' n (gives_tearDown.1 hn)
    · ext n
      simp only [h.busy, Worker.mem_occupied, gives_tearDown]

theorem Spread.planService {done : Set String} {p : Worker.Plan} {s : String}
    {record : ServiceRecord} (h : Spread w now done p) (hget : w.services.get s = some record)
    (hs : s ∉ done) : Spread w now (insert s done) (w.planService now p (s, record)) := by
  have hplanned : Spreading w now done s (w.planService now p (s, record)) := by
    simp only [Worker.planService]
    refine List.foldlRecOn _ _ ?_ fun p hp i _ => hp.tearDownReplica i
    refine List.foldlRecOn _ _ (h.start hs) fun p hp i hi => ?_
    exact hp.scheduleReplica hget (mem_toAdd hi).2
  exact hplanned.toSpread

/-- **Every schedule of a pass is chosen so.** -/
theorem reconcileServices_chosen : Stepwise (ChosenAfter w now) (w.reconcileServices now) := by
  have hstart : Spread w now ∅ ⟨[], w.usedAddresses, ∅⟩ :=
    ⟨Stepwise.nil, fun s _ n => not_gives_nil⟩
  obtain ⟨done, hpass⟩ := reconcileServices_rule (I := Spread w now) hstart
    fun hget hs hp => hp.planService hget hs
  exact hpass.chosen

end Chosen

end ControlPlane

end Keel
