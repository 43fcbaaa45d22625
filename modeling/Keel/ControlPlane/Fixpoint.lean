import Keel.Common.Result
import Keel.ControlPlane.Helpers.Indices
import Keel.ControlPlane.Helpers.Steps
/-!
# A pass that succeeds is the last

A reconcile pass whose every action is accepted leaves nothing for the
next one to do. The indices a pass tears down are those that more than
`desired` present ones are no greater than, so what is left of them — the
replicas on nodes that do not resolve — are the ones the next pass picks,
and skips again; the replicas it added count as present, since they went
to nodes that resolve.
-/

namespace Keel

namespace ControlPlane

variable {w : Worker} {now : Instant}

/-! ## What a pass has an action for -/

/-- Planning one more index keeps the actions there are. -/
theorem actions_scheduleReplica (s : String) (record : ServiceRecord) (p : Worker.Plan) (i : ℕ) :
    p.actions ⊆ (w.scheduleReplica now s record p i).actions := by
  rcases scheduleReplica_cases w now s record p i with h | ⟨_, _, _, _, _, -, -, -, -, -, h⟩
  · rw [h]
    exact List.Subset.refl _
  · rw [h]
    exact List.subset_append_left _ _

theorem actions_tearDownReplica (s : String) (p : Worker.Plan) (i : ℕ) :
    p.actions ⊆ (w.tearDownReplica now s p i).actions := by
  rcases tearDownReplica_cases w now s p i with h | ⟨_, _, -, -, h⟩
  · rw [h]
    exact List.Subset.refl _
  · rw [h]
    exact List.subset_append_left _ _

/-- A loop that keeps the actions there are keeps them to its end. -/
theorem actions_foldl {ι : Type*} {f : Worker.Plan → ι → Worker.Plan}
    (hf : ∀ p x, p.actions ⊆ (f p x).actions) (l : List ι) (p : Worker.Plan) :
    p.actions ⊆ (l.foldl f p).actions := by
  induction l generalizing p with
  | nil => exact List.Subset.refl _
  | cons x l ih => exact List.Subset.trans (hf p x) (ih (f p x))

/-- What a loop adds on its way through `x` is there at its end. -/
theorem mem_actions_foldl {ι : Type*} {f : Worker.Plan → ι → Worker.Plan} {a : ReplicaAction}
    (hf : ∀ p x, p.actions ⊆ (f p x).actions) {l : List ι} {x : ι} (hx : x ∈ l)
    (ha : ∀ p, a ∈ (f p x).actions) (p : Worker.Plan) : a ∈ (l.foldl f p).actions := by
  induction l generalizing p with
  | nil => cases hx
  | cons y l ih =>
    rcases List.mem_cons.1 hx with rfl | hx
    · exact actions_foldl hf l _ (ha p)
    · exact ih hx (f p y)

theorem actions_planService (p : Worker.Plan) (service : String × ServiceRecord) :
    p.actions ⊆ (w.planService now p service).actions := by
  simp only [Worker.planService]
  refine List.Subset.trans ?_ (actions_foldl (actions_tearDownReplica _) _ _)
  exact actions_foldl (actions_scheduleReplica _ _) _
    { p with busy := nodesHostingService service.1 w.placements }

/-- **Every index to remove is torn down** if its node resolves. -/
theorem tearDown_mem {s n addr : String} {record : ServiceRecord} {i : ℕ}
    (hget : w.services.get s = some record)
    (hi : i ∈ (diffReplicas record.desiredReplicas (w.presentIndices now s record)).2)
    (hplaced : w.placements.lookup (replicaName s i) = some n)
    (hresolve : w.registry.resolve n now = .ok addr) :
    .tearDown (replicaName s i) n addr ∈ w.reconcileServices now := by
  refine mem_actions_foldl actions_planService (mem_services_list.2 hget) (fun p => ?_) _
  simp only [Worker.planService]
  refine mem_actions_foldl (actions_tearDownReplica s) hi (fun p => ?_) _
  simp only [Worker.tearDownReplica, hplaced, hresolve]
  exact List.mem_append_right _ List.mem_cons_self

/-! ## A plan carried out -/

/-- A forward that was sent was accepted. -/
def Event.Accepted : Event → Prop
  | .sent _ _ answer => accepted answer = true
  | _ => True

instance : DecidablePred Event.Accepted := fun e => by
  cases e <;> unfold Event.Accepted <;> infer_instance

/-- Where an action leaves its replica. -/
def ReplicaAction.leavesOn : ReplicaAction → Option String
  | .schedule _ nodeId .. => some nodeId
  | .tearDown .. => none

theorem lookup_settle (a : ReplicaAction) (w : Worker) :
    (a.settle w).placements.lookup a.name = a.leavesOn := by
  cases a with
  | schedule name nodeId =>
    rw [ReplicaAction.settle, ReplicaAction.name, Table.lookup_insert_eq, if_pos rfl]
    rfl
  | tearDown name =>
    rw [ReplicaAction.settle, ReplicaAction.name, Table.lookup_erase_eq, if_pos rfl]
    rfl

theorem lookup_settle_of_ne (a : ReplicaAction) (w : Worker) {r : String} (hne : r ≠ a.name) :
    (a.settle w).placements.lookup r = w.placements.lookup r := by
  cases a with
  | schedule name nodeId =>
    simp only [ReplicaAction.name] at hne
    rw [ReplicaAction.settle, Table.lookup_insert_eq, if_neg hne]
  | tearDown name =>
    simp only [ReplicaAction.name] at hne
    rw [ReplicaAction.settle, Table.lookup_erase_eq, if_neg hne]

/-- **An accepted plan does what it says.** No action undoes another, as
each is about a replica of its own. -/
theorem lookup_executed {world world' : World} {as : List ReplicaAction}
    (h : Executed world as world') (hnodup : (as.map ReplicaAction.name).Nodup)
    (haccepted : ∀ e ∈ world'.log, e.Accepted) {a : ReplicaAction} (ha : a ∈ as) :
    world'.worker.placements.lookup a.name = a.leavesOn := by
  induction h with
  | nil => cases ha
  | @snoc as w₁ b answer hdone ih =>
    obtain ⟨hrest, hfresh⟩ := name_notMem_of_nodup hnodup
    have hb : accepted answer = true := haccepted _ List.mem_concat_self
    rw [World.execute, World.answered_worker, if_pos hb]
    rcases List.mem_append.1 ha with ha | ha
    · have hne : a.name ≠ b.name := by
        intro heq
        exact hfresh (heq ▸ List.mem_map_of_mem ha)
      have hold := ih hrest (fun e he => haccepted e (List.mem_append_left _ he)) ha
      rw [lookup_settle_of_ne b _ hne]
      exact hold
    · rw [List.mem_singleton.1 ha]
      exact lookup_settle b _

/-- Every index to add has an action. -/
def NoneSkipped (w : Worker) (now : Instant) : Prop :=
  ∀ s record, w.services.get s = some record →
    ∀ i ∈ (diffReplicas record.desiredReplicas (w.presentIndices now s record)).1,
      replicaName s i ∈ (w.reconcileServices now).map ReplicaAction.name

/-- The replicas of a service a pass is to remove are on nodes that
resolve. -/
def ExcessResolves (w : Worker) (now : Instant) (s : String) (record : ServiceRecord) : Prop :=
  ∀ i ∈ (diffReplicas record.desiredReplicas (w.presentIndices now s record)).2,
    ∀ n, w.placements.lookup (replicaName s i) = some n → (w.registry.resolve n now).isOk = true

section Pass

variable {w' : Worker} {s : String} {record : ServiceRecord} {i : ℕ}

/-- What a pass left of the placements: every action done, and nothing
else. -/
structure Passed (w : Worker) (now : Instant) (w' : Worker) : Prop where
  registry : w'.registry = w.registry
  services : w'.services = w.services
  done : ∀ a ∈ w.reconcileServices now, w'.placements.lookup a.name = a.leavesOn
  frame : ∀ r, r ∉ (w.reconcileServices now).map ReplicaAction.name →
    w'.placements.lookup r = w.placements.lookup r

/-- An action about a replica of a service is the one its index asks
for. -/
theorem action_of_name (hget : w.services.get s = some record) {a : ReplicaAction}
    (ha : a ∈ w.reconcileServices now) (hname : a.name = replicaName s i) :
    (i ∈ (diffReplicas record.desiredReplicas (w.presentIndices now s record)).1 ∧
        ∃ n, a.leavesOn = some n ∧ (w.registry.resolve n now).isOk = true) ∨
      (i ∈ (diffReplicas record.desiredReplicas (w.presentIndices now s record)).2 ∧
        a.leavesOn = none ∧ ∃ n, w.placements.lookup (replicaName s i) = some n ∧
          (w.registry.resolve n now).isOk = true) := by
  have hall : ∀ a ∈ w.reconcileServices now, a.name = replicaName s i →
      (i ∈ (diffReplicas record.desiredReplicas (w.presentIndices now s record)).1 ∧
          ∃ n, a.leavesOn = some n ∧ (w.registry.resolve n now).isOk = true) ∨
        (i ∈ (diffReplicas record.desiredReplicas (w.presentIndices now s record)).2 ∧
          a.leavesOn = none ∧ ∃ n, w.placements.lookup (replicaName s i) = some n ∧
            (w.registry.resolve n now).isOk = true) := by
    refine reconcileServices_forall ?_ ?_
    · intro s' record' j nodeId nodeAddr podCidr address standby p hget' hj _ _ hresolve _ hname
      obtain ⟨rfl, rfl⟩ := replicaName_inj hname
      rw [hget] at hget'
      cases hget'
      exact Or.inl ⟨hj, nodeId, rfl, by rw [hresolve]; rfl⟩
    · intro s' record' j nodeId nodeAddr hget' hj hplaced hresolve hname
      obtain ⟨rfl, rfl⟩ := replicaName_inj hname
      rw [hget] at hget'
      cases hget'
      exact Or.inr ⟨hj, rfl, nodeId, hplaced, by rw [hresolve]; rfl⟩
  exact hall a ha hname

theorem passed_of_executed {world' : World} {l : List Event}
    (h : Executed ⟨w, l⟩ (w.reconcileServices now) world')
    (haccepted : ∀ e ∈ world'.log, e.Accepted) : Passed w now world'.worker :=
  ⟨h.registry, h.services, fun _ => lookup_executed h nodup_reconcileServices haccepted,
    fun _ hr => (h.lookup_eq hr).1⟩

/-- A replica a pass tears down: to be removed, on a node that
resolves. -/
def TakenDown (w : Worker) (now : Instant) (s : String) (record : ServiceRecord) (i : ℕ) : Prop :=
  i ∈ (diffReplicas record.desiredReplicas (w.presentIndices now s record)).2 ∧
    ∃ n, w.placements.lookup (replicaName s i) = some n ∧ (w.registry.resolve n now).isOk = true

/-- **Who is present after a pass**: those added, and those that were and
were not torn down. -/
theorem Passed.mem_presentIndices (h : Passed w now w') (hadded : NoneSkipped w now)
    (hget : w.services.get s = some record) :
    i ∈ w'.presentIndices now s record ↔
      i ∈ (diffReplicas record.desiredReplicas (w.presentIndices now s record)).1 ∨
        i ∈ w.presentIndices now s record ∧ ¬ TakenDown w now s record i := by
  rw [mem_presentIndices_iff, h.registry]
  by_cases hname : replicaName s i ∈ (w.reconcileServices now).map ReplicaAction.name
  · obtain ⟨a, ha, haname⟩ := List.mem_map.1 hname
    have hdone := h.done a ha
    rw [haname] at hdone
    rcases action_of_name hget ha haname with
      ⟨hi, n, hn, hresolves⟩ | ⟨hi, hn, hplaced⟩
    · rw [hdone, hn]
      refine iff_of_true ⟨(mem_toAdd hi).2, n, rfl, fun _ => hresolves⟩ (Or.inl hi)
    · rw [hdone, hn]
      refine iff_of_false ?_ ?_
      · rintro ⟨-, n, hnone, -⟩
        cases hnone
      · rintro (hadd | ⟨-, hkept⟩)
        · exact (mem_toAdd hadd).1 (mem_toRemove hi)
        · exact hkept ⟨hi, hplaced⟩
  · -- Nothing was done about this one, so it was neither to be added nor torn down.
    have hadd : i ∉ (diffReplicas record.desiredReplicas (w.presentIndices now s record)).1 :=
      fun hi => hname (hadded s record hget i hi)
    have hkept : ¬ TakenDown w now s record i := by
      rintro ⟨hi, n, hplaced, hresolves⟩
      obtain ⟨addr, haddr⟩ := isOk_iff_exists.1 hresolves
      exact hname (List.mem_map_of_mem (tearDown_mem hget hi hplaced haddr))
    rw [h.frame _ hname, ← mem_presentIndices_iff]
    simp [hadd, hkept]

/-- **The number is right** where everything in excess could be torn
down. -/
theorem Passed.card_presentIndices (h : Passed w now w') (hadded : NoneSkipped w now)
    (hget : w.services.get s = some record) (hdesired : record.desiredReplicas < 2 ^ 32)
    (hfits : (w.presentIndices now s record).card < 2 ^ 32)
    (hexcess : ExcessResolves w now s record) :
    (w'.presentIndices now s record).card = record.desiredReplicas := by
  set P := w.presentIndices now s record with hP
  set add := (diffReplicas record.desiredReplicas P).1 with hadd
  set remove := (diffReplicas record.desiredReplicas P).2 with hremove
  have hbound : ∀ i ∈ P, i < 2 ^ 32 := fun i hi => (mem_presentIndices_iff.1 hi).1
  have hafter : w'.presentIndices now s record = add.toFinset ∪ P \ remove.toFinset := by
    ext i
    rw [h.mem_presentIndices hadded hget, Finset.mem_union, Finset.mem_sdiff, List.mem_toFinset,
      List.mem_toFinset]
    refine or_congr_right (and_congr_right fun hi => not_congr ⟨fun ht => ht.1, fun hr => ?_⟩)
    obtain ⟨-, n, hn, -⟩ := mem_presentIndices_iff.1 hi
    exact ⟨hr, n, hn, hexcess i hr n hn⟩
  have hdisjoint : Disjoint add.toFinset (P \ remove.toFinset) := by
    refine Finset.disjoint_left.2 fun i hi hi' => ?_
    exact (mem_toAdd (List.mem_toFinset.1 hi)).1 (Finset.mem_sdiff.1 hi').1
  have hsub : remove.toFinset ⊆ P := fun i hi => mem_toRemove (List.mem_toFinset.1 hi)
  have hnodup := nodup_diffReplicas record.desiredReplicas P
  rw [hafter, Finset.card_union_of_disjoint hdisjoint, Finset.card_sdiff_of_subset hsub,
    List.toFinset_card_of_nodup hnodup.of_append_left,
    List.toFinset_card_of_nodup hnodup.of_append_right, length_toAdd hfits hdesired.le hbound,
    length_toRemove hfits]
  omega

/-- Where there is too little, nothing is in excess. -/
theorem excessResolves_of_le
    (hle : (w.presentIndices now s record).card ≤ record.desiredReplicas)
    (hfits : (w.presentIndices now s record).card < 2 ^ 32) : ExcessResolves w now s record := by
  intro i hi
  have hlength := length_toRemove hfits record.desiredReplicas
  rw [Nat.sub_eq_zero_of_le hle] at hlength
  rw [List.length_eq_zero_iff.1 hlength] at hi
  cases hi

/-- With too many before, nobody new is present after. -/
theorem Passed.subset_presentIndices (h : Passed w now w') (hadded : NoneSkipped w now)
    (hget : w.services.get s = some record)
    (hfits : (w.presentIndices now s record).card < 2 ^ 32)
    (hlt : record.desiredReplicas < (w.presentIndices now s record).card) :
    w'.presentIndices now s record ⊆ w.presentIndices now s record := by
  intro i hi
  rcases (h.mem_presentIndices hadded hget).1 hi with hadd | ⟨hi, -⟩
  · rw [diffReplicas_eq hfits, if_neg (Nat.not_lt.2 hlt.le), if_pos hlt] at hadd
    cases hadd
  · exact hi

/-- **As many as there should be, or more**, and never every index. -/
theorem Passed.card_bounds (h : Passed w now w') (hadded : NoneSkipped w now)
    (hget : w.services.get s = some record) (hdesired : record.desiredReplicas < 2 ^ 32)
    (hfits : (w.presentIndices now s record).card < 2 ^ 32) :
    record.desiredReplicas ≤ (w'.presentIndices now s record).card ∧
      (w'.presentIndices now s record).card < 2 ^ 32 := by
  rcases Nat.lt_or_ge record.desiredReplicas (w.presentIndices now s record).card with hlt | hle
  · have hsub : w.presentIndices now s record \
        (diffReplicas record.desiredReplicas (w.presentIndices now s record)).2.toFinset ⊆
          w'.presentIndices now s record := by
      intro i hi
      obtain ⟨hi, hkept⟩ := Finset.mem_sdiff.1 hi
      exact (h.mem_presentIndices hadded hget).2
        (Or.inr ⟨hi, fun ht => hkept (List.mem_toFinset.2 ht.1)⟩)
    have hcard := Finset.card_le_card hsub
    rw [Finset.card_sdiff_of_subset fun i hi => mem_toRemove (List.mem_toFinset.1 hi),
      List.toFinset_card_of_nodup (nodup_diffReplicas _ _).of_append_right,
      length_toRemove hfits] at hcard
    have hle := Finset.card_le_card (h.subset_presentIndices hadded hget hfits hlt)
    omega
  · have hexcess := excessResolves_of_le hle hfits
    rw [h.card_presentIndices hadded hget hdesired hfits hexcess]
    exact ⟨le_rfl, hdesired⟩

/-- What the next pass is to remove this one was to remove too, and could
not. -/
theorem Passed.not_takenDown (h : Passed w now w') (hadded : NoneSkipped w now)
    (hget : w.services.get s = some record) (hdesired : record.desiredReplicas < 2 ^ 32)
    (hfits : (w.presentIndices now s record).card < 2 ^ 32) {n : String}
    (hi : i ∈ (diffReplicas record.desiredReplicas (w'.presentIndices now s record)).2)
    (hplaced : w'.placements.lookup (replicaName s i) = some n) :
    (w'.registry.resolve n now).isOk = false := by
  have hfits' := (h.card_bounds hadded hget hdesired hfits).2
  obtain ⟨hmem, hrank⟩ := (mem_toRemove_iff hfits').1 hi
  rcases Nat.lt_or_ge record.desiredReplicas (w.presentIndices now s record).card with hlt | hle
  · have hsub := h.subset_presentIndices hadded hget hfits hlt
    have hrank' := Finset.card_le_card (Finset.filter_subset_filter (· ≤ i) hsub)
    have hremove : i ∈ (diffReplicas record.desiredReplicas (w.presentIndices now s record)).2 :=
      (mem_toRemove_iff hfits).2 ⟨hsub hmem, by omega⟩
    have hkept : ¬ TakenDown w now s record i := by
      rcases (h.mem_presentIndices hadded hget).1 hmem with hadd | ⟨-, hkept⟩
      · exact absurd (hsub hmem) (mem_toAdd hadd).1
      · exact hkept
    have hname : replicaName s i ∉ (w.reconcileServices now).map ReplicaAction.name := by
      intro hname
      obtain ⟨a, ha, haname⟩ := List.mem_map.1 hname
      rcases action_of_name hget ha haname with ⟨hadd, -⟩ | ⟨-, -, hresolved⟩
      · exact (mem_toAdd hadd).1 (hsub hmem)
      · exact hkept ⟨hremove, hresolved⟩
    rw [h.frame _ hname] at hplaced
    rw [h.registry, ← Bool.not_eq_true]
    exact fun hresolves => hkept ⟨hremove, n, hplaced, hresolves⟩
  · -- The number is right already, and nothing ranks above it.
    have hcard := h.card_presentIndices hadded hget hdesired hfits (excessResolves_of_le hle hfits)
    have := Finset.card_filter_le (w'.presentIndices now s record) (· ≤ i)
    omega

/-- **The next pass is empty.** -/
theorem Passed.reconcileServices_eq_nil (h : Passed w now w') (hadded : NoneSkipped w now)
    (hdesired : ∀ s record, w.services.get s = some record → record.desiredReplicas < 2 ^ 32)
    (hfits : ∀ s record, w.services.get s = some record →
      (w.presentIndices now s record).card < 2 ^ 32) :
    w'.reconcileServices now = [] := by
  refine List.eq_nil_iff_forall_not_mem.2 (reconcileServices_forall ?_ ?_)
  · intro s record i nodeId nodeAddr podCidr address standby p hget hi _ _ _ _
    rw [h.services] at hget
    obtain ⟨hle, hfits'⟩ :=
      h.card_bounds hadded hget (hdesired s record hget) (hfits s record hget)
    rw [diffReplicas_eq hfits', if_neg (Nat.not_lt.2 hle)] at hi
    split at hi <;> cases hi
  · intro s record i nodeId nodeAddr hget hi hplaced hresolve
    rw [h.services] at hget
    have hdead := h.not_takenDown hadded hget (hdesired s record hget) (hfits s record hget) hi
      hplaced
    rw [hresolve] at hdead
    cases hdead

/-- A service with every index present keeps them all. -/
theorem Passed.card_of_full (h : Passed w now w') (hadded : NoneSkipped w now)
    (hget : w.services.get s = some record)
    (hfull : (w.presentIndices now s record).card = 2 ^ 32) :
    ExcessResolves w now s record ∧ (w'.presentIndices now s record).card = 2 ^ 32 := by
  have hnothing : diffReplicas record.desiredReplicas (w.presentIndices now s record) = ([], []) :=
    diffReplicas_full (fun i hi => (mem_presentIndices_iff.1 hi).1) hfull
  have hexcess : ExcessResolves w now s record := by
    intro i hi
    rw [hnothing] at hi
    cases hi
  have hsame : w'.presentIndices now s record = w.presentIndices now s record := by
    ext i
    rw [h.mem_presentIndices hadded hget, TakenDown, hnothing]
    simp
  exact ⟨hexcess, by rw [hsame, hfull]⟩

end Pass

/-- The tables a plan leaves, as the handler carries it out. -/
def afterPass (w : Worker) (now : Instant) (o : ℕ → Choice) : World :=
  ((executeReplicaActions (w.reconcileServices now)).run semantics o 0 ⟨w, []⟩).2

/-- **One successful pass reaches a fixpoint**, unless a service has every
index there is. If every index to add got an action, and every action of
the plan was sent and accepted, then every service whose replicas in
excess were on nodes that resolve has as many present as it should, and
the next pass at that time plans nothing. -/
theorem reconcile_fixpoint_iff (w : Worker) (now : Instant) (o : ℕ → Choice)
    (hdesired : ∀ s record, w.services.get s = some record → record.desiredReplicas < 2 ^ 32)
    (hadded : NoneSkipped w now) (haccepted : ∀ e ∈ (afterPass w now o).log, e.Accepted) :
    ((∀ s record, w.services.get s = some record → ExcessResolves w now s record →
        ((afterPass w now o).worker.presentIndices now s record).card = record.desiredReplicas) ∧
      (afterPass w now o).worker.reconcileServices now = []) ↔
    ∀ s record, w.services.get s = some record →
      (w.presentIndices now s record).card ≠ 2 ^ 32 := by
  have hexecuted := Prog.wp_run (o := o) (i := 0)
    (wp_executeReplicaActions (w.reconcileServices now) ⟨w, []⟩)
  have hpassed : Passed w now (afterPass w now o).worker := passed_of_executed hexecuted haccepted
  constructor
  · rintro ⟨hright, -⟩ s record hget hfull
    obtain ⟨hexcess, hcard⟩ := hpassed.card_of_full hadded hget hfull
    have := hright s record hget hexcess
    have := hdesired s record hget
    omega
  · intro hnotFull
    have hfits : ∀ s record, w.services.get s = some record →
        (w.presentIndices now s record).card < 2 ^ 32 := fun s record hget =>
      lt_of_le_of_ne card_presentIndices_le (hnotFull s record hget)
    refine ⟨fun s record hget hexcess => ?_, hpassed.reconcileServices_eq_nil hadded hdesired hfits⟩
    exact hpassed.card_presentIndices hadded hget (hdesired s record hget) (hfits s record hget)
      hexcess

namespace Sample

/-- Two nodes and a service of two replicas, which no node has taken
yet. -/
def webRefused : Worker :=
  final spawn [(register "a", clock 0 200), (register "b", clock 0 200),
    (service "web" 2 [], clock 1 500)]

end Sample

open Sample in
theorem reconcile_fixpoint_web :
    webRefused.reconcileServices (2 * second) ≠ [] ∧
      (afterPass webRefused (2 * second) (clock 2 200)).worker.reconcileServices (2 * second) =
        [] := by
  refine ⟨by decide +kernel, ?_⟩
  have hdesired : ∀ p ∈ webRefused.services.list, p.2.desiredReplicas < 2 ^ 32 ∧
      (webRefused.presentIndices (2 * second) p.1 p.2).card ≠ 2 ^ 32 := by decide +kernel
  have hadded : ∀ p ∈ webRefused.services.list,
      ∀ i ∈ (diffReplicas p.2.desiredReplicas
        (webRefused.presentIndices (2 * second) p.1 p.2)).1,
        replicaName p.1 i ∈ (webRefused.reconcileServices (2 * second)).map ReplicaAction.name := by
    decide +kernel
  exact ((reconcile_fixpoint_iff webRefused (2 * second) (clock 2 200)
    (fun s record hget => (hdesired (s, record) (mem_services_list.2 hget)).1)
    (fun s record hget => hadded (s, record) (mem_services_list.2 hget)) (by decide +kernel)).2
    fun s record hget => (hdesired (s, record) (mem_services_list.2 hget)).2).2

/-! ## Every index -/

namespace Sample

/-- The first `n` replicas of a service, all on one node. -/
def firstReplicas (n : ℕ) : Placements where
  entries := (List.range n).map fun i => ⟨replicaName "web" i, "a"⟩
  nodupKeys := by
    rw [List.NodupKeys, List.keys, List.map_map]
    exact List.nodup_range.map fun i j hij => (replicaName_inj hij).2

theorem lookup_firstReplicas {n i : ℕ} (hi : i < n) :
    (firstReplicas n).lookup (replicaName "web" i) = some "a" := by
  refine AList.mem_lookup_iff.2 ?_
  rw [firstReplicas, List.mem_map]
  exact ⟨i, List.mem_range.2 hi, rfl⟩

/-- A node, and a service of no replicas with every replica it could have
placed there. -/
def everyReplica : Worker :=
  { final spawn [(register "a", clock 0 200), (service "web" 0 [], clock 1 200)] with
    placements := firstReplicas (2 ^ 32) }

theorem presentIndices_everyReplica :
    ∀ p ∈ everyReplica.services.list, p.2.desiredReplicas = 0 ∧
      (everyReplica.presentIndices (2 * second) p.1 p.2).card = 2 ^ 32 := by
  have hweb : ∀ p ∈ everyReplica.services.list, p.1 = "web" ∧ p.2.desiredReplicas = 0 := by
    decide +kernel
  have hresolves : (everyReplica.registry.resolve "a" (2 * second)).isOk = true := by
    decide +kernel
  intro p hp
  obtain ⟨hname, hnone⟩ := hweb p hp
  have hall : everyReplica.presentIndices (2 * second) p.1 p.2 = Finset.range (2 ^ 32) := by
    ext i
    rw [mem_presentIndices_iff, Finset.mem_range, hname]
    refine and_iff_left_of_imp fun hi => ⟨"a", ?_, fun _ => hresolves⟩
    exact lookup_firstReplicas hi
  rw [hall, Finset.card_range]
  exact ⟨hnone, rfl⟩

end Sample

open Sample in
/-- **A service with every index present is left as it is**, though it is
to have none: `len() as u32` of all the indices is zero. -/
theorem everyReplica_left :
    (∀ s record, everyReplica.services.get s = some record → record.desiredReplicas < 2 ^ 32) ∧
      NoneSkipped everyReplica (2 * second) ∧
      (∀ e ∈ (afterPass everyReplica (2 * second) (clock 2 200)).log, e.Accepted) ∧
      ∃ record, everyReplica.services.get "web" = some record ∧
        ExcessResolves everyReplica (2 * second) "web" record ∧
        ((afterPass everyReplica (2 * second) (clock 2 200)).worker.presentIndices (2 * second)
          "web" record).card ≠ record.desiredReplicas := by
  have hnothing : ∀ s record, everyReplica.services.get s = some record →
      diffReplicas record.desiredReplicas (everyReplica.presentIndices (2 * second) s record) =
        ([], []) := fun s record hget =>
    diffReplicas_full (fun i hi => (mem_presentIndices_iff.1 hi).1)
      (presentIndices_everyReplica (s, record) (mem_services_list.2 hget)).2
  have hplan : everyReplica.reconcileServices (2 * second) = [] := by
    refine List.eq_nil_iff_forall_not_mem.2 (reconcileServices_forall ?_ ?_)
    · intro s record i nodeId nodeAddr podCidr address standby p hget hi _ _ _ _
      rw [hnothing s record hget] at hi
      cases hi
    · intro s record i nodeId nodeAddr hget hi _ _
      rw [hnothing s record hget] at hi
      cases hi
  have hafter : afterPass everyReplica (2 * second) (clock 2 200) = ⟨everyReplica, []⟩ := by
    rw [afterPass, hplan]
    rfl
  obtain ⟨record, hget⟩ : ∃ record, everyReplica.services.get "web" = some record :=
    Option.isSome_iff_exists.1 (by decide +kernel)
  obtain ⟨hzero, hfull⟩ := presentIndices_everyReplica ("web", record) (mem_services_list.2 hget)
  refine ⟨fun s record hget => ?_, fun s record hget i hi => ?_, ?_, record, hget, ?_, ?_⟩
  · rw [(presentIndices_everyReplica (s, record) (mem_services_list.2 hget)).1]
    decide
  · rw [hnothing s record hget] at hi
    cases hi
  · rw [hafter]
    exact fun e he => absurd he List.not_mem_nil
  · intro i hi
    rw [hnothing "web" record hget] at hi
    cases hi
  · rw [hafter, hfull, hzero]
    decide

end ControlPlane

end Keel
