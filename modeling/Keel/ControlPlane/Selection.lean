import Keel.ControlPlane.Helpers.Nodes
import Keel.ControlPlane.Panics
/-!
# Owners, indices and nodes

Three choices the control plane makes, each of which could depend on the
order of a map it iterates, and does not: whose a placed name is
(`replica_names_identify`), which indices of a service to add or remove
(`diffReplicas_exact`), and which node to put a replica on
(`pickNode_optimal`).
-/

namespace Keel

namespace ControlPlane

/-! ## Owners -/

section Owners

variable {name s : String} {placements : Placements} {services services' : Services}

theorem replicaIndex_eq_some_iff {i : ℕ} (hi : i < 2 ^ 32) :
    replicaIndex s name = some i ↔ name = replicaName s i := by
  constructor
  · exact eq_replicaName_of_replicaIndex
  · rintro rfl
    exact replicaIndex_replicaName hi s

theorem ownerOf_of_unplaced (h : placements.lookup name = none) :
    ownerOf name placements services = none := by
  unfold ownerOf
  rw [h]

/-- A placed name is the service's that it reads as a replica of: there is
no other. -/
theorem ownerOf_eq_service_iff : ownerOf name placements services = some (.service s) ↔
    (placements.lookup name).isSome = true ∧ s ∈ services.byName.keys ∧
      (replicaIndex s name).isSome = true := by
  cases hplaced : placements.lookup name with
  | none => simp [ownerOf_of_unplaced hplaced]
  | some nodeId =>
    simp only [ownerOf, hplaced, Option.isSome_some, true_and]
    cases hfind : services.byName.keys.find? fun s => (replicaIndex s name).isSome with
    | none =>
      have hnone := List.find?_eq_none.1 hfind
      simp only [Option.some.injEq, reduceCtorEq, false_iff, not_and]
      exact hnone s
    | some s' =>
      have hread := List.find?_some hfind
      simp only [Option.some.injEq, Owner.service.injEq]
      constructor
      · rintro rfl
        exact ⟨List.mem_of_find?_eq_some hfind, hread⟩
      · rintro ⟨-, hread'⟩
        exact service_unique hread hread'

theorem ownerOf_eq_unmanaged_iff : ownerOf name placements services = some .unmanaged ↔
    (placements.lookup name).isSome = true ∧
      ∀ s ∈ services.byName.keys, (replicaIndex s name).isSome = false := by
  cases hplaced : placements.lookup name with
  | none => simp [ownerOf_of_unplaced hplaced]
  | some nodeId =>
    simp only [ownerOf, hplaced, Option.isSome_some, true_and]
    cases hfind : services.byName.keys.find? fun s => (replicaIndex s name).isSome with
    | none =>
      have hnone := List.find?_eq_none.1 hfind
      simpa using hnone
    | some s' =>
      have hread := List.find?_some hfind
      simp only [Option.some.injEq, reduceCtorEq, false_iff, not_forall]
      exact ⟨s', List.mem_of_find?_eq_some hfind, by rw [hread]; decide⟩

/-- The order the services are looked at in does not matter. -/
theorem ownerOf_perm (h : services.byName.entries.Perm services'.byName.entries) :
    ownerOf name placements services = ownerOf name placements services' := by
  have hkeys : ∀ s, s ∈ services.byName.keys ↔ s ∈ services'.byName.keys := fun s =>
    (h.map Sigma.fst).mem_iff
  refine Option.ext fun owner => ?_
  cases owner with
  | unmanaged => simp only [ownerOf_eq_unmanaged_iff, hkeys]
  | service s => simp only [ownerOf_eq_service_iff, hkeys]

end Owners

/-- **Replica names identify service and index.** A name is read as
exactly the replica it was printed for, by one service at most; so whose a
placed name is does not depend on the order the services are kept in. -/
theorem replica_names_identify (name : String) (placements : Placements)
    {services services' : Services}
    (hperm : services.byName.entries.Perm services'.byName.entries) :
    (∀ s i, i < 2 ^ 32 → (replicaIndex s name = some i ↔ name = replicaName s i)) ∧
      (∀ s s', (replicaIndex s name).isSome = true → (replicaIndex s' name).isSome = true →
        s = s') ∧
      ownerOf name placements services = ownerOf name placements services' :=
  ⟨fun _ _ hi => replicaIndex_eq_some_iff hi, fun _ _ => service_unique, ownerOf_perm hperm⟩

namespace Sample

/-- Services of these names, the last looked at first. -/
def services (names : List String) : Services where
  serviceCidr := serviceCidr
  byName := names.foldl (fun t s => t.insert s ⟨2, template [], serviceCidr.addr, 80⟩) ∅

end Sample

open Sample in
theorem replica_names_identify_nested :
    (services ["web", "web-1"]).byName.keys ≠ (services ["web-1", "web"]).byName.keys ∧
      ownerOf "web-1-0" (AList.insert "web-1-0" "a" ∅) (services ["web", "web-1"]) =
        ownerOf "web-1-0" (AList.insert "web-1-0" "a" ∅) (services ["web-1", "web"]) := by
  refine ⟨by decide +kernel, ?_⟩
  have hswap : (services ["web", "web-1"]).byName.entries.Perm
      (services ["web-1", "web"]).byName.entries := List.Perm.swap _ _ _
  exact (replica_names_identify "web-1-0" _ hswap).2.2

/-! ## Indices -/

/-- **What is exact of a difference**: the indices to add are the least
that are missing, those to remove the greatest there are, and with them
there are as many as desired. -/
structure ExactDiff (desired : ℕ) (h : Finset ℕ) (add remove : List ℕ) : Prop where
  nodup_add : add.Nodup
  nodup_remove : remove.Nodup
  one_way : add = [] ∨ remove = []
  least : ∀ i ∈ add, i ∉ h ∧ i < desired ∧ ∀ j < i, j ∈ h ∨ j ∈ add
  greatest : ∀ i ∈ remove, i ∈ h ∧ ∀ j ∈ h, i < j → j ∈ remove
  count : (h.card : ℤ) + add.length - remove.length = desired

section Indices

variable {desired : ℕ} {h : Finset ℕ}

theorem diffReplicas_one_way (desired : ℕ) (h : Finset ℕ) :
    (diffReplicas desired h).1 = [] ∨ (diffReplicas desired h).2 = [] := by
  unfold diffReplicas
  simp only
  split
  · exact Or.inr rfl
  split
  · exact Or.inl rfl
  · exact Or.inl rfl

/-- None that is missing is passed over. -/
theorem below_leastMissing {j k : ℕ} (hlt : j < k) : ∀ {left i count : ℕ},
    k ∈ leastMissing h left i count → i ≤ j → j ∈ h ∨ j ∈ leastMissing h left i count := by
  intro left
  induction left with
  | zero =>
    intro i count hk
    simp [leastMissing] at hk
  | succ left ih =>
    intro i count hk hij
    cases count with
    | zero => simp [leastMissing] at hk
    | succ count =>
      unfold leastMissing at hk ⊢
      by_cases hi : i ∈ h
      · rw [if_pos hi] at hk ⊢
        rcases hij.lt_or_eq with hij | rfl
        · exact ih hk hij
        · exact Or.inl hi
      · rw [if_neg hi] at hk ⊢
        rcases hij.lt_or_eq with hij | rfl
        · have hk := (List.mem_cons.1 hk).resolve_left (by omega)
          exact (ih hk hij).imp_right fun hj => List.mem_cons_of_mem _ hj
        · exact Or.inr List.mem_cons_self

/-- What is below an index to add is present or added too. -/
theorem below_toAdd {i j : ℕ} (hi : i ∈ (diffReplicas desired h).1) (hlt : j < i) :
    j ∈ h ∨ j ∈ (diffReplicas desired h).1 := by
  unfold diffReplicas at hi ⊢
  simp only at hi ⊢
  split at hi
  · rename_i hfewer
    rw [if_pos hfewer]
    exact below_leastMissing hlt hi (Nat.zero_le j)
  split at hi
  · cases hi
  · cases hi

/-- The indices to add are below `desired`: everything below the last one
counts. -/
theorem lt_desired_of_mem_toAdd (hfits : h.card < 2 ^ 32) (hdesired : desired ≤ 2 ^ 32)
    (hh : ∀ i ∈ h, i < 2 ^ 32) {i : ℕ} (hi : i ∈ (diffReplicas desired h).1) : i < desired := by
  have hsub : Finset.range (i + 1) ⊆ h ∪ (diffReplicas desired h).1.toFinset := by
    intro j hj
    rw [Finset.mem_union, List.mem_toFinset]
    rcases Nat.lt_succ_iff_lt_or_eq.1 (Finset.mem_range.1 hj) with hlt | rfl
    · exact below_toAdd hi hlt
    · exact Or.inr hi
  have hcard := (Finset.card_le_card hsub).trans (Finset.card_union_le _ _)
  rw [Finset.card_range] at hcard
  have hadd := List.toFinset_card_le (diffReplicas desired h).1
  have hlength := length_toAdd hfits hdesired hh
  have hpos := List.length_pos_of_mem hi
  omega

/-- What is above an index to remove goes too. -/
theorem above_toRemove (hfits : h.card < 2 ^ 32) {i j : ℕ} (hi : i ∈ (diffReplicas desired h).2)
    (hj : j ∈ h) (hlt : i < j) : j ∈ (diffReplicas desired h).2 := by
  rw [mem_toRemove_iff hfits] at hi ⊢
  have hmono : (h.filter (· ≤ i)).card ≤ (h.filter (· ≤ j)).card := by
    refine Finset.card_le_card (Finset.monotone_filter_right h fun k _ hk => ?_)
    exact le_trans hk hlt.le
  exact ⟨hj, lt_of_lt_of_le hi.2 hmono⟩

end Indices

/-- **The difference is exact**, and finding it never steps past the last
index. -/
theorem diffReplicas_exact {desired : ℕ} {h : Finset ℕ} (hdesired : desired < 2 ^ 32)
    (hh : ∀ i ∈ h, i < 2 ^ 32) (hfits : h.card < 2 ^ 32) :
    Checked.diffReplicas desired h = .ok (diffReplicas desired h) ∧
      ExactDiff desired h (diffReplicas desired h).1 (diffReplicas desired h).2 := by
  refine ⟨checked_diffReplicas hdesired hh fun _ => hfits.ne, ?_⟩
  have hadded := length_toAdd hfits hdesired.le hh
  have hremoved := length_toRemove hfits desired
  have hnodup := nodup_diffReplicas desired h
  refine ⟨hnodup.of_append_left, hnodup.of_append_right, diffReplicas_one_way desired h, ?_, ?_, ?_⟩
  · intro i hi
    exact ⟨(mem_toAdd hi).1, lt_desired_of_mem_toAdd hfits hdesired.le hh hi,
      fun j hlt => below_toAdd hi hlt⟩
  · intro i hi
    exact ⟨mem_toRemove hi, fun j hj hlt => above_toRemove hfits hi hj hlt⟩
  · rw [hadded, hremoved]
    omega

/-- The greatest index there is, and one below it. -/
theorem diffReplicas_exact_top :
    ExactDiff 4 {1, 2 ^ 32 - 1} (diffReplicas 4 {1, 2 ^ 32 - 1}).1
      (diffReplicas 4 {1, 2 ^ 32 - 1}).2 :=
  (diffReplicas_exact (by decide) (by decide) (by decide)).2

/-! ## Nodes -/

section Nodes

variable {f64 : ℚ → ℚ} {nodes nodes' : List NodeResources} {x y : NodeResources} {id : String}

/-- **The best of the nodes**: no other has more headroom, nor as much and
a smaller id. -/
structure Best (f64 : ℚ → ℚ) (nodes : List NodeResources) (x : NodeResources) : Prop where
  mem : x ∈ nodes
  headroom : ∀ y ∈ nodes, headroomScore f64 y ≤ headroomScore f64 x
  least : ∀ y ∈ nodes, headroomScore f64 y = headroomScore f64 x → x.id ≤ y.id

theorem Best.congr (h : ∀ y, y ∈ nodes ↔ y ∈ nodes') (hx : Best f64 nodes x) : Best f64 nodes' x :=
  ⟨(h x).1 hx.mem, fun y hy => hx.headroom y ((h y).2 hy), fun y hy => hx.least y ((h y).2 hy)⟩

/-- The best nodes share an id. -/
theorem Best.id_eq (hx : Best f64 nodes x) (hy : Best f64 nodes y) : x.id = y.id := by
  have hscore := le_antisymm (hx.headroom y hy.mem) (hy.headroom x hx.mem)
  exact le_antisymm (hx.least y hy.mem hscore) (hy.least x hx.mem hscore.symm)

theorem pickNode_eq_ok_iff_best : pickNode f64 nodes = .ok id ↔ ∃ x, Best f64 nodes x ∧ x.id = id := by
  rw [pickNode, foldl_better]
  cases hmax : (nodes.map fun x => (headroomScore f64 x, x.id)).argmax rank with
  | none =>
    have hnil := List.map_eq_nil_iff.1 (List.argmax_eq_none.1 hmax)
    simp only [reduceCtorEq, false_iff, not_exists, not_and]
    intro x hx
    have hmem := hx.mem
    rw [hnil] at hmem
    cases hmem
  | some best =>
    obtain ⟨x, hx, rfl⟩ := List.mem_map.1 (List.argmax_mem hmax)
    have hbest : Best f64 nodes x := by
      have hle : ∀ y ∈ nodes, rank (headroomScore f64 y, y.id) ≤ rank (headroomScore f64 x, x.id) :=
        fun y hy => List.le_of_mem_argmax (List.mem_map.2 ⟨y, hy, rfl⟩) hmax
      exact ⟨hx, fun y hy => (rank_le.1 (hle y hy)).1, fun y hy => (rank_le.1 (hle y hy)).2⟩
    simp only [Except.ok.injEq]
    constructor
    · rintro rfl
      exact ⟨x, hbest, rfl⟩
    · rintro ⟨y, hy, rfl⟩
      exact hbest.id_eq hy

theorem pickNode_eq_error_iff : pickNode f64 nodes = .error .noAvailableNodes ↔ nodes = [] := by
  rw [pickNode, foldl_better]
  cases hmax : (nodes.map fun x => (headroomScore f64 x, x.id)).argmax rank with
  | none =>
    have hnil := List.map_eq_nil_iff.1 (List.argmax_eq_none.1 hmax)
    simp [hnil]
  | some best =>
    simp only [reduceCtorEq, false_iff]
    rintro rfl
    cases hmax

/-- What is picked goes by which nodes there are alone. -/
theorem pickNode_congr (h : ∀ y, y ∈ nodes ↔ y ∈ nodes') : pickNode f64 nodes = pickNode f64 nodes' := by
  have hok : ∀ id, pickNode f64 nodes = .ok id ↔ pickNode f64 nodes' = .ok id := by
    intro id
    rw [pickNode_eq_ok_iff_best, pickNode_eq_ok_iff_best]
    constructor
    · rintro ⟨x, hx, hid⟩
      exact ⟨x, hx.congr h, hid⟩
    · rintro ⟨x, hx, hid⟩
      exact ⟨x, hx.congr fun y => (h y).symm, hid⟩
  cases hpick : pickNode f64 nodes with
  | ok id => exact ((hok id).1 hpick).symm
  | error e =>
    cases hpick' : pickNode f64 nodes' with
    | ok id =>
      rw [(hok id).2 hpick'] at hpick
      cases hpick
    | error e' =>
      cases e
      cases e'
      rfl

theorem pickNodeForService_of_free {busy : Finset String} (h : ∃ n ∈ nodes, n.id ∉ busy) :
    pickNodeForService f64 nodes busy = pickNode f64 (nodes.filter fun n => n.id ∉ busy) := by
  obtain ⟨n, hn, hfree⟩ := h
  have hsome : nodes.filter (fun n => n.id ∉ busy) ≠ [] :=
    List.ne_nil_of_mem (List.mem_filter.2 ⟨hn, by simpa using hfree⟩)
  unfold pickNodeForService
  exact if_pos hsome

theorem pickNodeForService_of_busy {busy : Finset String} (h : ∀ n ∈ nodes, n.id ∈ busy) :
    pickNodeForService f64 nodes busy = pickNode f64 nodes := by
  have hnone : nodes.filter (fun n => n.id ∉ busy) = [] :=
    List.filter_eq_nil_iff.2 fun n hn => by simpa using h n hn
  unfold pickNodeForService
  exact if_neg (not_not_intro hnone)

end Nodes

/-- **The best node is picked**, whatever order they are listed in: off
the busy ones where there is one, and else of all. This holds of scores that
are rounded to an `f64`, and of exact ones (`id`). -/
theorem pickNode_optimal (f64 : ℚ → ℚ) (nodes : List NodeResources) :
    (pickNode f64 nodes = .error .noAvailableNodes ↔ nodes = []) ∧
      (∀ id, pickNode f64 nodes = .ok id ↔ ∃ x, Best f64 nodes x ∧ x.id = id) ∧
      (∀ nodes', nodes.Perm nodes' → pickNode f64 nodes = pickNode f64 nodes') ∧
      ∀ busy : Finset String,
        ((∃ n ∈ nodes, n.id ∉ busy) →
          pickNodeForService f64 nodes busy = pickNode f64 (nodes.filter fun n => n.id ∉ busy)) ∧
        ((∀ n ∈ nodes, n.id ∈ busy) → pickNodeForService f64 nodes busy = pickNode f64 nodes) :=
  ⟨pickNode_eq_error_iff, fun _ => pickNode_eq_ok_iff_best,
    fun _ hperm => pickNode_congr fun _ => hperm.mem_iff,
    fun _ => ⟨pickNodeForService_of_free, pickNodeForService_of_busy⟩⟩

end ControlPlane

end Keel
