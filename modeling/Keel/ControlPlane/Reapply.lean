import Keel.ControlPlane.Helpers.Steps
/-!
# Deleting a service and applying it again

`DELETE /services/<s>` takes the service off at once, and a replica's
placement only when the replica's node resolves and answers its `DELETE`
with a success. A placement left behind belongs to nobody once the
service is gone, and stands in the way of the service's name when it is
applied again (`reapply_conflict`). The service is accepted again, as far
as names go, exactly when no replica it would have was left behind
(`reapply_accepted_iff`).
-/

namespace Keel

namespace ControlPlane

/-- A forward about the jail was answered with a success. -/
def Event.succeeds (r : String) : Event → Bool
  | .sent _ f answer => f.jail? == some r && accepted answer
  | _ => false

/-- A replica's `DELETE` gets through: its node resolves, and a forward
about it is answered with a success. -/
def GetsThrough (w : Worker) (now : Instant) (log : List Event) (r : String) : Prop :=
  (∀ n ∈ w.placements.lookup r, (w.registry.resolve n now).isOk = true) ∧
    log.any (Event.succeeds r) = true

instance (w : Worker) (now : Instant) (log : List Event) (r : String) :
    Decidable (GetsThrough w now log r) :=
  inferInstanceAs (Decidable (_ ∧ _))

/-! ## The tear-downs of a deletion -/

theorem succeeds_forward (before : Worker) (a : ReplicaAction) (answer : ForwardResult)
    (r : String) :
    (Event.sent before a.forward answer).succeeds r = (a.name == r && accepted answer) := by
  cases a <;> rfl

/-- What tear-downs leave of the placements, by what was answered. -/
structure TornDown (w w' : World) (as : List ReplicaAction) (l : List Event) : Prop where
  log : w'.log = w.log ++ l
  placements : ∀ r, w'.worker.placements.lookup r =
    if l.any (Event.succeeds r) = true then none else w.worker.placements.lookup r
  planned : ∀ r, l.any (Event.succeeds r) = true → ∃ a ∈ as, a.name = r

theorem tornDown_of_executed {w w' : World} {as : List ReplicaAction} (h : Executed w as w')
    (htear : ∀ a ∈ as, a.slot? = none) : ∃ l, TornDown w w' as l := by
  induction h with
  | nil => exact ⟨[], (List.append_nil _).symm, fun r => rfl, fun r hr => by cases hr⟩
  | @snoc as w₁ a answer hdone ih =>
    obtain ⟨l, hl⟩ := ih fun b hb => htear b (List.mem_append_left _ hb)
    have ha := htear a List.mem_concat_self
    have hany : ∀ r, (l ++ [Event.sent w₁.worker a.forward answer]).any (Event.succeeds r) =
        (l.any (Event.succeeds r) || (a.name == r && accepted answer)) := by
      intro r
      rw [List.any_append, List.any_cons, List.any_nil, Bool.or_false, succeeds_forward]
    refine ⟨l ++ [.sent w₁.worker a.forward answer], ?_, fun r => ?_, fun r hr => ?_⟩
    · rw [World.execute, World.answered_log, hl.log, List.append_assoc]
    · have hlast : (w₁.execute a answer).worker.placements.lookup r =
          if (a.name == r && accepted answer) = true then none
          else w₁.worker.placements.lookup r := by
        rw [World.execute, World.answered_worker]
        cases a with
        | schedule => cases ha
        | tearDown name nodeId nodeAddr =>
          cases haccepted : accepted answer with
          | false => simp
          | true =>
            simp only [if_true, ReplicaAction.settle, Table.lookup_erase_eq, ReplicaAction.name,
              Bool.and_true, beq_iff_eq, eq_comm (a := r)]
      -- Torn down earlier, torn down now, or still as it was.
      rw [hany, hlast, hl.placements r]
      cases l.any (Event.succeeds r) <;> cases a.name == r && accepted answer <;> rfl
    · rw [hany, Bool.or_eq_true, Bool.and_eq_true, beq_iff_eq] at hr
      rcases hr with hr | ⟨hname, -⟩
      · obtain ⟨b, hb, heq⟩ := hl.planned r hr
        exact ⟨b, List.mem_append_left _ hb, heq⟩
      · exact ⟨a, List.mem_concat_self, hname⟩

/-- **What a deletion leaves**: the service is gone, and of its replicas
those whose `DELETE` did not get through are still placed. -/
theorem deleted_placements {w : Worker} {s : String} {o : ℕ → Choice}
    (hok : (serve (.deleteService s) o w).response.status = 200) :
    (serve (.deleteService s) o w).after.services = w.services.remove s ∧
      ∀ r, ((serve (.deleteService s) o w).after.placements.lookup r = none ↔
        w.placements.lookup r = none ∨
          GetsThrough w (o 0).now (serve (.deleteService s) o w).log r) := by
  rcases serve_deleteService s o w with ⟨-, hmissing, -, -⟩ | ⟨record, -, -, hexec⟩
  · rw [hmissing] at hok
    cases hok
  have htear : ∀ a ∈ w.deleteActions (o 0).now (o 0).order s, a.slot? = none := by
    intro a ha
    obtain ⟨r, nodeId, nodeAddr, rfl, -⟩ := mem_deleteActions.1 ha
    rfl
  obtain ⟨l, hl⟩ := tornDown_of_executed hexec htear
  refine ⟨hexec.services, fun r => ?_⟩
  have hlog := hl.log
  have hplacements := hl.placements r
  simp only at hlog hplacements
  have hany : (serve (.deleteService s) o w).log.any (Event.succeeds r) =
      l.any (Event.succeeds r) := by
    rw [hlog, List.any_append]
    rfl
  rw [hplacements, GetsThrough, hany]
  constructor
  · intro hnone
    split at hnone
    · rename_i hsucceeds
      refine Or.inr ⟨fun n hn => ?_, hsucceeds⟩
      -- It was asked for, so its node resolved.
      obtain ⟨a, ha, hname⟩ := hl.planned r hsucceeds
      obtain ⟨r', nodeId, nodeAddr, rfl, hplaced, -, hresolve⟩ := mem_deleteActions.1 ha
      obtain rfl : r' = r := hname
      obtain rfl : nodeId = n := Option.some.inj (hplaced.symm.trans hn)
      rw [hresolve]
      rfl
    · exact Or.inl hnone
  · rintro (hnone | ⟨-, hsucceeds⟩)
    · split
      · rfl
      · exact hnone
    · rw [if_pos hsucceeds]

/-! ## Applying it again -/

/-- A service that is not there is in conflict with whatever has a name it
would use. -/
theorem nameConflict_eq_none_iff {w : Worker} {s : String} (hnew : w.services.get s = none)
    (replicas : ℕ) :
    w.nameConflict s replicas = none ↔
      ∀ i < replicas, w.placements.lookup (replicaName s i) = none := by
  simp only [Worker.nameConflict, List.findSome?_eq_none_iff, List.mem_range]
  refine forall_congr' fun i => forall_congr' fun _ => ?_
  cases hplaced : w.placements.lookup (replicaName s i) with
  | none => simp [ownerOf, hplaced]
  | some n =>
    have howner : ∀ owner, ownerOf (replicaName s i) w.placements w.services = some owner →
        owner ≠ .service s := by
      rintro owner howner rfl
      simp only [ownerOf, hplaced] at howner
      split at howner
      · rename_i s' hfind
        cases howner
        have hmem := List.mem_of_find?_eq_some hfind
        rw [Services.get, AList.lookup_eq_none] at hnew
        exact hnew (AList.mem_keys.2 hmem)
      · cases howner
    have hsome : ∃ owner, ownerOf (replicaName s i) w.placements w.services = some owner := by
      simp only [ownerOf, hplaced]
      split <;> exact ⟨_, rfl⟩
    obtain ⟨owner, heq⟩ := hsome
    simp [heq, howner owner heq]

/-- A service is refused for its names only by the check of its names. -/
theorem applyService_nameConflict {w : Worker} {s : String} {replicas port : ℕ}
    {template : JailTemplate} :
    (∀ r owner, (w.applyService s replicas template port).1 ≠ .error (.nameConflict r owner)) ↔
      w.nameConflict s replicas = none := by
  rw [Worker.applyService]
  cases hconflict : w.nameConflict s replicas with
  | none =>
    simp only [iff_true]
    intro r owner h
    simp only [Services.apply] at h
    split at h
    · split at h
      · cases h
      · split at h <;> cases h
    · split at h <;> cases h
  | some e =>
    simp only [reduceCtorEq, iff_false, not_forall, not_not]
    obtain ⟨i, -, hi⟩ := List.exists_of_findSome?_eq_some hconflict
    split at hi
    · rename_i owner _
      split at hi
      · cases hi
      · cases hi
        exact ⟨_, _, rfl⟩
    · cases hi

/-- **A deleted service is accepted again exactly when nothing of it was
left behind**, as far as names go: every replica it would have is not
placed when the service is deleted, or its `DELETE` gets through. -/
theorem reapply_accepted_iff (w : Worker) (s : String) (o : ℕ → Choice)
    (hok : (serve (.deleteService s) o w).response.status = 200) (replicas : ℕ)
    (template : JailTemplate) (port : ℕ) :
    (∀ r owner, ((serve (.deleteService s) o w).after.applyService s replicas template port).1 ≠
      .error (.nameConflict r owner)) ↔
      ∀ i < replicas, w.placements.lookup (replicaName s i) = none ∨
        GetsThrough w (o 0).now (serve (.deleteService s) o w).log (replicaName s i) := by
  obtain ⟨hservices, hplacements⟩ := deleted_placements hok
  have hnew : (serve (.deleteService s) o w).after.services.get s = none := by
    rw [hservices, Services.get_remove, if_pos rfl]
  rw [applyService_nameConflict, nameConflict_eq_none_iff hnew]
  exact forall_congr' fun i => forall_congr' fun _ => hplacements _

open Sample in
/-- Both replicas' `DELETE`s get through. -/
theorem reapply_accepted_iff_sample :
    ((serve (.deleteService "web") (clock 2 200) (final spawn [(register "a", clock 0 200),
      (service "web" 2 [], clock 1 200)])).response.status = 200) ∧
    ∀ r owner, ((serve (.deleteService "web") (clock 2 200) (final spawn
      [(register "a", clock 0 200), (service "web" 2 [], clock 1 200)])).after.applyService
      "web" 3 (template data) 81).1 ≠ .error (.nameConflict r owner) :=
  ⟨by decide +kernel, (reapply_accepted_iff _ _ _ (by decide +kernel) _ _ _).2 (by decide +kernel)⟩

open Sample in
/-- **A replica left behind stands in its own service's way**: on a node
that is dead when the service is deleted, or on one that answers `500`. -/
theorem reapply_conflict :
    ((serve (.deleteService "web") (clock 20 200) (final spawn [(register "a", clock 0 200),
      (service "web" 1 [], clock 1 200)])).response.status = 200 ∧
    ((serve (.deleteService "web") (clock 20 200) (final spawn [(register "a", clock 0 200),
      (service "web" 1 [], clock 1 200)])).after.applyService "web" 1 (template []) 80).1 =
        .error (.nameConflict "web-0" .unmanaged)) ∧
    (serve (.deleteService "web") (clock 2 500) (final spawn [(register "a", clock 0 200),
      (service "web" 1 [], clock 1 200)])).response.status = 200 ∧
    ((serve (.deleteService "web") (clock 2 500) (final spawn [(register "a", clock 0 200),
      (service "web" 1 [], clock 1 200)])).after.applyService "web" 1 (template []) 80).1 =
        .error (.nameConflict "web-0" .unmanaged) := by
  decide +kernel

end ControlPlane

end Keel
