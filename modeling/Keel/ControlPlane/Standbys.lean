import Keel.ControlPlane.Helpers.Steps
/-!
# The table of standbys

An entry of the table is to be of a stateful replica that is placed, and
to name another node than the one it is placed on. Scheduling and
promoting a replica write an entry; nothing takes one out, so an entry
outlives its replica and its service (`standby_outlives`). In every run
in which no jail with an entry is deleted, and no service whose replica
has one (`KeepsStandbys`), the table is consistent, and a force-repin is
refused of whatever has no standby (`standbys_consistent`).
-/

namespace Keel

namespace ControlPlane

/-! ## The property -/

/-- What an entry `r ↦ m` of the table is to say. -/
structure IsStandby (w : Worker) (r m : String) : Prop where
  placed : ∃ n, w.placements.lookup r = some n ∧ m ≠ n
  stateful : ∃ s record, w.services.get s = some record ∧ record.template.volumes ≠ [] ∧
    (replicaIndex s r).isSome = true

/-- The `PUT` of `r` an event is, if it was accepted. -/
def Event.putOf (r : String) : Event → Option Forward
  | .sent _ f answer =>
    if f.method = .put ∧ f.path = .jail r ∧ accepted answer = true then some f else none
  | _ => none

/-- The last accepted `PUT` of `r`. -/
def lastPut (r : String) (past : List Event) : Option Forward :=
  past.foldl (fun last e => (e.putOf r).or last) none

/-- A `Schedule` without a standby. -/
def Forward.alone (f : Forward) : Bool :=
  match f.site, f.body with
  | .schedule _, .yaml (.ok spec) => spec.spec.replicateTo.isNone
  | _, _ => false

/-- **The table is consistent**, and a force-repin is refused of every
placed replica of a service without volumes and of every one scheduled
without a standby. -/
structure StandbysConsistent (w : Worker) (past : List Event) : Prop where
  entries : ∀ r m, w.standbys.lookup r = some m → IsStandby w r m
  stateless : ∀ now s record r, w.services.get s = some record → record.template.volumes = [] →
    (replicaIndex s r).isSome = true → (w.placements.lookup r).isSome = true →
    w.prepareForceRepin now r = .error (.notStateful r)
  alone : ∀ now r, (lastPut r past).any Forward.alone = true →
    (w.placements.lookup r).isSome = true →
    w.prepareForceRepin now r = .error (.notStateful r)

/-! ## The condition -/

/-- No `DELETE` but a fence is accepted of a jail with a standby. -/
def Event.KeepsStandby : Event → Prop
  | .sent before f answer =>
    f.method = .delete → f.site ≠ .fencing → accepted answer = true →
      ∀ r ∈ f.jail?, r ∉ before.standbys.keys
  | _ => True

/-- The service a request deletes. -/
def Request.deletes? : Request → Option String
  | .deleteService name => some name
  | _ => none

/-- No jail with a standby is deleted, nor the service it is a replica
of. -/
def Served.KeepsStandbys (served : Served) : Prop :=
  (∀ e ∈ served.log, e.KeepsStandby) ∧
    ∀ name ∈ served.request.deletes?, ∀ r ∈ served.before.standbys.keys,
      replicaIndex name r = none

instance : DecidablePred Event.KeepsStandby
  | .sent .. => inferInstanceAs (Decidable (_ → _))
  | .planned .. => inferInstanceAs (Decidable True)
  | .applied .. => inferInstanceAs (Decidable True)

instance : DecidablePred Served.KeepsStandbys := fun _ => inferInstanceAs (Decidable (_ ∧ _))

/-! ## The invariant -/

theorem lastPut_snoc (r : String) (past : List Event) (e : Event) :
    lastPut r (past ++ [e]) = (e.putOf r).or (lastPut r past) := by
  rw [lastPut, List.foldl_append]
  rfl

theorem putOf_of_refused {before : Worker} {f : Forward} {answer : ForwardResult}
    (h : accepted answer = false) (r : String) : (Event.sent before f answer).putOf r = none :=
  if_neg fun hput => by rw [h] at hput; exact Bool.false_ne_true hput.2.2

theorem putOf_of_method {before : Worker} {f : Forward} {answer : ForwardResult}
    (h : ∀ r, f.path = .jail r → f.method ≠ .put) (r : String) :
    (Event.sent before f answer).putOf r = none :=
  if_neg fun hput => h r hput.2.1 hput.1

theorem putOf_of_accepted {before : Worker} {f : Forward} {answer : ForwardResult}
    {name : String} (hmethod : f.method = .put) (hpath : f.path = .jail name)
    (hacc : accepted answer = true) (r : String) :
    (Event.sent before f answer).putOf r = if r = name then some f else none := by
  simp only [Event.putOf, hmethod, hpath, hacc, NodePath.jail.injEq, and_true, true_and,
    eq_comm (a := name)]

/-- Every entry is as it is to be, and of a jail whose last `PUT` gave it
a standby. -/
structure StandbysSound (w : World) : Prop where
  entries : ∀ r m, w.worker.standbys.lookup r = some m → IsStandby w.worker r m
  replicated : ∀ r, (lastPut r w.log).any Forward.alone = true →
    w.worker.standbys.lookup r = none

theorem prepareForceRepin_notStateful {w : Worker} {now : Instant} {r : String}
    (hplaced : (w.placements.lookup r).isSome = true) (hstandby : w.standbys.lookup r = none) :
    w.prepareForceRepin now r = .error (.notStateful r) := by
  obtain ⟨n, hn⟩ := Option.isSome_iff_exists.1 hplaced
  simp only [Worker.prepareForceRepin, hn, hstandby]
  rfl

theorem StandbysSound.consistent {w : World} (h : StandbysSound w) :
    StandbysConsistent w.worker w.log where
  entries := h.entries
  stateless now s record r hget hvolumes hidx hplaced := by
    refine prepareForceRepin_notStateful hplaced (Option.eq_none_iff_forall_not_mem.2 ?_)
    intro m hm
    obtain ⟨s', record', hget', hvolumes', hidx'⟩ := (h.entries r m hm).stateful
    obtain rfl := service_unique hidx hidx'
    rw [hget] at hget'
    cases hget'
    exact hvolumes' hvolumes
  alone now r halone hplaced := prepareForceRepin_notStateful hplaced (h.replicated r halone)

/-! ## The writes -/

theorem IsStandby.congr {w w' : Worker} {r m : String} (h : IsStandby w r m)
    (hplaced : w'.placements.lookup r = w.placements.lookup r)
    (hservices : w'.services = w.services) : IsStandby w' r m where
  placed := by rw [hplaced]; exact h.placed
  stateful := by rw [hservices]; exact h.stateful

section Writes

variable {w : World} (h : StandbysSound w)

include h

/-- A write about jails that have no standby, and get none. -/
theorem StandbysSound.of_other {worker : Worker} {e : Event}
    (hstandbys : worker.standbys = w.worker.standbys)
    (hkept : ∀ r m, w.worker.standbys.lookup r = some m → IsStandby worker r m)
    (hput : ∀ r f, e.putOf r = some f → w.worker.standbys.lookup r = none) :
    StandbysSound ⟨worker, w.log ++ [e]⟩ where
  entries r m hm := hkept r m (by rwa [hstandbys] at hm)
  replicated r halone := by
    rw [hstandbys]
    rw [lastPut_snoc] at halone
    cases hlast : e.putOf r with
    | some f => exact hput r f hlast
    | none =>
      rw [hlast, Option.none_or] at halone
      exact h.replicated r halone

/-- A refused forward. -/
theorem StandbysSound.refused {f : Forward} {answer : ForwardResult}
    (hacc : accepted answer = false) : StandbysSound ⟨w.worker, w.log ++ [.sent w.worker f answer]⟩ := by
  refine h.of_other rfl h.entries fun r f hput => ?_
  rw [putOf_of_refused hacc] at hput
  cases hput

/-- A jail placed anew, and given a standby. -/
theorem StandbysSound.give {f : Forward} {answer : ForwardResult} {name n m : String}
    {worker : Worker} (hmethod : f.method = .put) (hpath : f.path = .jail name)
    (hacc : accepted answer = true) (hnot : f.alone = false)
    (hplacements : worker.placements = w.worker.placements.insert name n)
    (hstandbys : worker.standbys = w.worker.standbys.insert name m)
    (hservices : worker.services = w.worker.services) (hne : m ≠ n)
    (hstateful : ∃ s record, w.worker.services.get s = some record ∧
      record.template.volumes ≠ [] ∧ (replicaIndex s name).isSome = true) :
    StandbysSound ⟨worker, w.log ++ [.sent w.worker f answer]⟩ where
  entries r m' hm := by
    rw [hstandbys, Table.lookup_insert_eq] at hm
    split at hm
    · rename_i hr
      cases hm
      rw [hr]
      refine ⟨⟨n, ?_, hne⟩, by rwa [hservices]⟩
      rw [hplacements, Table.lookup_insert_eq, if_pos rfl]
    · rename_i hr
      refine (h.entries r m' hm).congr ?_ hservices
      rw [hplacements, Table.lookup_insert_eq, if_neg hr]
  replicated r halone := by
    rw [lastPut_snoc, putOf_of_accepted hmethod hpath hacc] at halone
    split at halone
    · rw [Option.some_or, Option.any_some, hnot] at halone
      cases halone
    · rename_i hr
      rw [Option.none_or] at halone
      rw [hstandbys, Table.lookup_insert_eq, if_neg hr]
      exact h.replicated r halone

/-- A jail that has no standby loses its placement. -/
theorem StandbysSound.remove {f : Forward} {answer : ForwardResult} {name : String}
    {worker : Worker} (hmethod : f.method = .delete)
    (hplacements : worker.placements = w.worker.placements.erase name)
    (hstandbys : worker.standbys = w.worker.standbys)
    (hservices : worker.services = w.worker.services)
    (hname : name ∉ w.worker.standbys.keys) :
    StandbysSound ⟨worker, w.log ++ [.sent w.worker f answer]⟩ := by
  refine h.of_other hstandbys (fun r m hm => ?_) fun r f' hput => ?_
  · have hr : r ≠ name := by
      rintro rfl
      exact hname (Table.mem_keys_of_lookup hm)
    refine (h.entries r m hm).congr ?_ hservices
    rw [hplacements, Table.lookup_erase_eq, if_neg hr]
  · rw [putOf_of_method fun _ _ => by rw [hmethod]; simp] at hput
    cases hput

/-- A jail that has no standby is placed. -/
theorem StandbysSound.place {f : Forward} {answer : ForwardResult} {name n : String}
    {worker : Worker} (hmethod : f.method = .put) (hpath : f.path = .jail name)
    (hacc : accepted answer = true)
    (hplacements : worker.placements = w.worker.placements.insert name n)
    (hstandbys : worker.standbys = w.worker.standbys)
    (hservices : worker.services = w.worker.services)
    (hname : w.worker.standbys.lookup name = none) :
    StandbysSound ⟨worker, w.log ++ [.sent w.worker f answer]⟩ := by
  refine h.of_other hstandbys (fun r m hm => ?_) fun r f' hput => ?_
  · have hr : r ≠ name := by
      rintro rfl
      rw [hname] at hm
      cases hm
    refine (h.entries r m hm).congr ?_ hservices
    rw [hplacements, Table.lookup_insert_eq, if_neg hr]
  · rw [putOf_of_accepted hmethod hpath hacc] at hput
    split at hput
    · rename_i hr
      rw [hr]
      exact hname
    · cases hput

end Writes

/-! ## A plan executed -/

/-- A jail that no service counts as its replica has no standby. -/
theorem StandbysSound.lookup_of_owner {w : World} (h : StandbysSound w) {name : String}
    (howner : ∀ s, ownerOf name w.worker.placements w.worker.services ≠ some (.service s)) :
    w.worker.standbys.lookup name = none := by
  refine Option.eq_none_iff_forall_not_mem.2 fun m hm => ?_
  obtain ⟨n, hn, -⟩ := (h.entries name m hm).placed
  obtain ⟨s, record, hget, -, hidx⟩ := (h.entries name m hm).stateful
  have hmem : s ∈ w.worker.services.byName.keys := Table.mem_keys_of_lookup hget
  -- The service that has the entry reads the name as its replica, and so
  -- some service is found.
  have hfind : (w.worker.services.byName.keys.find? fun s =>
      (replicaIndex s name).isSome).isSome = true := List.find?_isSome.2 ⟨s, hmem, hidx⟩
  obtain ⟨s', hs'⟩ := Option.isSome_iff_exists.1 hfind
  refine howner s' ?_
  simp only [ownerOf, hn, hs']

/-- A replica a pass schedules without a standby has none: a stateful one
is not placed. -/
theorem StandbysSound.lookup_of_scheduled {w : World} (h : StandbysSound w) {now : Instant}
    {r nodeId nodeAddr : String} {template : JailTemplate} {address : Ipv4Addr}
    {standbyNodeId standbyAddr : Option String}
    (hplan : Scheduled w.worker now r nodeId nodeAddr template address standbyNodeId standbyAddr) :
    w.worker.standbys.lookup r = none := by
  refine Option.eq_none_iff_forall_not_mem.2 fun m hm => ?_
  obtain ⟨n, hn, -⟩ := (h.entries r m hm).placed
  obtain ⟨s, record, hget, hvolumes, hidx⟩ := (h.entries r m hm).stateful
  obtain ⟨s', record', i, hget', htemplate, -, hidx', -⟩ := hplan.missing
  obtain rfl := service_unique hidx (by rw [hidx']; rfl)
  rw [hget] at hget'
  cases hget'
  rw [← htemplate] at hvolumes
  -- A stateful replica that is placed is never missing.
  rw [hplan.unplaced hvolumes] at hn
  cases hn

/-- A tear-down of a jail that has no standby. -/
theorem standbysSound_tearDown {w : World} {r nodeId nodeAddr : String} {answer : ForwardResult}
    (hkeeps : (Event.sent w.worker (ReplicaAction.tearDown r nodeId nodeAddr).forward
      answer).KeepsStandby) (h : StandbysSound w) :
    StandbysSound (w.execute (.tearDown r nodeId nodeAddr) answer) := by
  cases hacc : accepted answer with
  | false =>
    rw [World.execute, World.answered, hacc]
    exact h.refused hacc
  | true =>
    rw [World.execute, World.answered, hacc]
    exact h.remove rfl rfl rfl rfl (hkeeps rfl (by simp [ReplicaAction.forward]) hacc r rfl)

/-- A replica scheduled, that has no standby yet. -/
theorem standbysSound_schedule {w : World} {w₀ : Worker} {now : Instant}
    {r nodeId nodeAddr : String} {template : JailTemplate} {address : Ipv4Addr} {prefixLen : ℕ}
    {standbyNodeId standbyAddr : Option String} {answer : ForwardResult}
    (hplan : Scheduled w₀ now r nodeId nodeAddr template address standbyNodeId standbyAddr)
    (hservices : w.worker.services = w₀.services) (hnone : w.worker.standbys.lookup r = none)
    (h : StandbysSound w) :
    StandbysSound (w.execute
      (.schedule r nodeId nodeAddr template address prefixLen standbyNodeId standbyAddr)
      answer) := by
  cases hacc : accepted answer with
  | false =>
    rw [World.execute, World.answered, hacc]
    exact h.refused hacc
  | true =>
    rw [World.execute, World.answered, hacc]
    rcases hplan.standby with ⟨rfl, rfl⟩ | ⟨m, addr, rfl, rfl, hne, hvolumes⟩
    · exact h.place rfl rfl hacc rfl rfl rfl hnone
    · obtain ⟨s, record, i, hget, rfl, -, hidx, -⟩ := hplan.missing
      refine h.give rfl rfl hacc rfl rfl rfl rfl hne ⟨s, record, ?_, hvolumes, ?_⟩
      · rw [hservices, hget]
      · rw [hidx]
        rfl

/-- **A pass keeps the table consistent.** What it has not come to yet is
as it was when the pass was planned. -/
theorem standbysSound_executed {w w₀ w' : World} {now : Instant} {as : List ReplicaAction}
    (h : Executed w₀ as w') (hw₀ : w₀.worker = w.worker) (hnodup : (as.map ReplicaAction.name).Nodup)
    (hplanned : ∀ a ∈ as, Planned w.worker now a) (hkeeps : ∀ e ∈ w'.log, e.KeepsStandby)
    (hw : StandbysSound w) (hstart : StandbysSound w₀) : StandbysSound w' := by
  induction h with
  | nil => exact hstart
  | @snoc as w₁ a answer hdone ih =>
    obtain ⟨hrest, hnew⟩ := name_notMem_of_nodup hnodup
    have hsound : StandbysSound w₁ := by
      refine ih hrest (fun b hb => hplanned b (List.mem_append_left _ hb)) fun e he => ?_
      exact hkeeps e (List.mem_append_left _ he)
    have hlast := hkeeps _ List.mem_concat_self
    have ha := hplanned a List.mem_concat_self
    cases a with
    | tearDown => exact standbysSound_tearDown hlast hsound
    | schedule r nodeId nodeAddr template address prefixLen standbyNodeId standbyAddr =>
      refine standbysSound_schedule ha (by rw [hdone.services, hw₀]) ?_ hsound
      -- The table has not been written for this replica since the plan was made.
      rw [(hdone.lookup_eq (r := r) hnew).2.1, hw₀]
      exact hw.lookup_of_scheduled ha

/-! ## Every step, every run -/

theorem standbysSound_move {request : Request} {w w' : World} (h : Move request w w')
    (hrequest : request.deletes? = none) (hkeeps : ∀ e ∈ w'.log, e.KeepsStandby)
    (hw : StandbysSound w) : StandbysSound w' := by
  have hmove := h
  obtain ⟨hstep, -, hservices, -⟩ := hmove
  cases hstep with
  | registry => exact ⟨fun r m hm => (hw.entries r m hm).congr rfl rfl, hw.replicated⟩
  | @apply name replicas template port services hconflict happly =>
    refine hw.of_other rfl (fun r m hm => ?_) fun _ _ hput => by cases hput
    refine ⟨(hw.entries r m hm).placed, ?_⟩
    obtain ⟨s, record, hget, hvolumes, hidx⟩ := (hw.entries r m hm).stateful
    obtain ⟨⟨record', hget', htemplate, hsame⟩, hothers⟩ := Services.get_of_apply happly
    by_cases hs : s = name
    · subst hs
      refine ⟨s, record', hget', ?_, hidx⟩
      rw [htemplate, ← hsame record hget]
      exact hvolumes
    · exact ⟨s, record, by rw [hothers s hs, hget], hvolumes, hidx⟩
  | reconcile now hexec =>
    refine standbysSound_executed (w := w) hexec rfl nodup_reconcileServices
      reconcileServices_planned hkeeps hw ?_
    exact hw.of_other rfl hw.entries fun _ _ hput => by cases hput
  | @delete _ name record now ord hget hexec =>
    -- Only the request that deletes a service takes one off.
    have hgone := hservices name (by rintro rfl; cases hrequest) (by rw [hget]; rfl)
    rw [hexec.services, Services.get_remove, if_pos rfl] at hgone
    cases hgone
  | @read f answer hsite hput =>
    refine hw.of_other rfl hw.entries fun r f' hf' => ?_
    rw [putOf_of_method fun r hr => by rw [hput r hr]; simp] at hf'
    cases hf'
  | @put f name answer hpath hmethod hsite howner =>
    cases hacc : accepted answer with
    | false =>
      rw [World.answered]
      exact hw.refused hacc
    | true =>
      rw [World.answered]
      exact hw.place hmethod hpath hacc rfl rfl rfl (hw.lookup_of_owner howner)
  | @drop f name answer hpath hmethod hsite =>
    cases hacc : accepted answer with
    | false =>
      rw [World.answered]
      exact hw.refused hacc
    | true =>
      have hlast := hkeeps _ List.mem_concat_self
      rw [World.answered]
      refine hw.remove hmethod rfl rfl rfl (hlast hmethod ?_ hacc name ?_)
      · rintro hfencing
        rw [hfencing] at hsite
        cases hsite
      · simp [Forward.jail?, hpath]
  | @promote name prep now answer hprep =>
    cases hacc : accepted answer with
    | false =>
      rw [World.answered]
      exact hw.refused hacc
    | true =>
      have hok := prepareForceRepin_ok hprep
      rw [World.answered]
      exact hw.give rfl rfl hacc rfl rfl rfl rfl hok.fresh.2
        (hw.entries name _ hok.standby).stateful
  | @fence nodeId r addr answer hfence =>
    rw [World.answered]
    refine hw.of_other ?_ (fun r m hm => (hw.entries r m hm).congr ?_ ?_) fun r f hput => ?_
    · split <;> rfl
    · split <;> rfl
    · split <;> rfl
    · rw [putOf_of_method fun _ _ => by simp [fenceForward]] at hput
      cases hput

theorem standbysSound_moves {request : Request} {w w' : World} (h : Moves request w w')
    (hrequest : request.deletes? = none) (hkeeps : ∀ e ∈ w'.log, e.KeepsStandby)
    (hw : StandbysSound w) : StandbysSound w' := by
  induction h with
  | refl => exact hw
  | tail _ hlast ih =>
    refine standbysSound_move hlast hrequest hkeeps (ih fun e he => ?_)
    exact hkeeps e (hlast.step.log_mono.mem he)

/-- The tear-downs of a service whose replicas have no standby. -/
theorem standbysSound_delete {w : Worker} {s : String} {o : ℕ → Choice} {past : List Event}
    (hpast : ∀ e ∈ past, e.KeepsStandby) (hkeeps : (serve (.deleteService s) o w).KeepsStandbys)
    (hw : StandbysSound ⟨w, past⟩) :
    StandbysSound ⟨(serve (.deleteService s) o w).after,
      past ++ (serve (.deleteService s) o w).log⟩ := by
  rcases serve_deleteService s o w with ⟨-, -, hafter, hlog⟩ | ⟨record, -, -, hexec⟩
  · rwa [hafter, hlog, List.append_nil]
  · have hexec := hexec.behind past
    refine hexec.invariant (C := Event.KeepsStandby) ?_ (fun e he => ?_) ?_
    · intro w₁ a answer ha hlast hw₁
      obtain ⟨r, nodeId, nodeAddr, rfl, -⟩ := mem_deleteActions.1 ha
      exact standbysSound_tearDown hlast hw₁
    · exact (List.mem_append.1 he).elim (hpast e) (hkeeps.1 e)
    · refine hw.of_other rfl (fun r m hm => ?_) fun _ _ hput => by cases hput
      refine ⟨(hw.entries r m hm).placed, ?_⟩
      obtain ⟨s', record', hget, hvolumes, hidx⟩ := (hw.entries r m hm).stateful
      have hmem : r ∈ w.standbys.keys := Table.mem_keys_of_lookup hm
      have hne : s' ≠ s := by
        rintro rfl
        rw [hkeeps.2 s' rfl r hmem] at hidx
        cases hidx
      exact ⟨s', record', by rwa [Services.get_remove, if_neg hne], hvolumes, hidx⟩

theorem standbysSound_serve (request : Request) (o : ℕ → Choice) {w : Worker} {past : List Event}
    (hpast : ∀ e ∈ past, e.KeepsStandby) (hkeeps : (serve request o w).KeepsStandbys)
    (hw : StandbysSound ⟨w, past⟩) :
    StandbysSound ⟨(serve request o w).after, past ++ (serve request o w).log⟩ := by
  cases hrequest : request.deletes? with
  | some s =>
    cases request <;> cases hrequest
    exact standbysSound_delete hpast hkeeps hw
  | none =>
    have hmoves := (serve_moves request o w).behind past
    rw [World.behind, List.append_nil] at hmoves
    refine standbysSound_moves hmoves hrequest (fun e he => ?_) hw
    exact (List.mem_append.1 he).elim (hpast e) (hkeeps.1 e)

theorem standbysSound_run (script : Script) {w : Worker} {past : List Event}
    (hpast : ∀ e ∈ past, e.KeepsStandby)
    (hkeeps : ∀ served ∈ history w script, served.KeepsStandbys) (hw : StandbysSound ⟨w, past⟩) :
    StandbysSound ⟨final w script, past ++ events w script⟩ := by
  induction script generalizing w past with
  | nil => rwa [final, events, history, List.flatMap_nil, List.append_nil]
  | cons step rest ih =>
    obtain ⟨request, o⟩ := step
    have hserved := hkeeps _ List.mem_cons_self
    have hrest := ih (fun e he => (List.mem_append.1 he).elim (hpast e) (hserved.1 e))
      (fun served hmem => hkeeps served (List.mem_cons_of_mem _ hmem))
      (standbysSound_serve request o hpast hserved hw)
    rwa [events, history, List.flatMap_cons, ← List.append_assoc]

/-- **The table of standbys is consistent**, in every run in which no jail
with a standby is deleted, nor a service whose replica has one. -/
theorem standbys_consistent (clusterCidr serviceCidr : Ipv4Net) (script : Script)
    (hkeeps : ∀ served ∈ history (Worker.spawn clusterCidr serviceCidr) script,
      served.KeepsStandbys) :
    StandbysConsistent (final (Worker.spawn clusterCidr serviceCidr) script)
      (events (Worker.spawn clusterCidr serviceCidr) script) := by
  have hstart : StandbysSound ⟨Worker.spawn clusterCidr serviceCidr, []⟩ :=
    ⟨fun _ _ hm => (nomatch hm), fun _ hr => (nomatch hr)⟩
  have hrun := standbysSound_run script (by simp) hkeeps hstart
  rw [List.nil_append] at hrun
  exact hrun.consistent

/-- An entry of a jail that is not placed. -/
theorem not_standbysConsistent {w : Worker} {past : List Event} {r m : String}
    (hstandby : w.standbys.lookup r = some m) (hplaced : w.placements.lookup r = none) :
    ¬ StandbysConsistent w past := by
  intro h
  obtain ⟨n, hn, -⟩ := (h.entries r m hstandby).placed
  rw [hplaced] at hn
  cases hn

namespace Sample

/-- Three nodes, a stateful service and a stateless one. -/
def deployed : Script :=
  [(register "a", clock 0 200), (register "b", clock 0 200), (register "c", clock 0 200),
    (service "db" 1 data, clock 1 200), (service "web" 1 [], clock 2 200)]

/-- The stateful replica's node dies, and it is moved to its standby. -/
def promoted : Script :=
  deployed ++ [(heartbeat "b", clock 20 200), (heartbeat "c", clock 20 200),
    (.forceRepin "db-0", clock 21 200)]

/-- The stateful service is deleted, and comes back without volumes. -/
def reborn : Script :=
  deployed ++ [(.deleteService "db", clock 3 200), (service "db" 1 [], clock 4 200)]

end Sample

open Sample in
/-- A promotion gives the replica a fresh standby. -/
theorem standbys_consistent_sample :
    StandbysConsistent (final spawn promoted) (events spawn promoted) ∧
      (final spawn promoted).placements.lookup "db-0" = some "b" ∧
      (final spawn promoted).standbys.lookup "db-0" = some "c" :=
  ⟨standbys_consistent _ _ _ (by decide +kernel), by decide +kernel, by decide +kernel⟩

open Sample in
/-- **An entry outlives its replica**, scaled down or deleted by an
operator, and its service: a stateless replica of the same name counts as
one with a standby. -/
theorem standby_outlives :
    ¬ StandbysConsistent (final spawn (deployed ++ [(service "db" 0 data, clock 3 200)]))
        (events spawn (deployed ++ [(service "db" 0 data, clock 3 200)])) ∧
      ¬ StandbysConsistent (final spawn (deployed ++ [(.deleteJail "db-0", clock 3 200)]))
        (events spawn (deployed ++ [(.deleteJail "db-0", clock 3 200)])) ∧
      ¬ StandbysConsistent (final spawn reborn) (events spawn reborn) := by
  refine ⟨?_, ?_, fun h => ?_⟩
  · exact not_standbysConsistent (r := "db-0") (m := "b") (by decide +kernel) (by decide +kernel)
  · exact not_standbysConsistent (r := "db-0") (m := "b") (by decide +kernel) (by decide +kernel)
  · have hrefused := h.alone (5 * second) "db-0" (by decide +kernel) (by decide +kernel)
    exact absurd hrefused (by decide +kernel)

end ControlPlane

end Keel
