import Keel.ControlPlane.Helpers.Plan
import Keel.ControlPlane.Helpers.Steps
/-!
# Stateful replicas stay where they are

A placed replica of a service with volumes counts as present whether or
not its node is up, so no plan schedules it again; the guard of the
operator's `PUT`s refuses its name; and a deletion or a tear-down takes
its placement away without writing another. What is left is the
promotion: a request after which the replica is on another node is a
force-repin that answered `200`.
-/

namespace Keel

namespace ControlPlane

/-- A replica of a service with volumes. -/
def StatefulReplica (services : Services) (r : String) : Prop :=
  ∃ s record, services.get s = some record ∧ record.template.volumes ≠ [] ∧
    (replicaIndex s r).isSome = true

/-- The replica is where it was, or nowhere. -/
def StaysOrGoes (r n : String) (w : Worker) : Prop :=
  w.placements.lookup r = some n ∨ w.placements.lookup r = none

variable {r n : String}

/-! ## Plans -/

/-- **No schedule of a placed stateful replica**, in any state, whichever
nodes are up. -/
theorem reconcileServices_unscheduled {w : Worker} (now : Instant)
    (hstateful : StatefulReplica w.services r) (hplaced : w.placements.lookup r = some n) :
    ∀ a ∈ w.reconcileServices now,
      ∀ nodeId nodeAddr template address prefixLen standbyNodeId standbyAddr,
        a ≠ .schedule r nodeId nodeAddr template address prefixLen standbyNodeId standbyAddr := by
  rintro _ ha nodeId nodeAddr template address prefixLen standbyNodeId standbyAddr rfl
  obtain ⟨s, record, hget, hvolumes, hindex⟩ := hstateful
  have hscheduled : Scheduled w now r nodeId nodeAddr template address standbyNodeId standbyAddr :=
    reconcileServices_planned _ ha
  obtain ⟨s', record', i, hget', htemplate, -, hindex', -⟩ := hscheduled.missing
  -- The service it is scheduled for is the one it is known to be of.
  have hs : s' = s := service_unique (by rw [hindex']; rfl) hindex
  rw [hs, hget] at hget'
  cases hget'
  rw [← htemplate] at hvolumes
  have hunplaced := hscheduled.unplaced hvolumes
  rw [hplaced] at hunplaced
  cases hunplaced

/-- An action that is no schedule of the replica leaves it or takes it
away. -/
theorem staysOrGoes_execute {w : World} {a : ReplicaAction} (answer : ForwardResult)
    (ha : ∀ nodeId nodeAddr template address prefixLen standbyNodeId standbyAddr,
      a ≠ .schedule r nodeId nodeAddr template address prefixLen standbyNodeId standbyAddr)
    (h : StaysOrGoes r n w.worker) : StaysOrGoes r n (w.execute a answer).worker := by
  rw [World.execute, World.answered_worker]
  split
  · cases a with
    | schedule name nodeId nodeAddr template address prefixLen standbyNodeId standbyAddr =>
      have hname : r ≠ name := by
        rintro rfl
        exact ha _ _ _ _ _ _ _ rfl
      rw [StaysOrGoes, ReplicaAction.settle, Table.lookup_insert_eq, if_neg hname]
      exact h
    | tearDown name nodeId nodeAddr =>
      rw [StaysOrGoes, ReplicaAction.settle, Table.lookup_erase_eq]
      split
      · exact Or.inr rfl
      · exact h
  · exact h

theorem staysOrGoes_executed {w w' : World} {as : List ReplicaAction} (h : Executed w as w')
    (has : ∀ a ∈ as, ∀ nodeId nodeAddr template address prefixLen standbyNodeId standbyAddr,
      a ≠ .schedule r nodeId nodeAddr template address prefixLen standbyNodeId standbyAddr)
    (hw : StaysOrGoes r n w.worker) : StaysOrGoes r n w'.worker :=
  h.invariant (C := fun _ => True) (I := fun w => StaysOrGoes r n w.worker)
    (fun ha _ => staysOrGoes_execute _ (has _ ha)) (fun _ _ => trivial) hw

/-! ## The handlers -/

/-- What a handler leaves of the replica, wherever it is run. -/
abbrev Keeps (r n : String) {α : Type} (p : Handler α) : Prop :=
  ∀ w : World, StatefulReplica w.worker.services r → w.worker.placements.lookup r = some n →
    p.wp semantics w fun _ w' => StaysOrGoes r n w'.worker

theorem reconcileAndExecute_keeps : Keeps r n reconcileAndExecute := by
  intro w hstateful hplaced
  simp only [reconcileAndExecute, Prog.bind_eq, Prog.send_bind, wp_command_iff,
    Worker.handleCommand, Command.note]
  intro now _
  refine Prog.wp_mono (fun _ w' h => ?_) (wp_executeReplicaActions _ _)
  exact staysOrGoes_executed h (reconcileServices_unscheduled now hstateful hplaced)
    (Or.inl hplaced)

/-- Fencing pays debts and places nothing. -/
theorem wp_checkAndExecuteFencing_placements (nodeId : String) (w : World) :
    (checkAndExecuteFencing nodeId).wp semantics w fun _ w' =>
      w'.worker.placements = w.worker.placements := by
  rw [checkAndExecuteFencing, Prog.bind_eq, Prog.send_bind, wp_command_iff]
  intro _ _
  simp only [Command.note, List.append_nil]
  split
  · exact rfl
  simp only [Prog.bind_eq, Prog.send_bind, wp_command_iff, Worker.handleCommand, Command.note,
    List.append_nil]
  intro _ _
  split
  · exact rfl
  refine Prog.wp_forEach (fun _ (w' : World) => w'.worker.placements = w.worker.placements) ?_ _
    rfl
  intro r rest w' h
  rw [wp_executeFence]
  intro answer
  rw [World.answered_worker]
  split <;> exact h

theorem handleHeartbeat_keeps (id : String) (body : Except String Heartbeat) :
    Keeps r n (handleHeartbeat id body) := by
  intro w hstateful hplaced
  cases body with
  | error e => exact Or.inl hplaced
  | ok h =>
    simp only [handleHeartbeat, Prog.bind_eq, Prog.send_bind, wp_command_iff, Worker.handleCommand,
      Command.note, List.append_nil]
    intro now _
    split
    · exact Or.inl hplaced
    · rw [Prog.wp_bind]
      refine Prog.wp_mono (fun _ w₁ h₁ => ?_) (reconcileAndExecute_keeps _ hstateful hplaced)
      rw [Prog.wp_bind]
      refine Prog.wp_mono (fun _ w₂ h₂ => ?_) (wp_checkAndExecuteFencing_placements id w₁)
      simp only [wp_command_iff, Worker.handleCommand, Command.note, List.append_nil, Prog.pure_eq,
        Prog.wp_ret]
      intro _ _
      rw [StaysOrGoes, h₂]
      exact h₁

/-- A service that is applied again keeps its template. -/
theorem StatefulReplica.apply {services services' : Services} {name : String} {replicas port : ℕ}
    {template : JailTemplate} (h : StatefulReplica services r)
    (happly : services.apply name replicas template port = (.ok (), services')) :
    StatefulReplica services' r := by
  obtain ⟨s, record, hget, hvolumes, hindex⟩ := h
  obtain ⟨⟨record', hget', htemplate', hold⟩, hothers⟩ := Services.get_of_apply happly
  by_cases hs : s = name
  · rw [hs] at hget hindex
    refine ⟨name, record', hget', ?_, hindex⟩
    rw [htemplate', ← hold record hget]
    exact hvolumes
  · exact ⟨s, record, by rw [hothers s hs, hget], hvolumes, hindex⟩

theorem handleApplyService_keeps (name : String) (body : Except String ServiceSpec) :
    Keeps r n (handleApplyService name body) := by
  intro w hstateful hplaced
  rw [handleApplyService]
  split
  · exact Or.inl hplaced
  rename_i spec _
  by_cases hname : spec.metadata.name ≠ name
  · rw [if_pos hname]
    exact Or.inl hplaced
  rw [if_neg hname]
  simp only [Prog.bind_eq, Prog.send_bind, wp_command_iff, Worker.handleCommand,
    Worker.applyService]
  intro _ _
  cases hconflict : w.worker.nameConflict name spec.spec.replicas with
  | some e => exact Or.inl hplaced
  | none =>
    simp only
    rcases happly : w.worker.services.apply name spec.spec.replicas spec.spec.template
      spec.spec.port with ⟨_ | ⟨⟩, services⟩
    · exact Or.inl hplaced
    · simp only [Prog.pure_eq]
      rw [Prog.wp_bind]
      exact Prog.wp_mono (fun _ _ h => h)
        (reconcileAndExecute_keeps _ (hstateful.apply happly) hplaced)

theorem handleDeleteService_keeps (name : String) : Keeps r n (handleDeleteService name) := by
  intro w _ hplaced
  refine wp_handleDeleteService (fun _ _ => Or.inl hplaced) fun now ord record w' _ h => ?_
  refine staysOrGoes_executed h (fun a ha => ?_) (Or.inl hplaced)
  obtain ⟨r', nodeId, nodeAddr, rfl, -⟩ := mem_deleteActions.1 ha
  rintro _ _ _ _ _ _ _ ⟨⟩

/-- A placed stateful replica's name is the service's. -/
theorem ownerOf_stateful {w : Worker} (hstateful : StatefulReplica w.services r)
    (hplaced : w.placements.lookup r = some n) :
    ∃ s, ownerOf r w.placements w.services = some (.service s) := by
  obtain ⟨s, record, hget, -, hindex⟩ := hstateful
  have hmem : s ∈ w.services.byName.keys := Table.mem_keys_of_lookup hget
  have hfind : (w.services.byName.keys.find? fun s => (replicaIndex s r).isSome).isSome = true :=
    List.find?_isSome.2 ⟨s, hmem, hindex⟩
  obtain ⟨s', hs'⟩ := Option.isSome_iff_exists.1 hfind
  refine ⟨s', ?_⟩
  simp only [ownerOf, hplaced, hs']

/-- Another jail's placement is another's. -/
theorem staysOrGoes_insert {w : Worker} {name nodeId : String} (hname : r ≠ name)
    (h : w.placements.lookup r = some n) :
    StaysOrGoes r n { w with placements := w.placements.insert name nodeId } := by
  refine Or.inl ?_
  rw [Table.lookup_insert_eq, if_neg hname]
  exact h

theorem staysOrGoes_erase {w : Worker} (name : String) (h : w.placements.lookup r = some n) :
    StaysOrGoes r n { w with placements := w.placements.erase name } := by
  rw [StaysOrGoes, Table.lookup_erase_eq]
  split
  · exact Or.inr rfl
  · exact Or.inl h

/-- A write that follows a success only. -/
theorem wp_write_if_success {α : Type} {status : ℕ} {c : Command Unit} {response : α} {w : World}
    {Q : α → World → Prop}
    (hwrite : ∀ now ord, Q response ⟨(Worker.handleCommand now ord c w.worker).2,
      w.log ++ c.note now w.worker (Worker.handleCommand now ord c w.worker).1⟩)
    (hnone : Q response w) :
    (if isSuccess status then Prog.command c fun _ => Prog.ret response
      else Prog.ret response : Handler α).wp semantics w Q := by
  split
  · rw [wp_command_iff]
    exact hwrite
  · exact hnone

/-- The guard of an operator's `PUT` refuses the replica's name. -/
theorem wp_rejectIfServiceOwned_stateful {name : String} {w : World}
    {Q : Option Response → World → Prop} (hstateful : StatefulReplica w.worker.services r)
    (hplaced : w.worker.placements.lookup r = some n) (hreject : ∀ response, Q (some response) w)
    (hpass : r ≠ name → Q none w) : (rejectIfServiceOwned name).wp semantics w Q := by
  refine wp_rejectIfServiceOwned hreject fun howner => hpass ?_
  rintro rfl
  obtain ⟨s, hs⟩ := ownerOf_stateful hstateful hplaced
  exact howner s hs

theorem handlePutNodeJail_keeps (id name : String) (body : Except String JailSpec) :
    Keeps r n (handlePutNodeJail id name body) := by
  intro w hstateful hplaced
  rw [handlePutNodeJail, Prog.bind_eq, Prog.wp_bind]
  refine wp_rejectIfServiceOwned_stateful hstateful hplaced (fun _ => Or.inl hplaced) fun hname => ?_
  rw [Prog.bind_eq, Prog.wp_bind]
  refine wp_handleForward (fun response hs => ?_) fun now addr answer response _ _ => ?_
  · simp only [hs]
    exact Or.inl hplaced
  · exact wp_write_if_success (fun _ _ => staysOrGoes_insert hname hplaced) (Or.inl hplaced)

theorem handleDeleteNodeJail_keeps (id name : String) :
    Keeps r n (handleDeleteNodeJail id name) := by
  intro w _ hplaced
  rw [handleDeleteNodeJail, Prog.bind_eq, Prog.wp_bind]
  refine wp_handleForward (fun response hs => ?_) fun now addr answer response _ _ => ?_
  · simp only [hs]
    exact Or.inl hplaced
  · exact wp_write_if_success (fun _ _ => staysOrGoes_erase name hplaced) (Or.inl hplaced)

theorem handlePutJail_keeps (name : String) (body : Except String JailSpec) :
    Keeps r n (handlePutJail name body) := by
  intro w hstateful hplaced
  rw [handlePutJail, Prog.bind_eq, Prog.wp_bind]
  refine wp_rejectIfServiceOwned_stateful hstateful hplaced (fun _ => Or.inl hplaced) fun hname => ?_
  simp only [handleScheduledApply, Prog.bind_eq, Prog.send_bind, wp_command_iff,
    Worker.handleCommand, Command.note, List.append_nil]
  intro now _
  split
  · exact Or.inl hplaced
  · exact Or.inl hplaced
  · simp only [Prog.call_bind, wp_forward_iff]
    intro answer
    rcases answer with e | ⟨status, text⟩
    · exact Or.inl hplaced
    · exact wp_write_if_success (fun _ _ => staysOrGoes_insert hname hplaced) (Or.inl hplaced)

theorem handleScheduledDelete_keeps (name : String) : Keeps r n (handleScheduledDelete name) := by
  intro w _ hplaced
  simp only [handleScheduledDelete, Prog.bind_eq, Prog.send_bind, wp_command_iff,
    Worker.handleCommand, Command.note, List.append_nil]
  intro now _
  split
  · exact Or.inl hplaced
  · simp only [Prog.call_bind, wp_forward_iff]
    intro answer
    rcases answer with e | ⟨status, text⟩
    · exact Or.inl hplaced
    · exact wp_write_if_success (fun _ _ => staysOrGoes_erase name hplaced) (Or.inl hplaced)

theorem handleForward_keeps (id : String) (method : Method) (path : NodePath) (body : Body) :
    Keeps r n (handleForward id method path body) := by
  intro w _ hplaced
  exact wp_handleForward (fun _ _ => Or.inl hplaced) fun _ _ _ _ _ _ => Or.inl hplaced

theorem handleScheduledRead_keeps (name : String) : Keeps r n (handleScheduledRead name) := by
  intro w _ hplaced
  simp only [handleScheduledRead, Prog.bind_eq, Prog.send_bind, wp_command_iff,
    Worker.handleCommand, Command.note, List.append_nil]
  intro _ _
  split
  · exact Or.inl hplaced
  · simp only [Prog.call_bind, wp_forward_iff]
    intro answer
    rcases answer with e | ⟨status, text⟩ <;> exact Or.inl hplaced

theorem handleRegister_keeps (body : Except String NodeRegistration) :
    Keeps r n (handleRegister body) := by
  intro w _ hplaced
  cases body with
  | error e => exact Or.inl hplaced
  | ok registration =>
    simp only [handleRegister, Prog.bind_eq, Prog.send_bind, wp_command_iff, Worker.handleCommand,
      Command.note, List.append_nil]
    intro _ _
    split <;> exact Or.inl hplaced

/-- A promotion of another replica moves that one. -/
theorem handleForceRepin_keeps {name : String} (hname : r ≠ name) :
    Keeps r n (handleForceRepin name) := by
  intro w _ hplaced
  refine wp_handleForceRepin (fun w' _ _ hworker _ => ?_) ?_
  · rw [hworker]
    exact Or.inl hplaced
  · intro w' now prep answer _ _ hworker _ _
    rw [World.answered_worker]
    split
    · rw [hworker, StaysOrGoes, ForceRepinPrep.settle, Table.lookup_insert_eq, if_neg hname]
      exact Or.inl hplaced
    · rw [hworker]
      exact Or.inl hplaced

/-- **No request moves the replica** but its own promotion. -/
theorem handler_keeps {request : Request} (hrequest : request ≠ .forceRepin r) :
    Keeps r n request.handler := by
  cases request with
  | register body => exact handleRegister_keeps body
  | heartbeat id body => exact handleHeartbeat_keeps id body
  | putNodeJail id name body => exact handlePutNodeJail_keeps id name body
  | deleteNodeJail id name => exact handleDeleteNodeJail_keeps id name
  | putJail name body => exact handlePutJail_keeps name body
  | getJail name => exact handleScheduledRead_keeps name
  | deleteJail name => exact handleScheduledDelete_keeps name
  | putService name body => exact handleApplyService_keeps name body
  | deleteService name => exact handleDeleteService_keeps name
  | forceRepin name =>
    refine handleForceRepin_keeps ?_
    rintro rfl
    exact hrequest rfl
  | getNodeJails id => exact handleForward_keeps id _ _ _
  | getNodeJail id name => exact handleForward_keeps id _ _ _
  | getNodeVolume id name => exact handleForward_keeps id _ _ _
  | deleteNodeVolume id name => exact handleForward_keeps id _ _ _
  | noRoute method path => exact fun _ _ hplaced => Or.inl hplaced
  | listNodes => exact fun _ _ hplaced _ => Or.inl hplaced
  | listServices => exact fun _ _ hplaced _ => Or.inl hplaced
  | getService name =>
    intro w _ hplaced
    simp only [Request.handler, handleGetService, Prog.bind_eq, Prog.send_bind, wp_command_iff,
      Worker.handleCommand, Command.note, List.append_nil]
    intro _ _
    split <;> exact Or.inl hplaced

/-- Its own moves it only if it answers `200`. -/
theorem wp_handleForceRepin_keeps (w : World) (hplaced : w.worker.placements.lookup r = some n) :
    (handleForceRepin r).wp semantics w fun response w' =>
      response.status = 200 ∨ StaysOrGoes r n w'.worker := by
  refine wp_handleForceRepin (fun w' _ _ hworker _ => ?_) ?_
  · rw [hworker]
    exact Or.inr (Or.inl hplaced)
  · intro w' now prep answer response _ hworker _ hresponse
    rw [World.answered_worker]
    split
    · rename_i haccepted
      exact Or.inl (hresponse.2 haccepted)
    · rw [hworker]
      exact Or.inr (Or.inl hplaced)

/-- **One request.** -/
theorem serve_pinned {w : Worker} {request : Request} {o : ℕ → Choice} {n' : String}
    (hstateful : StatefulReplica w.services r) (hplaced : w.placements.lookup r = some n)
    (hafter : (serve request o w).after.placements.lookup r = some n') (hmoved : n' ≠ n) :
    request = .forceRepin r ∧ (serve request o w).response.status = 200 := by
  have hgone : ¬ StaysOrGoes r n (serve request o w).after := by
    rintro (hstays | hgoes)
    · rw [hstays] at hafter
      exact hmoved (Option.some.inj hafter).symm
    · rw [hgoes] at hafter
      cases hafter
  by_cases hrequest : request = .forceRepin r
  · subst hrequest
    have hwp := Prog.wp_run (o := o) (i := 0) (wp_handleForceRepin_keeps ⟨w, []⟩ hplaced)
    exact ⟨rfl, hwp.resolve_right hgone⟩
  · exact absurd (Prog.wp_run (o := o) (i := 0)
      (handler_keeps hrequest ⟨w, []⟩ hstateful hplaced)) hgone

/-- **Stateful replicas are pinned.** In any state, whichever nodes are
up, no plan schedules a placed replica of a service with volumes; and in
any run of requests, one that finds the replica on one node and leaves it
on another is its force-repin, answered `200`. -/
theorem stateful_pinned (w : Worker) (script : Script) (r : String) :
    (∀ now, StatefulReplica w.services r → (w.placements.lookup r).isSome = true →
      ∀ a ∈ w.reconcileServices now,
        ∀ nodeId nodeAddr template address prefixLen standbyNodeId standbyAddr,
          a ≠ .schedule r nodeId nodeAddr template address prefixLen standbyNodeId standbyAddr) ∧
      ∀ s ∈ history w script, ∀ n n', StatefulReplica s.before.services r →
        s.before.placements.lookup r = some n → s.after.placements.lookup r = some n' → n' ≠ n →
          s.request = .forceRepin r ∧ s.response.status = 200 := by
  refine ⟨fun now hstateful hplaced => ?_, ?_⟩
  · obtain ⟨n, hn⟩ := Option.isSome_iff_exists.1 hplaced
    exact reconcileServices_unscheduled now hstateful hn
  · induction script generalizing w with
    | nil =>
      intro s hs
      cases hs
    | cons step rest ih =>
      obtain ⟨request, o⟩ := step
      intro s hs n n' hstateful hplaced hafter hmoved
      rcases List.mem_cons.1 hs with rfl | hs
      · exact serve_pinned hstateful hplaced hafter hmoved
      · exact ih _ s hs n n' hstateful hplaced hafter hmoved

namespace Sample

/-- A stateful service with its replica on `a`; `a` falls silent, and the
others do not. -/
def primarySilent : Worker :=
  final spawn [(register "a", clock 0 200), (register "b", clock 0 200), (register "c", clock 0 200),
    (service "db" 1 data, clock 1 200), (heartbeat "b", clock 20 200),
    (heartbeat "c", clock 20 200)]

end Sample

open Sample in
theorem stateful_pinned_sample :
    (serve (.forceRepin "db-0") (clock 21 200) primarySilent).after.placements.lookup "db-0" ≠
        some "a" ∧
      (serve (.forceRepin "db-0") (clock 21 200) primarySilent).response.status = 200 := by
  have hmoved : primarySilent.placements.lookup "db-0" = some "a" ∧
      (serve (.forceRepin "db-0") (clock 21 200) primarySilent).after.placements.lookup "db-0" =
        some "b" := by decide +kernel
  have hstateful : StatefulReplica primarySilent.services "db-0" := by
    obtain ⟨record, hrecord⟩ : ∃ record, primarySilent.services.get "db" = some record :=
      Option.isSome_iff_exists.1 (by decide +kernel)
    have hvolumes : ∀ record' ∈ primarySilent.services.get "db", record'.template.volumes ≠ [] := by
      decide +kernel
    exact ⟨"db", record, hrecord, hvolumes record hrecord, by decide +kernel⟩
  refine ⟨by rw [hmoved.2]; decide, ?_⟩
  exact ((stateful_pinned primarySilent [(.forceRepin "db-0", clock 21 200)] "db-0").2 _
    List.mem_cons_self "a" "b" hstateful hmoved.1 hmoved.2 (by decide)).2

end ControlPlane

end Keel
