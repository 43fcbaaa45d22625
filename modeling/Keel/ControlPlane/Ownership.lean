import Keel.ControlPlane.Helpers.Steps
import Keel.ControlPlane.Helpers.Plan
/-!
# Operators' jails and services' replicas

Nothing in the tables says whose a jail is: a jail whose name reads
`<service>-<index>` counts as that service's replica. So a jail an
operator placed under such a name is counted among the service's
replicas, and torn down as one too many. The guards against it look only
at the names a service would have now and at names that are placed, and
miss the others (`unmanaged_torn_down`).

Where the names are kept apart — no operator's jail accepted under a name
some service would read as its own, no service accepted that would read
an operator's jail as its own (`KeepsApart`) — no pass counts or tears
down an operator's jail (`unmanaged_never_replica`).
-/

namespace Keel

namespace ControlPlane

/-! ## Who placed a jail -/

/-- Where an accepted `PUT` of `r` was sent from. -/
def Event.placedFrom (r : String) : Event → Option Site
  | .sent _ f answer =>
    if f.method = .put ∧ f.path = .jail r ∧ accepted answer = true then some f.site else none
  | _ => none

/-- Where the last accepted `PUT` of `r` was sent from. -/
def lastPlacedFrom (r : String) (past : List Event) : Option Site :=
  past.foldl (fun last e => (e.placedFrom r).or last) none

/-- `r` is placed, and by an operator. -/
def OperatorPlaced (past : List Event) (w : Worker) (r : String) : Prop :=
  r ∈ w.placements ∧ (lastPlacedFrom r past).any Site.operator = true

instance (past : List Event) (w : Worker) (r : String) : Decidable (OperatorPlaced past w r) :=
  inferInstanceAs (Decidable (_ ∧ _))

theorem lastPlacedFrom_snoc (r : String) (past : List Event) (e : Event) :
    lastPlacedFrom r (past ++ [e]) = (e.placedFrom r).or (lastPlacedFrom r past) := by
  rw [lastPlacedFrom, List.foldl_append]
  rfl

/-! ## Traces -/

/-- `P` holds of every event of a trace, given what came before it. -/
def Along (P : List Event → Event → Prop) (past : List Event) : List Event → Prop
  | [] => True
  | e :: rest => P past e ∧ Along P (past ++ [e]) rest

theorem along_append (P : List Event → Event → Prop) (past l l' : List Event) :
    Along P past (l ++ l') ↔ Along P past l ∧ Along P (past ++ l) l' := by
  induction l generalizing past with
  | nil => simp [Along]
  | cons e l ih => simp [Along, ih, and_assoc]

theorem along_snoc (P : List Event → Event → Prop) (l : List Event) (e : Event) :
    Along P [] (l ++ [e]) ↔ Along P [] l ∧ P l e := by
  simp [along_append, Along]

instance decidableAlong (P : List Event → Event → Prop) [∀ l e, Decidable (P l e)] :
    ∀ past l, Decidable (Along P past l)
  | _, [] => inferInstanceAs (Decidable True)
  | past, e :: rest =>
    have := decidableAlong P (past ++ [e]) rest
    inferInstanceAs (Decidable (P past e ∧ Along P (past ++ [e]) rest))

/-! ## The condition and the property -/

/-- The jail a tear-down is of. -/
def ReplicaAction.tornDown? : ReplicaAction → Option String
  | .tearDown name .. => some name
  | .schedule .. => none

/-- No operator's jail is accepted under a name that reads as a replica
of a service, and no service is accepted that an operator's jail reads as
a replica of. -/
def KeepsApart (past : List Event) : Event → Prop
  | .sent before f answer =>
    f.method = .put → f.site.operator = true → accepted answer = true →
      ∀ s ∈ before.services.byName.keys, ∀ r ∈ f.jail?, replicaIndex s r = none
  | .applied before name =>
    ∀ r ∈ before.placements.keys, OperatorPlaced past before r → replicaIndex name r = none
  | .planned .. => True

/-- A plan tears no operator's jail down, and none counts as a replica of
any service there is. -/
def SparesUnmanaged (past : List Event) : Event → Prop
  | .planned _ before actions =>
    ∀ r ∈ before.placements.keys, OperatorPlaced past before r →
      (∀ a ∈ actions, a.tornDown? ≠ some r) ∧
        ∀ s ∈ before.services.byName.keys, ∀ p ∈ before.placed s, p.2.1 ≠ r
  | _ => True

instance (past : List Event) : DecidablePred (KeepsApart past)
  | .sent .. => inferInstanceAs (Decidable (_ → _))
  | .applied .. => inferInstanceAs (Decidable (∀ _ ∈ _, _))
  | .planned .. => inferInstanceAs (Decidable True)

instance (past : List Event) : DecidablePred (SparesUnmanaged past)
  | .sent .. => inferInstanceAs (Decidable True)
  | .applied .. => inferInstanceAs (Decidable True)
  | .planned .. => inferInstanceAs (Decidable (∀ _ ∈ _, _))

/-! ## Names kept apart -/

/-- No operator's jail reads as a replica of a service there is. -/
def Apart (past : List Event) (w : Worker) : Prop :=
  ∀ r, OperatorPlaced past w r → ∀ s ∈ w.services.byName, replicaIndex s r = none

/-- A plan made while the names are apart spares operators' jails. -/
theorem Apart.sparesUnmanaged {past : List Event} {w : Worker} (h : Apart past w) {now : Instant}
    {actions : List ReplicaAction} (htear : ∀ a ∈ actions, TearsDownReplica w a) :
    SparesUnmanaged past (.planned now w actions) := by
  intro r _ hr
  refine ⟨fun a ha hdown => ?_, fun s hs p hp heq => ?_⟩
  · cases a with
    | schedule => cases hdown
    | tearDown name nodeId nodeAddr =>
      cases hdown
      obtain ⟨-, s, record, hget, hidx⟩ := htear _ ha r nodeId nodeAddr rfl
      have hs : s ∈ w.services.byName := Table.mem_of_lookup hget
      rw [h r hr s hs] at hidx
      cases hidx
  · obtain ⟨i, name, nodeId⟩ := p
    cases heq
    have hidx := (mem_placed.1 hp).2
    rw [h name hr s (AList.mem_keys.2 hs)] at hidx
    cases hidx

/-- A placement that nobody adds to, and a `PUT` that is no operator's,
keep the names apart. -/
theorem Apart.of_snoc {past : List Event} {w w' : Worker} {e : Event} (h : Apart past w)
    (hplaced : ∀ r, r ∈ w'.placements → e.placedFrom r = none → r ∈ w.placements)
    (hfrom : ∀ r site, e.placedFrom r = some site → site.operator = false)
    (hservices : ∀ s ∈ w'.services.byName, s ∈ w.services.byName) : Apart (past ++ [e]) w' := by
  rintro r ⟨hr, hsite⟩ s hs
  rw [lastPlacedFrom_snoc] at hsite
  cases he : e.placedFrom r with
  | some site =>
    rw [he, Option.some_or, Option.any_some, hfrom r site he] at hsite
    cases hsite
  | none =>
    rw [he, Option.none_or] at hsite
    exact h r ⟨hplaced r hr he, hsite⟩ s (hservices s hs)

theorem placedFrom_of_method {before : Worker} {f : Forward} {answer : ForwardResult}
    (h : ∀ r, f.path = .jail r → f.method ≠ .put) (r : String) :
    (Event.sent before f answer).placedFrom r = none :=
  if_neg fun hput => h r hput.2.1 hput.1

theorem placedFrom_of_refused {before : Worker} {f : Forward} {answer : ForwardResult}
    (h : accepted answer = false) (r : String) :
    (Event.sent before f answer).placedFrom r = none :=
  if_neg fun hput => by rw [h] at hput; exact Bool.false_ne_true hput.2.2

theorem placedFrom_of_accepted {before : Worker} {f : Forward} {answer : ForwardResult}
    {name : String} (hmethod : f.method = .put) (hpath : f.path = .jail name)
    (hacc : accepted answer = true) (r : String) :
    (Event.sent before f answer).placedFrom r = if r = name then some f.site else none := by
  simp only [Event.placedFrom, hmethod, hpath, hacc, NodePath.jail.injEq, and_true, true_and,
    eq_comm (a := name)]

/-- The names are apart, and every plan so far spared operators' jails. -/
structure NamesApart (w : World) : Prop where
  apart : Apart w.log w.worker
  spared : Along SparesUnmanaged [] w.log

theorem NamesApart.snoc {w : World} {worker : Worker} {e : Event} (h : NamesApart w)
    (hapart : Apart (w.log ++ [e]) worker) (he : SparesUnmanaged w.log e) :
    NamesApart ⟨worker, w.log ++ [e]⟩ :=
  ⟨hapart, (along_snoc _ _ _).2 ⟨h.spared, he⟩⟩

/-- A write of placements that no operator asked for. -/
theorem NamesApart.of_accepted {w : World} {f : Forward} {answer : ForwardResult} {name : String}
    {t : Worker → Worker} (h : NamesApart w) (hmethod : f.method = .put)
    (hpath : f.path = .jail name) (hsite : f.site.operator = false)
    (hplaced : ∀ r, r ∈ (t w.worker).placements → r ≠ name → r ∈ w.worker.placements)
    (hservices : (t w.worker).services = w.worker.services) :
    NamesApart (w.answered f answer (accepted answer) t) := by
  refine h.snoc ?_ trivial
  cases hacc : accepted answer with
  | false =>
    refine h.apart.of_snoc (fun r hr _ => hr) (fun r site hfrom => ?_) fun s hs => hs
    rw [placedFrom_of_refused hacc] at hfrom
    cases hfrom
  | true =>
    have hfrom : ∀ r, (Event.sent w.worker f answer).placedFrom r = _ :=
      placedFrom_of_accepted hmethod hpath hacc
    refine h.apart.of_snoc (fun r hr hnone => hplaced r hr ?_) (fun r site hr => ?_) ?_
    · rintro rfl
      rw [hfrom, if_pos rfl] at hnone
      cases hnone
    · rw [hfrom] at hr
      split at hr
      · cases hr
        exact hsite
      · cases hr
    · rw [if_pos rfl, hservices]
      exact fun s hs => hs

/-- A forward that is no `PUT` of a jail, after which no jail is placed
that was not. -/
theorem NamesApart.of_not_put {w : World} {f : Forward} {answer : ForwardResult} {settles : Bool}
    {t : Worker → Worker} (h : NamesApart w) (hmethod : ∀ r, f.path = .jail r → f.method ≠ .put)
    (hplaced : ∀ r, r ∈ (t w.worker).placements → r ∈ w.worker.placements)
    (hservices : (t w.worker).services = w.worker.services) :
    NamesApart (w.answered f answer settles t) := by
  refine h.snoc (h.apart.of_snoc (fun r hr _ => ?_) (fun r site hfrom => ?_) ?_) trivial
  · cases settles with
    | false => exact hr
    | true => exact hplaced r hr
  · rw [placedFrom_of_method hmethod] at hfrom
    cases hfrom
  · cases settles with
    | false => exact fun s hs => hs
    | true =>
      rw [if_pos rfl, hservices]
      exact fun s hs => hs

theorem mem_of_mem_erase {β : Type} {t : Table β} {name r : String} (h : r ∈ t.erase name) : r ∈ t :=
  (AList.mem_erase.1 h).2

/-- One action of a plan. -/
theorem namesApart_execute {w : World} {a : ReplicaAction} {answer : ForwardResult}
    (h : NamesApart w) : NamesApart (w.execute a answer) := by
  cases a with
  | schedule name nodeId =>
    exact h.of_accepted rfl rfl rfl (fun r hr hne => ((AList.mem_insert _).1 hr).resolve_left hne) rfl
  | tearDown name nodeId =>
    exact h.of_not_put (fun _ _ => by simp [ReplicaAction.forward])
      (fun r hr => mem_of_mem_erase hr) rfl

/-- **A step keeps the names apart.** -/
theorem namesApart_step {w w' : World} (h : Step w w') (hkeeps : Along KeepsApart [] w'.log)
    (hw : NamesApart w) : NamesApart w' := by
  cases h with
  | registry => exact ⟨hw.apart, hw.spared⟩
  | @apply name _ _ _ services hconflict h =>
    refine hw.snoc ?_ trivial
    rintro r ⟨hr, hsite⟩ s hs
    have hplaced : OperatorPlaced w.log w.worker r := ⟨hr, by rwa [lastPlacedFrom_snoc] at hsite⟩
    -- The service is new and its names are asked to be nobody's, or it was
    -- there before.
    rcases Services.mem_of_apply h hs with rfl | hs
    · exact ((along_snoc _ _ _).1 hkeeps).2 r (AList.mem_keys.1 hr) hplaced
    · exact hw.apart r hplaced s hs
  | reconcile now h =>
    refine h.invariant (C := fun _ => True) (fun _ _ => namesApart_execute) (fun _ _ => trivial) ?_
    exact hw.snoc (hw.apart.of_snoc (fun r hr _ => hr) (fun r site hfrom => by cases hfrom)
      fun s hs => hs) (hw.apart.sparesUnmanaged reconcileServices_tearDown)
  | delete now ord hget h =>
    refine h.invariant (C := fun _ => True) (fun _ _ => namesApart_execute) (fun _ _ => trivial) ?_
    exact hw.snoc (hw.apart.of_snoc (fun r hr _ => hr) (fun r site hfrom => by cases hfrom)
      fun s hs => mem_of_mem_erase hs) (hw.apart.sparesUnmanaged (deleteActions_tearDown hget))
  | read answer hsite hput =>
    refine hw.snoc (hw.apart.of_snoc (fun r hr _ => hr) (fun r site hfrom => ?_) fun s hs => hs)
      trivial
    rw [placedFrom_of_method fun r hpath => by rw [hput r hpath]; simp] at hfrom
    cases hfrom
  | @put f name answer hpath hmethod hsite howner =>
    have hsent := ((along_snoc _ _ _).1 hkeeps).2
    cases hacc : accepted answer with
    | false =>
      refine hw.snoc (hw.apart.of_snoc (fun r hr _ => hr) (fun r site hfrom => ?_) fun s hs => hs)
        trivial
      rw [placedFrom_of_refused hacc] at hfrom
      cases hfrom
    | true =>
      refine hw.snoc ?_ trivial
      rintro r ⟨hr, hfrom⟩ s hs
      -- The jail just placed is not named like a replica; any other was
      -- placed before.
      rw [lastPlacedFrom_snoc, placedFrom_of_accepted hmethod hpath hacc] at hfrom
      by_cases hname : r = name
      · exact hsent hmethod hsite hacc s (AList.mem_keys.1 hs) r
          (by simp [Forward.jail?, hpath, hname])
      · rw [if_neg hname, Option.none_or] at hfrom
        exact hw.apart r ⟨((AList.mem_insert _).1 hr).resolve_left hname, hfrom⟩ s hs
  | drop answer hpath hmethod hsite =>
    exact hw.of_not_put (fun _ _ => by rw [hmethod]; simp) (fun r hr => mem_of_mem_erase hr) rfl
  | promote now answer hprep =>
    exact hw.of_accepted rfl rfl rfl (fun r hr hne => ((AList.mem_insert _).1 hr).resolve_left hne) rfl
  | fence addr answer hpending =>
    exact hw.of_not_put (fun _ _ => by simp [fenceForward]) (fun r hr => hr) rfl

/-- **Operators' jails are never treated as replicas.** In every run that
keeps operators' jails and services' replicas apart by name, no plan
tears an operator's jail down, and none is counted among the replicas of
a service. -/
theorem unmanaged_never_replica (clusterCidr serviceCidr : Ipv4Net) (script : Script)
    (hkeeps : Along KeepsApart [] (events (Worker.spawn clusterCidr serviceCidr) script)) :
    Along SparesUnmanaged [] (events (Worker.spawn clusterCidr serviceCidr) script) := by
  have hsteps := run_steps (Worker.spawn clusterCidr serviceCidr) script []
  rw [List.nil_append] at hsteps
  have hstart : NamesApart ⟨Worker.spawn clusterCidr serviceCidr, []⟩ :=
    ⟨fun r hr => absurd hr.1 (by simp [Worker.spawn]), trivial⟩
  refine (hsteps.invariant_log (Along KeepsApart []) ?_ namesApart_step hkeeps hstart).spared
  rintro l _ ⟨l', rfl⟩ hlog
  exact ((along_append _ _ _ _).1 hlog).1

namespace Sample

/-- A node, and an operator's jail on it. -/
def operatorJail (name : String) : Script :=
  [(register "a", clock 0 200), (.putJail name (.ok (jail name)), clock 1 200)]

end Sample

open Sample in
theorem unmanaged_never_replica_sample :
    Along SparesUnmanaged [] (events spawn (operatorJail "cache" ++
      [(service "web" 2 [], clock 2 200), (service "web" 1 [], clock 3 200)])) :=
  unmanaged_never_replica _ _ _ (by decide +kernel)

open Sample in
/-- **Operators' jails are torn down as replicas too many.** `web-5` is no
name a service of one replica would have, so the service is accepted, and
its pass counts `web-5`; asked for none, it tears `web-5` down. And
`web-0`, though a name of the service, is not placed when an operator
takes it, so the operator is let through. -/
theorem unmanaged_torn_down :
    ¬ Along SparesUnmanaged [] (events spawn (operatorJail "web-5" ++
      [(service "web" 1 [], clock 2 200), (service "web" 0 [], clock 3 200)])) ∧
    ¬ Along SparesUnmanaged [] (events spawn ([(register "a", clock 0 200),
      (service "web" 1 [], clock 0 500)] ++ operatorJail "web-0" ++
      [(service "web" 0 [], clock 2 200)])) := by
  decide +kernel

end ControlPlane

end Keel
