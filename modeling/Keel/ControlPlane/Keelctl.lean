import Keel.ControlPlane.Model.Run
/-!
# `keelctl delete`

`keelctl` tries a name as a jail's, and on a `404` as a service's and then
as an ingress's. The control plane answers `404` for a jail that is not
placed, and also for one whose node is dead, or whose agent has no such
jail. So a service is deleted in the place of a placed jail of its name
exactly when there is one and the jail's delete comes back `404`
(`delete_spares_jails_iff`).
-/

namespace Keel

namespace ControlPlane

/-! ## The client -/

/-- What the outside decides of one request of the client. -/
structure Dispatch where
  /-- What is served before it. -/
  before : Script
  /-- How its empty body reads, at each type. -/
  body : RequestBody
  o : ℕ → Choice
  /-- It reaches the control plane. -/
  arrives : Bool
  /-- The answer reaches the client. -/
  answered : Bool

/-- Send one request: the answer, if any, what was served of it, and the
tables it leaves. -/
def dispatch (d : Dispatch) (method path : String) (w : Worker) :
    Option Response × List Served × Worker :=
  let w := final w d.before
  if d.arrives then
    let served := serve (route method path d.body) d.o w
    (if d.answered then some served.response else none, [served], served.after)
  else (none, [], w)

def jailsPath (node : Option String) (suffix : String) : String :=
  match node with
  | some node => "/nodes/" ++ node ++ suffix
  | none => suffix

/-- The answer the client goes by, what was served of its requests, and
the tables they leave. -/
def getOrDeleteWithServiceFallback (node : Option String) (method name : String)
    (d₁ d₂ d₃ : Dispatch) (w : Worker) : Option Response × List Served × Worker :=
  match dispatch d₁ method (jailsPath node ("/jails/" ++ name)) w with
  | (none, log, w) => (none, log, w)
  | (some response, log, w) =>
    if response.status ≠ 404 then (some response, log, w)
    else
      match dispatch d₂ method (jailsPath node ("/services/" ++ name)) w with
      | (none, log₂, w) => (none, log ++ log₂, w)
      | (some response₂, log₂, w) =>
        if response₂.status ≠ 404 then (some response₂, log ++ log₂, w)
        else
          -- An ingress is never a node's or the control plane's.
          match dispatch d₃ method ("/ingress/" ++ name) w with
          | (none, log₃, w) => (none, log ++ log₂ ++ log₃, w)
          | (some response₃, log₃, w) =>
            (some (if response₃.status = 404 then response else response₃),
              log ++ log₂ ++ log₃, w)

def runDelete (node : Option String) (name : String) (d₁ d₂ d₃ : Dispatch) (w : Worker) :
    Option Response × List Served × Worker :=
  getOrDeleteWithServiceFallback node "DELETE" name d₁ d₂ d₃ w

/-- A request served that deletes a service there is. -/
def Served.DeletesService (s : Served) (name : String) : Prop :=
  s.request = .deleteService name ∧ (s.before.services.get name).isSome = true

/-! ## Paths -/

theorem segments_join (a b : String) : segments (a ++ "/" ++ b) = segments a ++ segments b := by
  have hslash : "/".toList = ['/'] := rfl
  rw [segments, String.toList_append, String.toList_append, hslash, List.append_assoc,
    List.singleton_append, List.splitOn_append_cons_self, List.filter_append, List.map_append]
  rfl

theorem segments_jails (name : String) :
    segments ("/jails/" ++ name) = "jails" :: segments name := by
  have hpath : "/jails/" ++ name = "/jails" ++ "/" ++ name := rfl
  rw [hpath, segments_join]
  rfl

theorem segments_services (name : String) :
    segments ("/services/" ++ name) = "services" :: segments name := by
  have hpath : "/services/" ++ name = "/services" ++ "/" ++ name := rfl
  rw [hpath, segments_join]
  rfl

theorem segments_nodes (node suffix : String) :
    segments ("/nodes/" ++ node ++ suffix) = "nodes" :: segments (node ++ suffix) := by
  have hpath : "/nodes/" ++ node ++ suffix = "/nodes" ++ "/" ++ (node ++ suffix) := by
    rw [← String.append_assoc]
    rfl
  rw [hpath, segments_join]
  rfl

theorem segments_ingress (name : String) :
    segments ("/ingress/" ++ name) = "ingress" :: segments name := by
  have hpath : "/ingress/" ++ name = "/ingress" ++ "/" ++ name := rfl
  rw [hpath, segments_join]
  rfl

theorem route_eq_deleteService {path name : String} {body : RequestBody} :
    route "DELETE" path body = .deleteService name ↔ segments path = ["services", name] := by
  constructor
  · intro h
    unfold route at h
    split at h <;> simp_all
  · intro h
    unfold route
    rw [h]
    rfl

theorem route_deleteJail {path name : String} {body : RequestBody}
    (h : segments path = ["jails", name]) : route "DELETE" path body = .deleteJail name := by
  unfold route
  rw [h]
  rfl

/-- A delete of a service goes to no node's path. -/
theorem segments_jailsPath_services {node : Option String} {name n : String} :
    segments (jailsPath node ("/services/" ++ name)) = ["services", n] ↔
      node = none ∧ segments name = [n] := by
  cases node with
  | none => simp [jailsPath, segments_services]
  | some node => simp [jailsPath, segments_nodes]

theorem segments_jailsPath_jails_ne {node : Option String} {name n : String} :
    segments (jailsPath node ("/jails/" ++ name)) ≠ ["services", n] := by
  cases node with
  | none => simp [jailsPath, segments_jails]
  | some node => simp [jailsPath, segments_nodes]

/-! ## The jail's delete -/

/-- The jail's delete comes back `404`: the jail is not placed, its node
does not resolve, or its agent says so. -/
def NotFound (w : Worker) (o : ℕ → Choice) (name : String) : Prop :=
  (w.resolvePlacement (o 0).now name).isOk = false ∨ ∃ text, (o 1).answer = .ok (404, text)

theorem serve_deleteJail_status {w : Worker} {o : ℕ → Choice} {name : String} :
    (serve (.deleteJail name) o w).response.status = 404 ↔ NotFound w o name := by
  simp only [serve, Request.handler, handleScheduledDelete, Prog.bind_eq, Prog.send_bind,
    Prog.run, semantics, World.command, Worker.handleCommand, NotFound]
  cases hplace : w.resolvePlacement (o 0).now name with
  | error e => exact iff_of_true rfl (Or.inl rfl)
  | ok p =>
    obtain ⟨nodeId, addr⟩ := p
    simp only [Prog.call_bind, Prog.run, World.forward, Nat.zero_add, Except.isOk, Except.toBool,
      reduceCtorEq, false_or]
    cases hanswer : (o 1).answer with
    | error e => simp [failedToReach, errorResponse, Prog.run]
    | ok r =>
      obtain ⟨status, text⟩ := r
      by_cases hsuccess : isSuccess status = true
      · simp [hsuccess, sendRemovePlacement, Prog.run]
      · simp [hsuccess, Prog.run]

/-- And then nothing has been struck off. -/
theorem serve_deleteJail_after {w : Worker} {o : ℕ → Choice} {name : String}
    (h : NotFound w o name) : (serve (.deleteJail name) o w).after = w := by
  simp only [serve, Request.handler, handleScheduledDelete, Prog.bind_eq, Prog.send_bind,
    Prog.run, semantics, World.command, Worker.handleCommand]
  cases hplace : w.resolvePlacement (o 0).now name with
  | error e => rfl
  | ok p =>
    obtain ⟨nodeId, addr⟩ := p
    rcases h with h | ⟨text, hanswer⟩
    · rw [hplace] at h
      cases h
    · simp only [Prog.call_bind, Prog.run, World.forward, Nat.zero_add, hanswer]
      rfl

/-! ## The whole of it -/

theorem dispatch_log {d : Dispatch} {method path : String} {w : Worker} {s : Served}
    (hs : s ∈ (dispatch d method path w).2.1) :
    d.arrives = true ∧ s = serve (route method path d.body) d.o (final w d.before) := by
  rw [dispatch] at hs
  cases harrives : d.arrives with
  | false => simp [harrives] at hs
  | true =>
    simp only [harrives, if_true, List.mem_singleton] at hs
    exact ⟨rfl, hs⟩

theorem dispatch_some {d : Dispatch} {method path : String} {w w' : Worker} {response : Response}
    {log : List Served} (h : dispatch d method path w = (some response, log, w')) :
    d.arrives = true ∧ d.answered = true ∧
      response = (serve (route method path d.body) d.o (final w d.before)).response ∧
      w' = (serve (route method path d.body) d.o (final w d.before)).after := by
  rw [dispatch] at h
  cases harrives : d.arrives with
  | false => simp [harrives] at h
  | true =>
    cases hanswered : d.answered with
    | false => simp [harrives, hanswered] at h
    | true =>
      simp only [harrives, hanswered, if_true, Prod.mk.injEq, Option.some.injEq] at h
      exact ⟨rfl, rfl, h.1.symm, h.2.2.symm⟩

section Fallback

variable {node : Option String} {method name : String} {d₁ d₂ d₃ : Dispatch} {w w₁ : Worker}
  {response : Response} {log : List Served} {s : Served}

/-- What is served comes of the first request, or of the ones after a
`404`. -/
theorem getOrDelete_log
    (hs : s ∈ (getOrDeleteWithServiceFallback node method name d₁ d₂ d₃ w).2.1) :
    s ∈ (dispatch d₁ method (jailsPath node ("/jails/" ++ name)) w).2.1 ∨
      ∃ response log w₁, dispatch d₁ method (jailsPath node ("/jails/" ++ name)) w =
          (some response, log, w₁) ∧ response.status = 404 ∧
        (s ∈ (dispatch d₂ method (jailsPath node ("/services/" ++ name)) w₁).2.1 ∨
          ∃ w₂, s ∈ (dispatch d₃ method ("/ingress/" ++ name) w₂).2.1) := by
  rw [getOrDeleteWithServiceFallback] at hs
  rcases h₁ : dispatch d₁ method (jailsPath node ("/jails/" ++ name)) w with ⟨_ | response, log, w₁⟩
  · rw [h₁] at hs
    exact Or.inl hs
  · simp only [h₁] at hs
    split at hs
    · exact Or.inl hs
    rename_i hstatus
    rcases h₂ : dispatch d₂ method (jailsPath node ("/services/" ++ name)) w₁ with
      ⟨_ | response₂, log₂, w₂⟩
    all_goals simp only [h₂] at hs
    · rcases List.mem_append.1 hs with hs | hs
      · exact Or.inl hs
      · exact Or.inr ⟨response, log, w₁, rfl, not_not.1 hstatus, Or.inl (by rwa [h₂])⟩
    split at hs
    · rcases List.mem_append.1 hs with hs | hs
      · exact Or.inl hs
      · exact Or.inr ⟨response, log, w₁, rfl, not_not.1 hstatus, Or.inl (by rwa [h₂])⟩
    have hthird : s ∈ log ∨ s ∈ log₂ ∨ s ∈ (dispatch d₃ method ("/ingress/" ++ name) w₂).2.1 := by
      rcases h₃ : dispatch d₃ method ("/ingress/" ++ name) w₂ with ⟨_ | response₃, log₃, w₃⟩
      all_goals
        simp only [h₃] at hs
        simpa only [List.mem_append, or_assoc] using hs
    rcases hthird with hs | hs | hs
    · exact Or.inl hs
    · exact Or.inr ⟨response, log, w₁, rfl, not_not.1 hstatus, Or.inl (by rwa [h₂])⟩
    · exact Or.inr ⟨response, log, w₁, rfl, not_not.1 hstatus, Or.inr ⟨w₂, hs⟩⟩

/-- After a `404` for the jail, the service's delete is sent. -/
theorem getOrDelete_log_second
    (h₁ : dispatch d₁ method (jailsPath node ("/jails/" ++ name)) w = (some response, log, w₁))
    (hstatus : response.status = 404)
    (hs : s ∈ (dispatch d₂ method (jailsPath node ("/services/" ++ name)) w₁).2.1) :
    s ∈ (getOrDeleteWithServiceFallback node method name d₁ d₂ d₃ w).2.1 := by
  rw [getOrDeleteWithServiceFallback]
  simp only [h₁]
  rw [if_neg (not_not.2 hstatus)]
  rcases h₂ : dispatch d₂ method (jailsPath node ("/services/" ++ name)) w₁ with
    ⟨_ | response₂, log₂, w₂⟩
  all_goals
    rw [h₂] at hs
    simp only
  · exact List.mem_append_right _ hs
  split
  · exact List.mem_append_right _ hs
  rcases dispatch d₃ method ("/ingress/" ++ name) w₂ with ⟨_ | response₃, log₃, w₃⟩
  all_goals exact List.mem_append_left _ (List.mem_append_right _ hs)

end Fallback

/-- A service stands where a placed jail's delete comes back `404`: both
bear the name the path comes to, the client goes through the control
plane and no node, and it gets that answer and its next request through. -/
def Misled (node : Option String) (name : String) (d₁ d₂ : Dispatch) (w : Worker) : Prop :=
  node = none ∧ ∃ n, segments name = [n] ∧ n ∈ (final w d₁.before).placements ∧
    d₁.arrives = true ∧ d₁.answered = true ∧ NotFound (final w d₁.before) d₁.o n ∧
      d₂.arrives = true ∧
        ((final (final w d₁.before) d₂.before).services.get n).isSome = true

/-- **A delete spares the services of placed jails' names** exactly when
it is not misled. -/
theorem delete_spares_jails_iff (node : Option String) (name : String) (d₁ d₂ d₃ : Dispatch)
    (w : Worker) :
    (∀ s ∈ (runDelete node name d₁ d₂ d₃ w).2.1, ∀ n, s.DeletesService n →
        n ∉ (final w d₁.before).placements) ↔
      ¬ Misled node name d₁ d₂ w := by
  constructor
  · rintro h ⟨rfl, n, hn, hplaced, harrives, hanswered, hnot, harrives₂, hservice⟩
    have hroute : route "DELETE" (jailsPath none ("/jails/" ++ name)) d₁.body = .deleteJail n := by
      refine route_deleteJail ?_
      rw [jailsPath, segments_jails, hn]
    have hroute₂ : route "DELETE" (jailsPath none ("/services/" ++ name)) d₂.body =
        .deleteService n := by
      rw [route_eq_deleteService, jailsPath, segments_services, hn]
    have hfirst : dispatch d₁ "DELETE" (jailsPath none ("/jails/" ++ name)) w =
        (some (serve (.deleteJail n) d₁.o (final w d₁.before)).response,
          [serve (.deleteJail n) d₁.o (final w d₁.before)], final w d₁.before) := by
      rw [dispatch]
      simp only [harrives, hanswered, if_true, hroute, serve_deleteJail_after hnot]
    refine h (serve (.deleteService n) d₂.o (final (final w d₁.before) d₂.before))
      (getOrDelete_log_second hfirst (serve_deleteJail_status.2 hnot) ?_) n ⟨rfl, hservice⟩ hplaced
    rw [dispatch]
    simp only [harrives₂, if_true, hroute₂, List.mem_singleton]
  · rintro h s hs n ⟨hrequest, hservice⟩ hplaced
    refine h ?_
    have hpath : ∀ {d : Dispatch} {path : String} {w : Worker},
        s ∈ (dispatch d "DELETE" path w).2.1 → segments path = ["services", n] := by
      intro d path w hmem
      rw [(dispatch_log hmem).2] at hrequest
      exact route_eq_deleteService.1 hrequest
    rcases getOrDelete_log hs with hs | ⟨response, log, w₁, hfirst, hstatus, hs | ⟨w₂, hs⟩⟩
    · exact absurd (hpath hs) segments_jailsPath_jails_ne
    · obtain ⟨rfl, hn⟩ := segments_jailsPath_services.1 (hpath hs)
      obtain ⟨harrives, hanswered, hresponse, hafter⟩ := dispatch_some hfirst
      have hroute : route "DELETE" (jailsPath none ("/jails/" ++ name)) d₁.body =
          .deleteJail n := by
        refine route_deleteJail ?_
        rw [jailsPath, segments_jails, hn]
      rw [hroute] at hresponse hafter
      have hnot : NotFound (final w d₁.before) d₁.o n := by
        rw [← serve_deleteJail_status, ← hresponse]
        exact hstatus
      rw [serve_deleteJail_after hnot] at hafter
      obtain ⟨harrives₂, hserved⟩ := dispatch_log hs
      rw [hserved, hafter] at hservice
      exact ⟨rfl, n, hn, hplaced, harrives, hanswered, hnot, harrives₂, hservice⟩
    · have hingress := hpath hs
      rw [segments_ingress] at hingress
      exact absurd (List.cons.inj hingress).1 (by decide)

namespace Sample

/-- A jail `web` is placed on a node, and a service `web` is applied. -/
def jailAndService : Script :=
  [(register "n1", clock 0 200), (.putJail "web" (.ok (jail "web")), clock 1 200),
    (service "web" 1 [], clock 2 200)]

/-- A request of `keelctl` at `secs`, nodes answering `status`. -/
def sent (secs status : ℕ) : Dispatch :=
  ⟨[], ⟨.error "", .error "", .error "", .error ""⟩, clock secs status, true, true⟩

end Sample

open Sample in
/-- While its node is alive the jail is what goes. -/
theorem delete_spares_jails_sample :
    ∀ s ∈ (runDelete none "web" (sent 3 200) (sent 3 200) (sent 3 200)
        (final spawn jailAndService)).2.1, ∀ n, s.DeletesService n →
      n ∉ (final (final spawn jailAndService) []).placements := by
  refine (delete_spares_jails_iff none "web" (sent 3 200) (sent 3 200) (sent 3 200) _).2 ?_
  rintro ⟨-, n, hn, -, -, -, hnot, -⟩
  have hweb : segments "web" = ["web"] := by decide +kernel
  rw [hweb] at hn
  cases hn
  rcases hnot with hdead | ⟨text, hanswer⟩
  · revert hdead
    decide +kernel
  · cases hanswer

open Sample in
/-- **A dead node's jail leads to the service.** -/
theorem delete_removes_the_service :
    "web" ∈ (final spawn jailAndService).placements ∧
      ((final spawn jailAndService).services.get "web").isSome = true ∧
      ((runDelete none "web" (sent 20 200) (sent 20 200) (sent 20 200)
        (final spawn jailAndService)).2.2.services.get "web").isSome = false := by
  decide +kernel

end ControlPlane

end Keel
