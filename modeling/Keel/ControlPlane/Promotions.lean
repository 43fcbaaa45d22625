import Keel.ControlPlane.Model.Http
/-!
# Promotions

`handle_force_repin` is the one handler that promotes a standby, and it
does so on a 2xx answer to its readiness `GET` of that very standby, and
on nothing else (`handler_follows`).
-/

namespace Keel

namespace ControlPlane

/-- Where a forward promotes a replica, and which, if it does. -/
def Forward.promotes? (f : Forward) : Option (String × String) :=
  match f.site, f.path with
  | .promote, .jail name => some (f.addr, name)
  | _, _ => none

/-- The same of what a handler does next. -/
def Handler.promotes? {α : Type} : Handler α → Option (String × String)
  | .forward f _ => f.promotes?
  | _ => none

/-- The replica a forward finds its node ready for, given its answer. -/
def Forward.readied? (f : Forward) : ForwardResult → Option (String × String)
  | .ok (status, _) =>
    match f.method, f.path with
    | .get, .replicaTarget name => if isSuccess status then some (f.addr, name) else none
    | _, _ => none
  | .error _ => none

/-- A promotion is made on the answer that its standby is ready. -/
def Forward.Follows (last : Option (Forward × ForwardResult)) (f : Forward) : Prop :=
  ∀ x ∈ f.promotes?, ∃ y ∈ last, y.1.readied? y.2 = some x

/-- **A handler promotes what it found ready.** -/
abbrev Handler.PromotesReady (last : Option (Forward × ForwardResult)) {α : Type}
    (p : Handler α) : Prop :=
  p.After Forward.Follows last

section Handlers

variable {last : Option (Forward × ForwardResult)}

theorem follows_of_site {f : Forward} (h : f.site ≠ .promote) : f.Follows last := by
  intro x hx
  rw [Forward.promotes?] at hx
  split at hx
  · rename_i hsite _
    exact absurd hsite h
  · cases hx

theorem executeReplicaActions_follows (as : List ReplicaAction) :
    Handler.PromotesReady last (executeReplicaActions as) := by
  refine Prog.after_forEach fun a _ last => ?_
  cases a with
  | schedule name nodeId nodeAddr template address prefixLen standbyNodeId standbyAddr =>
    refine ⟨follows_of_site nofun, fun answer => ?_⟩
    rcases answer with e | ⟨status, text⟩
    · exact Prog.after_ret
    simp only [Prog.ret_bind]
    split
    · refine fun _ _ => ?_
      cases standbyNodeId with
      | none => exact Prog.after_ret
      | some standbyId => exact fun _ => Prog.after_ret
    · exact Prog.after_ret
  | tearDown name nodeId nodeAddr =>
    refine ⟨follows_of_site nofun, fun answer => ?_⟩
    rcases answer with e | ⟨status, text⟩
    · exact Prog.after_ret
    simp only [Prog.ret_bind]
    split
    · exact fun _ _ => Prog.after_ret
    · exact Prog.after_ret

theorem reconcileAndExecute_follows : Handler.PromotesReady last reconcileAndExecute :=
  fun _ => executeReplicaActions_follows _

theorem checkAndExecuteFencing_follows (nodeId : String) :
    Handler.PromotesReady last (checkAndExecuteFencing nodeId) := by
  intro replicaNames
  simp only [Prog.ret_bind]
  split
  · exact Prog.after_ret
  intro addr
  rcases addr with e | addr
  · exact Prog.after_ret
  refine Prog.after_forEach fun r _ last => ⟨follows_of_site nofun, fun answer => ?_⟩
  rcases answer with e | ⟨status, text⟩
  · exact Prog.after_ret
  simp only [Prog.ret_bind]
  split
  · exact fun _ => Prog.after_ret
  · exact Prog.after_ret

theorem handleForward_follows (id : String) (method : Method) (path : NodePath) (body : Body) :
    Handler.PromotesReady last (handleForward id method path body) := by
  intro addr
  rcases addr with e | addr
  · exact Prog.after_ret
  refine ⟨follows_of_site nofun, fun answer => ?_⟩
  rcases answer with e | ⟨status, text⟩ <;> exact Prog.after_ret

theorem rejectIfServiceOwned_follows (name : String) :
    Handler.PromotesReady last (rejectIfServiceOwned name) := by
  intro owner
  rcases owner with _ | _ | _ <;> exact Prog.after_ret

/-- The readiness `GET` was answered 2xx. -/
theorem promote_follows {name : String} {prep : ForceRepinPrep}
    (h : ∃ y ∈ last, y.1.readied? y.2 = some (prep.standbyAddr, name)) :
    Handler.PromotesReady last (promote name prep) := by
  refine ⟨?_, fun answer => ?_⟩
  · rintro _ ⟨⟩
    exact h
  · rcases answer with e | ⟨status, text⟩
    · exact Prog.after_ret
    simp only [Prog.ret_bind]
    split
    · exact fun _ _ _ _ => Prog.after_ret
    · exact Prog.after_ret

theorem handleForceRepin_follows (name : String) :
    Handler.PromotesReady last (handleForceRepin name) := by
  intro reply
  rcases reply with e | prep
  · exact Prog.after_ret
  refine ⟨follows_of_site nofun, fun answer => ?_⟩
  rcases answer with e | ⟨status, text⟩
  · exact Prog.after_ret
  simp only [Prog.ret_bind]
  split
  · rename_i hsuccess
    exact promote_follows ⟨_, rfl, if_pos hsuccess⟩
  split <;> exact Prog.after_ret

/-- **Every handler promotes what it found ready.** -/
theorem handler_follows (request : Request) : Handler.PromotesReady last request.handler := by
  cases request with
  | register body =>
    rcases body with e | r
    · exact Prog.after_ret
    intro reply
    rcases reply with e | podCidr <;> exact Prog.after_ret
  | heartbeat id body =>
    rcases body with e | h
    · exact Prog.after_ret
    intro reply
    rcases reply with e | ⟨⟩
    · exact Prog.after_ret
    simp only [Prog.ret_bind]
    refine Prog.after_bind reconcileAndExecute_follows fun _ last => ?_
    refine Prog.after_bind (checkAndExecuteFencing_follows id) fun _ last => ?_
    exact fun _ => Prog.after_ret
  | listNodes => exact fun _ => Prog.after_ret
  | putNodeJail id name body =>
    refine Prog.after_bind (rejectIfServiceOwned_follows name) fun response last => ?_
    rcases response with _ | response
    · refine Prog.after_bind (handleForward_follows _ _ _ _) fun response last => ?_
      simp only
      split
      · exact fun _ => Prog.after_ret
      · exact Prog.after_ret
    · exact Prog.after_ret
  | deleteNodeJail id name =>
    refine Prog.after_bind (handleForward_follows _ _ _ _) fun response last => ?_
    simp only
    split
    · exact fun _ => Prog.after_ret
    · exact Prog.after_ret
  | getNodeJails id => exact handleForward_follows _ _ _ _
  | getNodeJail id name => exact handleForward_follows _ _ _ _
  | getNodeVolume id name => exact handleForward_follows _ _ _ _
  | deleteNodeVolume id name => exact handleForward_follows _ _ _ _
  | putJail name body =>
    refine Prog.after_bind (rejectIfServiceOwned_follows name) fun response last => ?_
    rcases response with _ | response
    · intro reply
      rcases reply with (e | e) | ⟨nodeId, addr⟩
      · exact Prog.after_ret
      · exact Prog.after_ret
      · refine ⟨follows_of_site nofun, fun answer => ?_⟩
        rcases answer with e | ⟨status, text⟩
        · exact Prog.after_ret
        · simp only [Prog.ret_bind]
          split
          · exact fun _ => Prog.after_ret
          · exact Prog.after_ret
    · exact Prog.after_ret
  | getJail name =>
    intro reply
    rcases reply with e | ⟨nodeId, addr⟩
    · exact Prog.after_ret
    refine ⟨follows_of_site nofun, fun answer => ?_⟩
    rcases answer with e | ⟨status, text⟩ <;> exact Prog.after_ret
  | deleteJail name =>
    intro reply
    rcases reply with e | ⟨nodeId, addr⟩
    · exact Prog.after_ret
    refine ⟨follows_of_site nofun, fun answer => ?_⟩
    rcases answer with e | ⟨status, text⟩
    · exact Prog.after_ret
    simp only [Prog.ret_bind]
    split
    · exact fun _ => Prog.after_ret
    · exact Prog.after_ret
  | putService name body =>
    simp only [Request.handler, handleApplyService]
    split
    · exact Prog.after_ret
    split
    · exact Prog.after_ret
    intro reply
    rcases reply with e | ⟨⟩
    · exact Prog.after_ret
    simp only [Prog.ret_bind]
    exact Prog.after_bind reconcileAndExecute_follows fun _ _ => Prog.after_ret
  | getService name =>
    intro reply
    rcases reply with e | replicas <;> exact Prog.after_ret
  | deleteService name =>
    intro reply
    rcases reply with e | actions
    · exact Prog.after_ret
    simp only [Prog.ret_bind]
    exact Prog.after_bind (executeReplicaActions_follows actions) fun _ _ => Prog.after_ret
  | listServices => exact fun _ => Prog.after_ret
  | forceRepin name => exact handleForceRepin_follows name
  | noRoute method path => exact Prog.after_ret

end Handlers

end ControlPlane

end Keel
