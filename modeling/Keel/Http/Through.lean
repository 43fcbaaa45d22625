import Keel.ControlPlane.Model.Run
import Keel.Http.Exchange
/-!
# Calls through the control plane

An operator's call for a jail or a volume goes over two wires: to the
control plane, and from it to the agent the jail is on. The control
plane's own tables take part (`Relays`), and it may refuse. What the
operator is told, unless it is an error, is what an agent answered to that
very request; and the request is carried out by one agent at most, and
once (`through_controlPlane`).
-/

namespace Keel

namespace ControlPlane

/-- What an operator's request for a jail or a volume is to an agent. -/
def Request.relayed? : Request → Option (Method × NodePath)
  | .getNodeJails _ => some (.get, .jails)
  | .putNodeJail _ name _ | .putJail name _ => some (.put, .jail name)
  | .getNodeJail _ name | .getJail name => some (.get, .jail name)
  | .deleteNodeJail _ name | .deleteJail name => some (.delete, .jail name)
  | .getNodeVolume _ name => some (.get, .volume name)
  | .deleteNodeVolume _ name => some (.delete, .volume name)
  | _ => none

def Body.isYaml : Body → Bool
  | .empty => false
  | .yaml _ => true

theorem Body.isYaml_empty_iff {method : Method} (h : method ≠ .put) :
    Body.empty.isYaml = true ↔ method = .put :=
  ⟨fun h' => absurd h' Bool.false_ne_true, fun h' => absurd h' h⟩

/-! ## Handlers that relay -/

/-- A handler that answers, after commands alone. -/
def Settles (Q : Response → Prop) : Handler Response → Prop
  | .ret a => Q a
  | .command _ k => ∀ r, Settles Q (k r)
  | .forward _ _ => False

/-- An error of the control plane's own. -/
def Response.IsOwn (a : Response) : Prop := 400 ≤ a.status ∧ a.status < 1000

/-- The answer to a forward is the answer, or an error. -/
def Passes : ForwardResult → Response → Prop
  | .ok (status, text), a => a = ⟨status, .raw text⟩
  | .error _, a => a.IsOwn

/-- A handler that makes one forward at most, and answers what that is
answered, or an error. -/
def Relays (method : Method) (path : NodePath) : Handler Response → Prop
  | .ret a => a.IsOwn
  | .command _ k => ∀ r, Relays method path (k r)
  | .forward f k => f.method = method ∧ f.path = path ∧ (f.body.isYaml = true ↔ method = .put) ∧
    ∀ r, Settles (Passes r) (k r)

section Rules

variable {Q Q' : Response → Prop} {method : Method} {path : NodePath} {p : Handler Response}
variable {f : Response → Handler Response}

theorem Settles.bind (h : Settles Q p) (hf : ∀ a, Q a → Settles Q' (f a)) :
    Settles Q' (p.bind f) := by
  induction p with
  | ret a => exact hf a h
  | command c k ih => exact fun r => ih r (h r)
  | forward x k => exact h.elim

theorem Settles.imp (h : Settles Q p) (hQ : ∀ a, Q a → Q' a) : Settles Q' p := by
  induction p with
  | ret a => exact hQ a h
  | command c k ih => exact fun r => ih r (h r)
  | forward x k => exact h.elim

theorem Settles.relays (h : Settles Response.IsOwn p) : Relays method path p := by
  induction p with
  | ret a => exact h
  | command c k ih => exact fun r => ih r (h r)
  | forward x k => exact h.elim

/-- Commands after the answer do not change it. -/
theorem Relays.bind (h : Relays method path p) (hf : ∀ a, Settles (· = a) (f a)) :
    Relays method path (p.bind f) := by
  induction p with
  | ret a => exact ((hf a).imp fun b hb => hb ▸ h).relays
  | command c k ih => exact fun r => ih r (h r)
  | forward x k =>
    obtain ⟨hmethod, hpath, hbody, hk⟩ := h
    exact ⟨hmethod, hpath, hbody, fun r => (hk r).bind fun a ha =>
      (hf a).imp fun b hb => hb ▸ ha⟩

end Rules

theorem relays_handleForward (id : String) {method : Method} (path : NodePath) {body : Body}
    (hbody : body.isYaml = true ↔ method = .put) :
    Relays method path (handleForward id method path body) := by
  intro r
  cases r with
  | error e => exact (by decide : 400 ≤ 404 ∧ 404 < 1000)
  | ok addr =>
    refine ⟨rfl, rfl, hbody, fun answer => ?_⟩
    cases answer with
    | error e => exact (by decide : 400 ≤ 500 ∧ 500 < 1000)
    | ok answer => exact rfl

/-- What is recorded of a success does not change the answer. -/
theorem settles_record {b : Bool} {c : Command Unit} (a : Response) :
    Settles (· = a) (do
      if b then
        Prog.send c
      return a) := by
  cases b with
  | false => exact rfl
  | true => exact fun _ => rfl

theorem relays_handleScheduledApply (name : String) (body : Except String JailSpec) :
    Relays .put (.jail name) (handleScheduledApply name body) := by
  intro r
  rcases r with (e | e) | ⟨nodeId, addr⟩
  · exact (by decide : 400 ≤ 503 ∧ 503 < 1000)
  · exact (by decide : 400 ≤ 404 ∧ 404 < 1000)
  · refine ⟨rfl, rfl, ⟨fun _ => rfl, fun _ => rfl⟩, fun answer => ?_⟩
    cases answer with
    | error e => exact (by decide : 400 ≤ 500 ∧ 500 < 1000)
    | ok answer => exact settles_record ⟨answer.1, .raw answer.2⟩

theorem relays_handleScheduledRead (name : String) :
    Relays .get (.jail name) (handleScheduledRead name) := by
  intro r
  rcases r with e | ⟨nodeId, addr⟩
  · exact (by decide : 400 ≤ 404 ∧ 404 < 1000)
  · refine ⟨rfl, rfl, Body.isYaml_empty_iff (by decide), fun answer => ?_⟩
    cases answer with
    | error e => exact (by decide : 400 ≤ 500 ∧ 500 < 1000)
    | ok answer => exact rfl

theorem relays_handleScheduledDelete (name : String) :
    Relays .delete (.jail name) (handleScheduledDelete name) := by
  intro r
  rcases r with e | ⟨nodeId, addr⟩
  · exact (by decide : 400 ≤ 404 ∧ 404 < 1000)
  · refine ⟨rfl, rfl, Body.isYaml_empty_iff (by decide), fun answer => ?_⟩
    cases answer with
    | error e => exact (by decide : 400 ≤ 500 ∧ 500 < 1000)
    | ok answer => exact settles_record ⟨answer.1, .raw answer.2⟩

theorem relays_handlePutNodeJail (id name : String) (body : Except String JailSpec) :
    Relays .put (.jail name) (handlePutNodeJail id name body) := by
  have hforward : Relays .put (.jail name) (handleForward id .put (.jail name) (.yaml body)) :=
    relays_handleForward id _ ⟨fun _ => rfl, fun _ => rfl⟩
  intro owner
  rcases owner with _ | _ | owner
  · exact hforward.bind fun a => settles_record a
  · exact hforward.bind fun a => settles_record a
  · exact (by decide : 400 ≤ 400 ∧ 400 < 1000)

theorem relays_handlePutJail (name : String) (body : Except String JailSpec) :
    Relays .put (.jail name) (handlePutJail name body) := by
  intro owner
  rcases owner with _ | _ | owner
  · exact relays_handleScheduledApply name body
  · exact relays_handleScheduledApply name body
  · exact (by decide : 400 ≤ 400 ∧ 400 < 1000)

/-- **The operator's requests are relayed.** -/
theorem relays_handler {request : Request} {method : Method} {path : NodePath}
    (h : request.relayed? = some (method, path)) : Relays method path request.handler := by
  cases request with
  | getNodeJails id | getNodeJail id name | getNodeVolume id name | deleteNodeVolume id name =>
    cases h
    exact relays_handleForward id _ (Body.isYaml_empty_iff (by decide))
  | putNodeJail id name body =>
    cases h
    exact relays_handlePutNodeJail id name body
  | deleteNodeJail id name =>
    cases h
    have hforward : Relays .delete (.jail name) (handleForward id .delete (.jail name) .empty) :=
      relays_handleForward id _ (Body.isYaml_empty_iff (by decide))
    exact hforward.bind fun a => settles_record a
  | putJail name body =>
    cases h
    exact relays_handlePutJail name body
  | getJail name =>
    cases h
    exact relays_handleScheduledRead name
  | deleteJail name =>
    cases h
    exact relays_handleScheduledDelete name
  | _ => cases h

/-! ## Paths that are passed on -/

theorem mem_intercalate_of_mem {a c : Char} {ls : List (List Char)} {l : List Char} (hl : l ∈ ls)
    (hc : c ∈ l) : c ∈ [a].intercalate ls := by
  induction ls with
  | nil => cases hl
  | cons l' ls ih =>
    cases ls with
    | nil =>
      rw [List.intercalate_singleton, ← List.mem_singleton.1 hl]
      exact hc
    | cons l'' ls =>
      rw [List.intercalate_cons_cons, List.mem_append, List.mem_append]
      rcases List.mem_cons.1 hl with rfl | hl
      · exact Or.inl (Or.inl hc)
      · exact Or.inr (ih hl)

/-- The characters of a segment are the path's. -/
theorem forall_of_mem_segments {q : Char → Prop} {path name : String} (hname : name ∈ segments path)
    (h : ∀ c ∈ path.toList, q c) : ∀ c ∈ name.toList, q c := by
  obtain ⟨part, hpart, rfl⟩ := List.mem_map.1 hname
  rw [String.toList_ofList]
  intro c hc
  have hjoined : ['/'].intercalate (path.toList.splitOn '/') = path.toList :=
    List.intercalate_splitOn '/'
  refine h c ?_
  rw [← hjoined]
  exact mem_intercalate_of_mem (List.mem_of_mem_filter hpart) hc

/-- Where a path that is passed on has its name from. -/
theorem relayed_path {method path : String} {body : RequestBody} {m : Method} {p : NodePath}
    (h : (route method path body).relayed? = some (m, p)) : p = .jails ∨
      ∃ name ∈ segments path, p = .jail name ∨ p = .volume name := by
  unfold route at h
  split at h <;> cases h <;> rename_i hsegments <;> rw [hsegments]
  all_goals first
    | exact Or.inl rfl
    | exact Or.inr ⟨_, List.mem_of_getLast? rfl, Or.inl rfl⟩
    | exact Or.inr ⟨_, List.mem_of_getLast? rfl, Or.inr rfl⟩

end ControlPlane

open ControlPlane (Handler Forward ForwardResult Worker Choice RequestBody ResponseBody Body
  NodePath Relays Settles Passes)

namespace Http

/-! ## Two wires -/

/-- `method`, as it is written. -/
def methodName : ControlPlane.Method → String
  | .get => "GET"
  | .put => "PUT"
  | .delete => "DELETE"

/-- A body that is a text. -/
structure Page where
  text : String
  fits : text.utf8ByteSize < 2 ^ 63

def Page.bytes (page : Page) : Bytes where
  bytes := ascii page.text
  fits := (length_toUTF8 page.text).trans_lt page.fits

/-- What a vector holds of a list, which is all there is room for. -/
def Bytes.ofList (bytes : List UInt8) : Bytes where
  bytes := bytes.take (2 ^ 63 - 1)
  fits := (List.length_take_le _ _).trans_lt (Nat.sub_lt (Nat.two_pow_pos 63) Nat.one_pos)

theorem Bytes.ofList_bytes (body : Bytes) : Bytes.ofList body.bytes = body := by
  obtain ⟨bytes, hfits⟩ := body
  unfold ofList
  congr 1
  exact List.take_of_length_le (Nat.le_sub_one_of_lt hfits)

section Through

variable {ε σ : Type}

/-- The bytes of a forward's body, those of the request it is made for
being `bytes`. -/
def bodyOf (bytes : List UInt8) : Body → Bytes
  | .empty => Bytes.ofList []
  | .yaml _ => Bytes.ofList bytes

/-- The agents' side: what the one at an address answers a request, and
what that leaves of them all. -/
abbrev Agents (σ : Type) := String → ParsedRequest → σ → (ℕ × Page) × σ

/-- The agent at an address, as a server. -/
def Agents.at (agents : Agents σ) (addr : String) : ParsedRequest → σ → (ℕ × Bytes) × σ :=
  fun request s =>
    (((agents addr request s).1.1, (agents addr request s).1.2.bytes), (agents addr request s).2)

variable (build : Build) (parse : List UInt8 → Parsed RequestHead)
variable (parse' : List UInt8 → Parsed ResponseHead) (agents : Agents σ)
variable (wires : String → Wire ε)

/-- `forward`, over the wire to an address. -/
def forwardOver (bytes : List UInt8) (f : Forward) (s : σ) : ForwardResult × σ :=
  let (result, s) := call .agentTls build parse (agents.at f.addr)
    (ControlPlane.forwardFrom parse') (wires f.addr)
    (ControlPlane.forwardRequest (methodName f.method) f.path.display (bodyOf bytes f.body)) s
  (result.map fun answer => (answer.1, Keelctl.fromUtf8Lossy answer.2), s)

/-- A handler's commands go to the worker, its forwards over the wires. -/
def overWires (bytes : List UInt8) :
    Semantics ControlPlane.Command Forward ForwardResult Choice (Worker × σ) where
  command o c w :=
    let (reply, worker) := Worker.handleCommand o.now o.order c w.1
    (reply, worker, w.2)
  forward _ f w :=
    let (answer, s) := forwardOver build parse parse' agents wires bytes f w.2
    (answer, w.1, s)

variable (o : ℕ → Choice) (decode : List UInt8 → RequestBody) (render : ResponseBody → Bytes)

/-- The control plane, as a server: a request is routed, its handler run,
and the answer rendered. -/
def controlPlane (request : ParsedRequest) (w : Worker × σ) : (ℕ × Bytes) × Worker × σ :=
  let handler :=
    (ControlPlane.route request.method request.path (decode request.body)).handler
  let (response, w) := handler.run (overWires build parse parse' agents wires request.body) o 0 w
  ((response.status, render response.body), w)

/-! ## What becomes of a request -/

variable {build parse parse' agents wires o decode render}

theorem isTarget_relayed {method path : String} (h : IsTarget method path) {body : RequestBody}
    {m : ControlPlane.Method} {p : NodePath}
    (hrelayed : (ControlPlane.route method path body).relayed? = some (m, p)) :
    IsTarget (methodName m) p.display := by
  have hmethod : methodName m ≠ "" ∧ ∀ c ∈ (methodName m).toList, c.isUpper = true := by
    cases m <;> exact ⟨by decide, List.all_iff_forall_prop.1 (by decide +kernel)⟩
  have hjails : ∀ c ∈ "/jails/".toList, isPathChar c = true :=
    List.all_iff_forall_prop.1 (by decide +kernel)
  have hvolumes : ∀ c ∈ "/volumes/".toList, isPathChar c = true :=
    List.all_iff_forall_prop.1 (by decide +kernel)
  have hne : ∀ (a b : String), a ≠ "" → a ++ b ≠ "" := by
    intro a b ha hab
    exact ha (String.append_eq_empty_iff.1 hab).1
  have hall : ∀ (a b : String), (∀ c ∈ a.toList, isPathChar c = true) →
      (∀ c ∈ b.toList, isPathChar c = true) → ∀ c ∈ (a ++ b).toList, isPathChar c = true := by
    intro a b ha hb c hc
    rw [String.toList_append, List.mem_append] at hc
    exact hc.elim (ha c) (hb c)
  refine ⟨hmethod.1, hmethod.2, ?_, ?_⟩
  · rcases ControlPlane.relayed_path hrelayed with rfl | ⟨name, -, rfl | rfl⟩
    · decide
    · exact hne "/jails/" name (by decide)
    · exact hne "/volumes/" name (by decide)
  · rcases ControlPlane.relayed_path hrelayed with rfl | ⟨name, hname, rfl | rfl⟩
    · exact List.all_iff_forall_prop.1 (by decide +kernel)
    · exact hall "/jails/" name hjails (ControlPlane.forall_of_mem_segments hname h.path)
    · exact hall "/volumes/" name hvolumes (ControlPlane.forall_of_mem_segments hname h.path)

theorem fromUtf8Lossy_page (page : Page) : Keelctl.fromUtf8Lossy page.bytes.bytes = page.text := by
  unfold Keelctl.fromUtf8Lossy Page.bytes
  rw [fromUtf8_ascii]

/-- The request an agent is made, `m` for a path. -/
def relayedRequest (m : ControlPlane.Method) (p : NodePath) (body : Bytes) : ParsedRequest :=
  ⟨methodName m, p.display, if m = .put then body.bytes else []⟩

/-- **A forward** is lost, or carried out and not answered, or answered. -/
theorem forwardOver_cases (hparse : ReadsRequests parse) (hparse' : ReadsResponses parse')
    (hagents : ∀ addr request s, 100 ≤ (agents addr request s).1.1 ∧
      (agents addr request s).1.1 < 1000) (body : Bytes) {f : Forward}
    (htarget : IsTarget (methodName f.method) f.path.display)
    (hbody : f.body.isYaml = true ↔ f.method = .put) (s : σ) {request : ParsedRequest}
    (hrequest : request = relayedRequest f.method f.path body) :
    (∃ e, forwardOver build parse parse' agents wires body.bytes f s = (.error e, s)) ∨
      (∃ e, forwardOver build parse parse' agents wires body.bytes f s =
        (.error e, (agents f.addr request s).2)) ∨
      forwardOver build parse parse' agents wires body.bytes f s =
        (.ok ((agents f.addr request s).1.1, (agents f.addr request s).1.2.text),
          (agents f.addr request s).2) := by
  have hsame : (bodyOf body.bytes f.body).bytes = if f.method = .put then body.bytes else [] := by
    cases hf : f.body with
    | empty =>
      rw [hf] at hbody
      rw [if_neg fun hput => absurd (hbody.2 hput) Bool.false_ne_true]
      rfl
    | yaml read =>
      rw [hf] at hbody
      rw [if_pos (hbody.1 rfl), bodyOf, Bytes.ofList_bytes]
  have hroute : 100 ≤ (agents.at f.addr ⟨methodName f.method, f.path.display,
      (bodyOf body.bytes f.body).bytes⟩ s).1.1 ∧ (agents.at f.addr ⟨methodName f.method,
        f.path.display, (bodyOf body.bytes f.body).bytes⟩ s).1.1 < 1000 := hagents f.addr _ s
  have hconveys := ((takes_forwardFrom hparse').conveys hparse htarget .agentTls build
    (bodyOf body.bytes f.body) (wires f.addr) hroute).carried
  rw [hsame, ← relayedRequest, ← hrequest] at hconveys
  unfold forwardOver ControlPlane.forwardRequest
  generalize call .agentTls build parse (agents.at f.addr) (ControlPlane.forwardFrom parse')
    (wires f.addr) (writeRequestTo (methodName f.method) f.path.display
      (bodyOf body.bytes f.body)) s = result at hconveys
  cases hconveys with
  | delivered =>
    refine Or.inr (Or.inr ?_)
    simp only [ControlPlane.view, Except.map, Agents.at, fromUtf8Lossy_page]
  | unanswered e => exact Or.inr (Or.inl ⟨e, rfl⟩)
  | lost e => exact Or.inl ⟨e, rfl⟩

/-- What is made of a request, of the control plane's answer and the
agents: an error of its own, the request carried out once at most; or an
agent's answer to it. -/
def Outcome (agents : Agents σ) (request : ParsedRequest) (s : σ)
    (result : ControlPlane.Response × Worker × σ) : Prop :=
  (result.1.IsOwn ∧ (result.2.2 = s ∨ ∃ addr, result.2.2 = (agents addr request s).2)) ∨
    ∃ addr, result.1 = ⟨(agents addr request s).1.1, .raw (agents addr request s).1.2.text⟩ ∧
      result.2.2 = (agents addr request s).2

/-- Commands alone leave the agents as they are. -/
theorem settles_run {Q : ControlPlane.Response → Prop} {bytes : List UInt8}
    {p : Handler ControlPlane.Response} (h : Settles Q p) : ∀ (i : ℕ) (w : Worker × σ),
    Q (p.run (overWires build parse parse' agents wires bytes) o i w).1 ∧
      (p.run (overWires build parse parse' agents wires bytes) o i w).2.2 = w.2 := by
  induction p with
  | ret a => exact fun _ _ => ⟨h, rfl⟩
  | command c k ih => exact fun i w => ih _ (h _) (i + 1) _
  | forward f k => exact h.elim

/-- **A handler that relays**, run over wires. -/
theorem relays_run (hparse : ReadsRequests parse) (hparse' : ReadsResponses parse')
    (hagents : ∀ addr request s, 100 ≤ (agents addr request s).1.1 ∧
      (agents addr request s).1.1 < 1000) (body : Bytes) {m : ControlPlane.Method} {p : NodePath}
    (htarget : IsTarget (methodName m) p.display) {handler : Handler ControlPlane.Response}
    (h : Relays m p handler) : ∀ (i : ℕ) (w : Worker × σ),
    Outcome agents (relayedRequest m p body) w.2
      (handler.run (overWires build parse parse' agents wires body.bytes) o i w) := by
  induction handler with
  | ret a => exact fun _ _ => Or.inl ⟨h, Or.inl rfl⟩
  | command c k ih => exact fun i w => ih _ (h _) (i + 1) _
  | forward f k =>
    intro i w
    obtain ⟨rfl, rfl, hbody, hk⟩ := h
    show Outcome agents _ w.2 (Prog.run _ o (k (forwardOver build parse parse' agents wires
      body.bytes f w.2).1) (i + 1) (w.1, (forwardOver build parse parse' agents wires
        body.bytes f w.2).2))
    rcases @forwardOver_cases ε σ build parse parse' agents wires hparse hparse' hagents body f
        htarget hbody w.2 _ rfl with ⟨e, he⟩ | ⟨e, he⟩ | he
    · rw [he]
      exact Or.inl ⟨(settles_run (hk (.error e)) _ _).1,
        Or.inl (settles_run (hk (.error e)) _ _).2⟩
    · rw [he]
      exact Or.inl ⟨(settles_run (hk (.error e)) _ _).1,
        Or.inr ⟨f.addr, (settles_run (hk (.error e)) _ _).2⟩⟩
    · rw [he]
      exact Or.inr ⟨f.addr, (settles_run (hk (.ok (_, _))) _ _).1,
        (settles_run (hk (.ok (_, _))) _ _).2⟩

/-- **What an operator is told**, and what becomes of the agents. -/
structure Told (agents : Agents σ) (request : ParsedRequest) (s : σ)
    (result : Except String (ℕ × String) × Worker × σ) : Prop where
  /-- One agent carries the request out, at most, and once. -/
  once : result.2.2 = s ∨ ∃ addr, result.2.2 = (agents addr request s).2
  /-- What is no error is an agent's own answer, to the request carried
  out. -/
  told : ∀ status text, result.1 = .ok (status, text) → status < 400 → ∃ addr,
    result.2.2 = (agents addr request s).2 ∧ status = (agents addr request s).1.1 ∧
      text = (agents addr request s).1.2.text

end Through

/-- **Through the control plane.** A call of `keelctl` for a jail or a
volume, over any wire to the control plane and any wires from it to the
agents, whatever the control plane's tables hold. -/
theorem through_controlPlane {ε σ : Type} {parse : List UInt8 → Parsed RequestHead}
    {parse' : List UInt8 → Parsed ResponseHead} (hparse : ReadsRequests parse)
    (hparse' : ReadsResponses parse') (build : Build) {agents : Agents σ}
    (hagents : ∀ addr request s, 100 ≤ (agents addr request s).1.1 ∧
      (agents addr request s).1.1 < 1000)
    {render : ResponseBody → Bytes} (hrender : ∀ page : Page, render (.raw page.text) = page.bytes)
    {decode : List UInt8 → RequestBody} {method path : String} (htarget : IsTarget method path)
    (body : Bytes) {m : ControlPlane.Method} {p : NodePath}
    (hrelayed : (ControlPlane.route method path (decode body.bytes)).relayed? = some (m, p))
    (wire : Wire ε) (wires : String → Wire ε) (o : ℕ → Choice) (w : Worker) (s : σ) :
    Told agents (relayedRequest m p body) s
      (call .controlPlane build parse (controlPlane build parse parse' agents wires o decode render)
        (Keelctl.sendRequestTcp parse') wire (Keelctl.sendRequestTcpRequest method path body)
        (w, s)) := by
  obtain ⟨response, hresponse⟩ : ∃ response, response = controlPlane build parse parse' agents wires
      o decode render ⟨method, path, body.bytes⟩ (w, s) := ⟨_, rfl⟩
  have houtcome : (400 ≤ response.1.1 ∧ response.1.1 < 1000 ∧
      (response.2.2 = s ∨ ∃ addr, response.2.2 = (agents addr (relayedRequest m p body) s).2)) ∨
      ∃ addr, response.1 = ((agents addr (relayedRequest m p body) s).1.1,
        (agents addr (relayedRequest m p body) s).1.2.bytes) ∧
        response.2.2 = (agents addr (relayedRequest m p body) s).2 := by
    rw [hresponse]
    rcases @relays_run ε σ build parse parse' agents wires o hparse hparse' hagents body m p
        (isTarget_relayed htarget hrelayed) _ (ControlPlane.relays_handler hrelayed) 0 (w, s) with
      ⟨hown, hagent⟩ | ⟨addr, hanswer, hagent⟩
    · exact Or.inl ⟨hown.1, hown.2, hagent⟩
    · refine Or.inr ⟨addr, ?_, hagent⟩
      show (_, render _) = _
      rw [hanswer, hrender]
  have hstatus : 100 ≤ response.1.1 ∧ response.1.1 < 1000 := by
    rcases houtcome with ⟨hown, hown', -⟩ | ⟨addr, hanswer, -⟩
    · exact ⟨(by decide : 100 ≤ 400).trans hown, hown'⟩
    · rw [hanswer]
      exact hagents addr _ s
  have hagent : response.2.2 = s ∨
      ∃ addr, response.2.2 = (agents addr (relayedRequest m p body) s).2 := by
    rcases houtcome with ⟨-, -, hagent⟩ | ⟨addr, -, hagent⟩
    · exact hagent
    · exact Or.inr ⟨addr, hagent⟩
  rw [hresponse] at hstatus
  have hcarried := ((takes_sendRequestTcp hparse').conveys hparse htarget .controlPlane build body
    wire hstatus).carried
  unfold Keelctl.sendRequestTcpRequest
  generalize call .controlPlane build parse _ (Keelctl.sendRequestTcp parse') wire
    (writeRequestTo method path body) (w, s) = result at hcarried ⊢
  cases hcarried with
  | delivered =>
    rw [← hresponse]
    refine ⟨hagent, fun status text htold hlt => ?_⟩
    cases htold
    rcases houtcome with ⟨hown, -, -⟩ | ⟨addr, hanswer, hstate⟩
    · exact absurd hlt (not_lt.2 hown)
    · rw [hanswer]
      exact ⟨addr, hstate, rfl, fromUtf8Lossy_page _⟩
  | unanswered e =>
    rw [← hresponse]
    exact ⟨hagent, fun _ _ htold => by cases htold⟩
  | lost e => exact ⟨Or.inl rfl, fun _ _ htold => by cases htold⟩

namespace Sample

/-- Agents that have nothing to tell, and count what they serve. -/
def agents : Agents ℕ := fun _ _ served =>
  ((200, ⟨"[]\n", (by decide +kernel : "[]\n".utf8ByteSize < 2 ^ 63)⟩), served + 1)

/-- Answers that are texts. -/
def render : ResponseBody → Bytes
  | .raw text => if h : text.utf8ByteSize < 2 ^ 63 then Page.bytes ⟨text, h⟩ else Bytes.ofList []
  | _ => Bytes.ofList []

theorem render_raw (page : Page) : render (.raw page.text) = page.bytes := dif_pos page.fits

/-- No body is any spec. -/
def decode (_ : List UInt8) : RequestBody := ⟨.error "", .error "", .error "", .error ""⟩

theorem isTarget_node : IsTarget "GET" "/nodes/a/jails" :=
  ⟨by decide, List.all_iff_forall_prop.1 (by decide +kernel), by decide,
    List.all_iff_forall_prop.1 (by decide +kernel)⟩

/-- A control plane that one node has registered with. -/
def registered : Worker :=
  ControlPlane.final ControlPlane.Sample.spawn
    [(ControlPlane.Sample.register "a", ControlPlane.Sample.clock 0 200)]

/-- An operator lists the node's jails. -/
def listed : Except String (ℕ × String) × Worker × ℕ :=
  call .controlPlane .release findRequest
    (controlPlane .release findRequest findResponse agents (fun _ => wire)
      (ControlPlane.Sample.clock 0 200) decode render)
    (Keelctl.sendRequestTcp findResponse) wire
    (Keelctl.sendRequestTcpRequest "GET" "/nodes/a/jails" (Bytes.ofList [])) (registered, 0)

end Sample

/-- The node's agent serves the one request, and the operator reads its
answer. -/
theorem through_controlPlane_sample :
    Told Sample.agents (relayedRequest .get .jails (Bytes.ofList [])) 0 Sample.listed ∧
      Sample.listed.1 = .ok (200, "[]\n") ∧ Sample.listed.2.2 = 1 :=
  ⟨through_controlPlane readsRequests_findRequest readsResponses_findResponse .release
      (fun _ _ _ => (by decide : 100 ≤ 200 ∧ 200 < 1000)) Sample.render_raw Sample.isTarget_node _
      rfl _ _ _ _ _,
    by decide +kernel⟩

end Http

end Keel
