import Keel.Http.Heads
/-!
# Calls

A client writes a request, a server reads it, routes it and writes an
answer, and the client takes the answer apart. What lies between them
(`Wire`) may break either way at any byte, and brings what it brings in
reads of any size. The four clients write the same; each goes by its own
reading of the answer.
-/

namespace Keel

namespace Http

/-! ## Requests, as they are written -/

def requestHead (method path : String) (body : Bytes) : String :=
  method ++ " " ++ path ++ " HTTP/1.1\r\nHost: localhost\r\nContent-Length: " ++
    toString body.bytes.length ++ "\r\n\r\n"

/-- The bytes of a request, where the connection takes them all. -/
def writeRequestTo (method path : String) (body : Bytes) : List UInt8 :=
  (requestHead method path body).toUTF8.data.toList ++ body.bytes

/-- What `forward` writes. -/
def ControlPlane.forwardRequest (method path : String) (body : Bytes) : List UInt8 :=
  writeRequestTo method path body

/-- What the agent's `send_request` writes. -/
def Agentd.sendRequestRequest (method path : String) (body : Bytes) : List UInt8 :=
  writeRequestTo method path body

/-- What `keelctl` writes to a socket of its own machine. -/
def Keelctl.sendRequestRequest (method path : String) (body : Bytes) : List UInt8 :=
  writeRequestTo method path body

/-- What `keelctl` writes to the control plane. -/
def Keelctl.sendRequestTcpRequest (method path : String) (body : Bytes) : List UInt8 :=
  writeRequestTo method path body

/-- `send_request` of `keelctl`: on this connection, a read that fails is
no end. -/
def Keelctl.sendRequest (parse : List UInt8 → Parsed ResponseHead) (stream : Stream ReadError) :
    Except String (ℕ × String) :=
  match stream.ending with
  | none => parseResponse parse stream.bytes
  | some .unexpectedEof => .error "failed to read response: unexpected end of file"
  | some (.other message) => .error ("failed to read response: " ++ message)

/-! ## Between client and server -/

/-- What a connection makes of what is written to it, in either direction,
and the error of the client's where it cannot connect, or write all of its
request. -/
structure Wire (ε : Type) where
  broken : Option String
  up : List UInt8 → Stream ε
  up_prefix : ∀ bytes, (up bytes).bytes <+: bytes
  down : List UInt8 → Stream ReadError
  down_prefix : ∀ bytes, (down bytes).bytes <+: bytes

section Serve

variable {ε σ γ : Type} (server : Server) (build : Build)
variable (parse : List UInt8 → Parsed RequestHead) (route : ParsedRequest → σ → (ℕ × Bytes) × σ)

/-- `handle_connection`: nothing is written where no request was read. -/
def handleConnection (stream : Stream ε) (s : σ) : Checked (List UInt8 × σ) := do
  match ← server.readRequest build parse stream with
  | .error _ => return ([], s)
  | .ok none => return ([], s)
  | .ok (some request) =>
    let ((status, body), s) := route request s
    return (server.writeResponse status body, s)

/-- What the client is told. -/
def told (read : Stream ReadError → Except String γ) (wire : Wire ε) (answer : List UInt8) :
    Except String γ :=
  match wire.broken with
  | some e => .error e
  | none => read (wire.down answer)

/-- A call: the request is written, served, and the answer read. A server
that panics takes the connection with it. -/
def call (read : Stream ReadError → Except String γ) (wire : Wire ε) (request : List UInt8)
    (s : σ) : Except String γ × σ :=
  match handleConnection server build parse route (wire.up request) s with
  | .error _ => (told read wire [], s)
  | .ok (answer, s) => (told read wire answer, s)

end Serve

/-! ## The head of a request -/

/-- A character of a path that needs no escape. -/
def isPathChar (c : Char) : Bool :=
  c.isAlphanum || ['-', '.', '_', '~', '!', '$', '&', '(', ')', '*', '+', ',', ';', '=', ':', '@',
    '%', '/'].contains c

def requestLine (method path : String) : List UInt8 :=
  ascii method ++ 32 :: (ascii path ++ 32 :: ascii "HTTP/1.1")

def requestLines (method path : String) (headers : List Header) : List (List UInt8) :=
  requestLine method path :: headers.map headerLine

/-- A method and a path that can stand in a head. -/
structure IsTarget (method path : String) : Prop where
  method_ne : method ≠ ""
  method : ∀ c ∈ method.toList, c.isUpper = true
  path_ne : path ≠ ""
  path : ∀ c ∈ path.toList, isPathChar c = true

/-- A parser that finds the heads of requests, as they were written. -/
structure ReadsRequests (parse : List UInt8 → Parsed RequestHead) : Prop where
  incremental : Incremental parse
  complete : ∀ method path headers, IsTarget method path → WellFormed 200 [] headers → ∀ rest,
    parse (headOf (requestLines method path headers) ++ rest) =
      .complete (headOf (requestLines method path headers)).length ⟨some method, some path, headers⟩

theorem isUpper_bounds {c : Char} (h : c.isUpper = true) : 33 ≤ c.toNat ∧ c.toNat < 127 := by
  have hletter : c.isAlphanum = true := by
    unfold Char.isAlphanum Char.isAlpha
    rw [h, Bool.true_or, Bool.true_or]
  have hbounds := token_bounds (Or.inl hletter)
  exact ⟨hbounds.1, hbounds.2.1⟩

theorem isPathChar_bounds {c : Char} (h : isPathChar c = true) :
    33 ≤ c.toNat ∧ c.toNat < 127 := by
  rcases Bool.or_eq_true_iff.1 h with h | h
  · have hbounds := token_bounds (Or.inl h)
    exact ⟨hbounds.1, hbounds.2.1⟩
  · rw [List.contains_iff_mem] at h
    have hall : ∀ c ∈ ['-', '.', '_', '~', '!', '$', '&', '(', ')', '*', '+', ',', ';', '=', ':',
        '@', '%', '/'], 33 ≤ c.toNat ∧ c.toNat < 127 := by
      simp only [List.forall_mem_cons, List.not_mem_nil, false_imp_iff, implies_true, and_true]
      decide
    exact hall c h

/-- The bytes of a text of such characters. -/
theorem toNat_of_mem_ascii {s : String} (h : ∀ c ∈ s.toList, 33 ≤ c.toNat ∧ c.toNat < 127)
    {b : UInt8} (hb : b ∈ ascii s) : 33 ≤ b.toNat ∧ b.toNat < 127 := by
  obtain ⟨c, hc, heq⟩ := mem_toUTF8_of_ascii (fun c hc => (h c hc).2.trans (by decide)) hb
  have hbounds := h c hc
  omega

theorem not_space_of_toNat {s : List UInt8} (h : ∀ b ∈ s, 33 ≤ b.toNat) : (32 : UInt8) ∉ s := by
  refine not_mem_of_toNat fun b hb heq => ?_
  have hge := h b hb
  rw [heq] at hge
  exact absurd hge (by decide)

section Written

variable {method path : String} {headers : List Header}

theorem IsTarget.toNat_method (h : IsTarget method path) {b : UInt8} (hb : b ∈ ascii method) :
    33 ≤ b.toNat :=
  (toNat_of_mem_ascii (fun c hc => isUpper_bounds (h.method c hc)) hb).1

theorem IsTarget.toNat_path (h : IsTarget method path) {b : UInt8} (hb : b ∈ ascii path) :
    33 ≤ b.toNat :=
  (toNat_of_mem_ascii (fun c hc => isPathChar_bounds (h.path c hc)) hb).1

/-- The head of a request is read as it is written. -/
theorem readRequestHead_requestLines (h : IsTarget method path)
    (hwf : WellFormed 200 [] headers) :
    readRequestHead (requestLines method path headers) =
      some ⟨some method, some path, headers⟩ := by
  have hmethod := not_space_of_toNat fun b hb => h.toNat_method hb
  have hpath := not_space_of_toNat fun b hb => h.toNat_path hb
  unfold readRequestHead requestLines requestLine
  simp only [splitOnce_append hmethod, splitOnce_append hpath, Option.bind_eq_bind,
    Option.bind_some, fromUtf8_ascii, readHeaders_headerLines hwf, if_true]

theorem isLine_requestLines (h : IsTarget method path) (hwf : WellFormed 200 [] headers) :
    ∀ line ∈ requestLines method path headers, IsLine line := by
  have hversion : ∀ b ∈ ascii "HTTP/1.1", 32 ≤ b.toNat := by decide +kernel
  intro line hline
  rcases List.mem_cons.1 hline with rfl | hline
  · refine isLine_of_toNat (by simp [requestLine]) fun b hb => ?_
    rcases List.mem_append.1 hb with hb | hb
    · exact (Nat.le_succ 32).trans (h.toNat_method hb)
    · rcases List.mem_cons.1 hb with rfl | hb
      · decide
      · rcases List.mem_append.1 hb with hb | hb
        · exact (Nat.le_succ 32).trans (h.toNat_path hb)
        · rcases List.mem_cons.1 hb with rfl | hb
          · decide
          · exact hversion b hb
  · obtain ⟨header, hheader, rfl⟩ := List.mem_map.1 hline
    exact isLine_of_toNat (by simp [headerLine]) fun b hb => toNat_of_mem_headerLine hwf hheader hb

/-- **A parser that finds heads as they were written.** -/
theorem readsRequests_findRequest : ReadsRequests findRequest where
  incremental := incremental_findRequest
  complete _ _ _ h hwf := blankLine_headOf (isLine_requestLines h hwf)
    (readRequestHead_requestLines h hwf)

end Written

end Http

end Keel
