import Keel.Http.Calls
import Keel.Http.Requests
import Keel.Http.Responses
/-!
# Calls are carried out at most once, and as they were made

Whatever a wire makes of a call, in either direction and at any byte, the
call is delivered and answered, or carried out and not answered, or not
carried out (`Carried`). It is carried out for what the client asked and
for nothing else, and the client is told the server's own answer or an
error (`calls_carried`).
-/

namespace Keel

namespace Http

/-! ## A request, read -/

/-- The headers of a request. -/
def requestHeaders (body : Bytes) : List Header :=
  [⟨"Host", ascii "localhost"⟩, ⟨"Content-Length", ascii (toString body.bytes.length)⟩]

/-- The head that is written. -/
def asked (method path : String) (body : Bytes) : List UInt8 :=
  headOf (requestLines method path (requestHeaders body))

/-- A request is its head and the body. -/
theorem writeRequestTo_eq (method path : String) (body : Bytes) :
    writeRequestTo method path body = asked method path body ++ body.bytes := by
  have hspace : ascii " " = [32] := by decide +kernel
  have hone : ascii " HTTP/1.1\r\nHost: localhost\r\nContent-Length: " =
      32 :: ascii "HTTP/1.1" ++ [13, 10] ++ crlf (headerLine ⟨"Host", ascii "localhost"⟩) ++
        (ascii "Content-Length" ++ [58, 32]) := by decide +kernel
  have htwo : ascii "\r\n\r\n" = [13, 10, 13, 10] := by decide +kernel
  rw [writeRequestTo, requestHead]
  simp only [toUTF8_append, hspace, hone, htwo, asked, headOf, requestLines, requestHeaders,
    requestLine, headerLine, crlf, List.map_cons, List.map_nil, List.flatten_cons,
    List.flatten_nil, List.append_assoc, List.cons_append, List.nil_append]

theorem ascii_toString_ne_nil (n : ℕ) : ascii (toString n) ≠ [] := by
  intro hnil
  have hread := fromUtf8_ascii (toString n)
  have hempty : fromUtf8 [] = some "" := by decide +kernel
  rw [hnil, hempty] at hread
  have hdigits := congrArg String.toList (Option.some.inj hread)
  rw [toList_toString] at hdigits
  exact Nat.toDigits_ne_nil hdigits.symm

theorem wellFormed_request (body : Bytes) : WellFormed 200 [] (requestHeaders body) := by
  have hdigits : ∀ b ∈ ascii (toString body.bytes.length), 33 ≤ b.toNat ∧ b.toNat < 127 := by
    intro b hb
    have hbounds := mem_ascii_toString hb
    omega
  have hall : ∀ h ∈ requestHeaders body, h.name ≠ "" ∧
      (∀ c ∈ h.name.toList, c.isAlphanum = true ∨ c = '-') ∧ h.value ≠ [] ∧
      ∀ b ∈ h.value, 33 ≤ b.toNat ∧ b.toNat < 127 := by
    intro h hh
    simp only [requestHeaders, List.mem_cons, List.not_mem_nil, or_false] at hh
    rcases hh with rfl | rfl
    · exact ⟨by decide, List.all_iff_forall_prop.1 (by decide +kernel), by decide +kernel,
        List.all_iff_forall_prop.1 (by decide +kernel)⟩
    · have hname : ∀ c ∈ "Content-Length".toList, c.isAlphanum = true ∨ c = '-' :=
        List.all_iff_forall_prop.1 (by decide +kernel)
      exact ⟨(by decide : "Content-Length" ≠ ""), hname, ascii_toString_ne_nil _, hdigits⟩
  exact {
    code := by decide
    reason := fun b hb => absurd hb List.not_mem_nil
    count := (by decide : 2 ≤ 16)
    name_ne := fun h hh => (hall h hh).1
    name := fun h hh => (hall h hh).2.1
    value_ne := fun h hh => (hall h hh).2.2.1
    value := fun h hh => (hall h hh).2.2.2 }

/-- The length is found, and it is that of the body. -/
theorem contentLength?_requestHeaders (body : Bytes) :
    contentLength? (requestHeaders body) = some body.bytes.length := by
  have hfind : (requestHeaders body).find? (fun h => eqIgnoreAsciiCase h.name "content-length") =
      some ⟨"Content-Length", ascii (toString body.bytes.length)⟩ := by
    have hhost : eqIgnoreAsciiCase "Host" "content-length" = false := by decide +kernel
    have heq : eqIgnoreAsciiCase "Content-Length" "content-length" = true := by decide +kernel
    unfold requestHeaders
    rw [List.find?_cons, hhost, List.find?_cons, heq]
  unfold contentLength?
  rw [hfind]
  simp only [Option.bind_eq_bind, Option.bind_some, fromUtf8_ascii, trim_toString]
  exact parseUnsigned_toString (body.fits.trans (by decide))

theorem contentLength_asked (method path : String) (body : Bytes) :
    contentLength ⟨some method, some path, requestHeaders body⟩ = body.bytes.length := by
  rw [contentLength, contentLength?_requestHeaders, Option.getD_some]

section Read

variable {parse : List UInt8 → Parsed RequestHead} {method path : String} {body : Bytes}

theorem parse_asked (hparse : ReadsRequests parse) (h : IsTarget method path)
    (rest : List UInt8) : parse (asked method path body ++ rest) =
      .complete (asked method path body).length
        ⟨some method, some path, requestHeaders body⟩ :=
  hparse.complete method path _ h (wellFormed_request body) rest

/-- A part of a request is no head yet, or has the head of the whole. -/
theorem parse_of_prefix (hparse : ReadsRequests parse) (h : IsTarget method path)
    {bytes : List UInt8} (hbytes : bytes <+: writeRequestTo method path body) :
    parse bytes = .incomplete ∨ parse bytes = .complete (asked method path body).length
      ⟨some method, some path, requestHeaders body⟩ := by
  obtain ⟨rest, hrest⟩ := hbytes
  have hwhole : parse (asked method path body ++ body.bytes) = _ :=
    parse_asked hparse h body.bytes
  rw [← writeRequestTo_eq, ← hrest] at hwhole
  by_cases hlen : bytes.length < (asked method path body).length
  · exact Or.inl (hparse.incremental.incomplete_of_append hwhole hlen)
  · exact Or.inr (hparse.incremental.of_append hwhole (not_lt.1 hlen))

/-- No part of a request claims more than 64 bits count. -/
theorem not_overflows_of_prefix (hparse : ReadsRequests parse) (h : IsTarget method path)
    (build : Build) {bytes : List UInt8} (hbytes : bytes <+: writeRequestTo method path body) :
    ¬ Overflows 65536 build parse bytes := by
  rintro ⟨len, head, hhead, hlen, hover, -⟩
  rcases parse_of_prefix hparse h hbytes with hnone | hsome
  · cases hnone.symm.trans hhead
  · cases hsome.symm.trans hhead
    have hbody := body.fits
    rw [contentLength_asked] at hover
    omega

/-- **What is read of a part of a request**: the request, where the part is
all of it and no longer than a message may be. -/
theorem expected_of_prefix {ε : Type} (ending : Option ε) (hparse : ReadsRequests parse)
    (h : IsTarget method path) {bytes : List UInt8}
    (hbytes : bytes <+: writeRequestTo method path body) :
    if bytes = writeRequestTo method path body ∧ bytes.length ≤ 65536 then
      expected 65536 parse bytes ending = .ok (some ⟨method, path, body.bytes⟩)
    else ∀ request, expected 65536 parse bytes ending ≠ .ok (some request) := by
  have hlength : (writeRequestTo method path body).length =
      (asked method path body).length + body.bytes.length := by
    rw [writeRequestTo_eq, List.length_append]
  split
  · rename_i hwhole
    obtain ⟨rfl, hmax⟩ := hwhole
    rw [hlength] at hmax
    rw [expected, writeRequestTo_eq, parse_asked hparse h]
    simp only [contentLength_asked, List.length_append, lt_irrefl, if_false, if_neg (not_lt.2 hmax),
      Option.getD_some, List.drop_left, List.take_length]
  · rename_i hpart
    intro request hrequest
    obtain ⟨len, head, hhead, hmax, -, -⟩ := expected_eq_some hrequest
    rcases parse_of_prefix hparse h hbytes with hnone | hsome
    · cases hnone.symm.trans hhead
    · cases hsome.symm.trans hhead
      rw [contentLength_asked] at hmax
      rw [expected, hsome] at hrequest
      simp only [contentLength_asked, if_neg (not_lt.2 hmax)] at hrequest
      split at hrequest
      · cases ending <;> cases hrequest
      · rename_i hle
        have heq := hbytes.eq_of_length_le (hlength.trans_le (not_lt.1 hle))
        rw [heq, hlength] at hpart
        exact hpart ⟨rfl, hmax⟩

end Read

/-! ## A call, served -/

section Serve

variable {ε σ γ : Type} {server : Server} {build : Build} {parse : List UInt8 → Parsed RequestHead}
variable {route : ParsedRequest → σ → (ℕ × Bytes) × σ} {method path : String} {body : Bytes}

/-- The request gets through: all of it arrives, and it is no longer than a
message may be. -/
def Wire.Arrives (wire : Wire ε) (request : List UInt8) : Prop :=
  (wire.up request).bytes = request ∧ request.length ≤ 65536

/-- **A request is served once and as it was made, or not at all.** -/
theorem handleConnection_request (hparse : ReadsRequests parse) (h : IsTarget method path)
    (wire : Wire ε) (s : σ) :
    wire.Arrives (writeRequestTo method path body) ∧
        handleConnection server build parse route (wire.up (writeRequestTo method path body)) s =
          .ok (server.writeResponse (route ⟨method, path, body.bytes⟩ s).1.1
            (route ⟨method, path, body.bytes⟩ s).1.2, (route ⟨method, path, body.bytes⟩ s).2) ∨
      ¬ wire.Arrives (writeRequestTo method path body) ∧
        handleConnection server build parse route (wire.up (writeRequestTo method path body)) s =
          .ok ([], s) := by
  obtain ⟨stream, hstream⟩ : ∃ stream, stream = wire.up (writeRequestTo method path body) :=
    ⟨_, rfl⟩
  have hbytes : stream.bytes <+: writeRequestTo method path body := hstream ▸ wire.up_prefix _
  have hread : server.readRequest build parse stream =
      .ok (expected 65536 parse stream.bytes stream.ending) := by
    have hsum := not_overflows_of_prefix hparse h build hbytes
    rw [server.readRequest_eq, server.maxMessageBytes_eq]
    exact readRequestFrom_eq hparse.incremental (by decide) stream hsum
  have hexpected := expected_of_prefix stream.ending hparse h hbytes
  rw [Wire.Arrives, ← hstream]
  unfold handleConnection
  rw [hread]
  split at hexpected
  · rename_i hwhole
    refine Or.inl ⟨⟨hwhole.1, hwhole.1 ▸ hwhole.2⟩, ?_⟩
    rw [hexpected]
    rfl
  · rename_i hpart
    refine Or.inr ⟨fun hwhole => hpart ⟨hwhole.1, hwhole.1 ▸ hwhole.2⟩, ?_⟩
    cases hresult : expected 65536 parse stream.bytes stream.ending with
    | error e => rfl
    | ok request =>
      cases request with
      | none => rfl
      | some request => exact absurd hresult (hexpected request)

/-- What a client makes of a connection: an answer that is all there, it
takes for what it is, unless a read failed; a part of one, for none. -/
structure Takes (read : Stream ReadError → Except String γ)
    (view : ℕ → Bytes → Except String γ) : Prop where
  closed : ∀ (server : Server) status body, 100 ≤ status → status < 1000 →
    ∀ stream : Stream ReadError, stream.bytes = server.writeResponse status body →
      stream.ending = none → read stream = view status body
  whole : ∀ (server : Server) status body, 100 ≤ status → status < 1000 →
    ∀ stream : Stream ReadError, stream.bytes = server.writeResponse status body →
      read stream = view status body ∨ ∃ e, read stream = .error e
  part : ∀ (server : Server) status body, 100 ≤ status → status < 1000 →
    ∀ stream : Stream ReadError, stream.bytes <+: server.writeResponse status body →
      stream.bytes ≠ server.writeResponse status body → ∃ e, read stream = .error e

/-- **How a call ends**: delivered and answered, or carried out and not
answered, or not carried out. -/
inductive Carried (route : ParsedRequest → σ → (ℕ × Bytes) × σ) (view : ℕ → Bytes → Except String γ)
    (request : ParsedRequest) (s : σ) : Except String γ × σ → Prop
  | delivered : Carried route view request s
      (view (route request s).1.1 (route request s).1.2, (route request s).2)
  | unanswered (e : String) : Carried route view request s (.error e, (route request s).2)
  | lost (e : String) : Carried route view request s (.error e, s)

/-- A call over a wire ends in one of the three ways, and which one is the
wire's to say: it is carried out if the request gets through, and answered
if the answer does. -/
structure Conveys (server : Server) (build : Build) (parse : List UInt8 → Parsed RequestHead)
    (route : ParsedRequest → σ → (ℕ × Bytes) × σ) (read : Stream ReadError → Except String γ)
    (view : ℕ → Bytes → Except String γ) (request : ParsedRequest) (written : List UInt8)
    (wire : Wire ε) (s : σ) : Prop where
  carried : Carried route view request s (call server build parse route read wire written s)
  lost : ¬ wire.Arrives written → ∃ e, call server build parse route read wire written s =
    (.error e, s)
  done : wire.Arrives written →
    (call server build parse route read wire written s).2 = (route request s).2
  answered : wire.Arrives written → wire.broken = none →
    (∀ answer, (wire.down answer).bytes = answer ∧ (wire.down answer).ending = none) →
    call server build parse route read wire written s =
      (view (route request s).1.1 (route request s).1.2, (route request s).2)

/-- Nothing at all is a part of every answer. -/
theorem Takes.nothing {read : Stream ReadError → Except String γ}
    {view : ℕ → Bytes → Except String γ} (h : Takes read view) {stream : Stream ReadError}
    (hstream : stream.bytes <+: []) : ∃ e, read stream = .error e := by
  have hnil : stream.bytes = [] := List.prefix_nil.1 hstream
  refine h.part .agent 200 ⟨[], by decide⟩ (by decide) (by decide) stream ?_ ?_
  · rw [hnil]
    exact List.nil_prefix
  · rw [hnil]
    intro heq
    exact absurd (congrArg List.length heq) (by decide +kernel)

/-- A client is told the answer, or an error. -/
theorem Takes.told_cases {read : Stream ReadError → Except String γ}
    {view : ℕ → Bytes → Except String γ} (h : Takes read view) (wire : Wire ε) {status : ℕ}
    (hstatus : 100 ≤ status) (hstatus' : status < 1000) (body : Bytes) :
    told read wire (server.writeResponse status body) = view status body ∨
      ∃ e, told read wire (server.writeResponse status body) = .error e := by
  unfold told
  split
  · exact Or.inr ⟨_, rfl⟩
  · by_cases hwhole : (wire.down (server.writeResponse status body)).bytes =
        server.writeResponse status body
    · exact h.whole server status body hstatus hstatus' _ hwhole
    · exact Or.inr (h.part server status body hstatus hstatus' _ (wire.down_prefix _) hwhole)

theorem Takes.told_nothing {read : Stream ReadError → Except String γ}
    {view : ℕ → Bytes → Except String γ} (h : Takes read view) (wire : Wire ε) :
    ∃ e, told read wire [] = .error e := by
  unfold told
  split
  · exact ⟨_, rfl⟩
  · exact h.nothing (wire.down_prefix [])

/-- **A call over any wire**, by a client that takes answers for what they
are. -/
theorem Takes.conveys {read : Stream ReadError → Except String γ}
    {view : ℕ → Bytes → Except String γ} (htakes : Takes read view) (hparse : ReadsRequests parse)
    (h : IsTarget method path) (server : Server) (build : Build) (body : Bytes) (wire : Wire ε)
    {s : σ} (hroute : 100 ≤ (route ⟨method, path, body.bytes⟩ s).1.1 ∧
      (route ⟨method, path, body.bytes⟩ s).1.1 < 1000) :
    Conveys server build parse route read view ⟨method, path, body.bytes⟩
      (writeRequestTo method path body) wire s := by
  obtain ⟨hstatus, hstatus'⟩ := hroute
  rcases @handleConnection_request _ _ server build parse route _ _ body hparse h wire s with
    ⟨harrives, hserved⟩ | ⟨hpart, hserved⟩
  · have hcall : call server build parse route read wire (writeRequestTo method path body) s =
        (told read wire (server.writeResponse (route ⟨method, path, body.bytes⟩ s).1.1
          (route ⟨method, path, body.bytes⟩ s).1.2), (route ⟨method, path, body.bytes⟩ s).2) := by
      unfold call
      rw [hserved]
    refine ⟨?_, fun hpart => absurd harrives hpart, fun _ => by rw [hcall],
      fun _ hbroken hdown => ?_⟩
    · rw [hcall]
      rcases htakes.told_cases wire hstatus hstatus' (route ⟨method, path, body.bytes⟩ s).1.2 with
        htold | ⟨e, htold⟩
      · rw [htold]
        exact .delivered
      · rw [htold]
        exact .unanswered e
    · obtain ⟨hbytes, hending⟩ := hdown (server.writeResponse
        (route ⟨method, path, body.bytes⟩ s).1.1 (route ⟨method, path, body.bytes⟩ s).1.2)
      rw [hcall, told, hbroken]
      exact congrArg (·, _) (htakes.closed server _ _ hstatus hstatus' _ hbytes hending)
  · obtain ⟨e, he⟩ := htakes.told_nothing wire
    have hcall : call server build parse route read wire (writeRequestTo method path body) s =
        (.error e, s) := by
      unfold call
      rw [hserved]
      exact congrArg (·, s) he
    refine ⟨?_, fun _ => ⟨e, hcall⟩, fun harrives => absurd harrives hpart,
      fun harrives => absurd harrives hpart⟩
    rw [hcall]
    exact .lost e

end Serve

/-! ## The four clients -/

section Clients

variable {parse : List UInt8 → Parsed ResponseHead}

/-- What `forward` is told. -/
def ControlPlane.view (status : ℕ) (body : Bytes) : Except String (ℕ × List UInt8) :=
  .ok (status, body.bytes)

/-- What the agent's `send_request` is told. -/
def Agentd.view (status : ℕ) (body : Bytes) : Except String (List UInt8) :=
  if 200 ≤ status ∧ status < 300 then .ok body.bytes
  else .error ("control plane returned status " ++ toString status)

/-- What `keelctl` is told. -/
def Keelctl.view (status : ℕ) (body : Bytes) : Except String (ℕ × String) :=
  .ok (status, fromUtf8Lossy body.bytes)

theorem received_of_closed {failed : String → String} {stream : Stream ReadError}
    (h : stream.ending = none) : received failed stream = .ok stream.bytes := by
  unfold received
  rw [h]

theorem received_cases (failed : String → String) (stream : Stream ReadError) :
    received failed stream = .ok stream.bytes ∨ ∃ e, received failed stream = .error e := by
  unfold received
  split
  · exact Or.inr ⟨_, rfl⟩
  · exact Or.inl rfl

theorem takes_forwardFrom (hparse : ReadsResponses parse) :
    Takes (ControlPlane.forwardFrom parse) ControlPlane.view := by
  have hwhole : ∀ (server : Server) status body, 100 ≤ status → status < 1000 →
      ControlPlane.forward parse (server.writeResponse status body) =
        ControlPlane.view status body :=
    fun server status body h h' => takeApart_writeResponse hparse rfl h h'
  refine ⟨fun server status body h h' stream hbytes hending => ?_,
    fun server status body h h' stream hbytes => ?_,
    fun server status body h h' stream hpart hne =>
      (dropped_refused hparse server h h' body ⟨Or.inl hpart, hne⟩).1⟩
  · unfold ControlPlane.forwardFrom
    rw [received_of_closed hending, hbytes]
    exact hwhole server status body h h'
  · unfold ControlPlane.forwardFrom
    rcases received_cases id stream with hreceived | ⟨e, hreceived⟩
    · rw [hreceived, hbytes]
      exact Or.inl (hwhole server status body h h')
    · rw [hreceived]
      exact Or.inr ⟨e, rfl⟩

theorem takes_sendRequestFrom (hparse : ReadsResponses parse) :
    Takes (Agentd.sendRequestFrom parse) Agentd.view := by
  have hwhole : ∀ (server : Server) status body, 100 ≤ status → status < 1000 →
      Agentd.sendRequest parse (server.writeResponse status body) = Agentd.view status body :=
    fun server status body h h' => sendRequest_ok (takeApart_writeResponse hparse rfl h h')
  refine ⟨fun server status body h h' stream hbytes hending => ?_,
    fun server status body h h' stream hbytes => ?_,
    fun server status body h h' stream hpart hne =>
      (dropped_refused hparse server h h' body ⟨Or.inl hpart, hne⟩).2.1⟩
  · unfold Agentd.sendRequestFrom
    rw [received_of_closed hending, hbytes]
    exact hwhole server status body h h'
  · unfold Agentd.sendRequestFrom
    rcases received_cases (fun e => "failed to read response: " ++ e) stream with
      hreceived | ⟨e, hreceived⟩
    · rw [hreceived, hbytes]
      exact Or.inl (hwhole server status body h h')
    · rw [hreceived]
      exact Or.inr ⟨e, rfl⟩

theorem parseResponse_writeResponse (hparse : ReadsResponses parse) (server : Server)
    {status : ℕ} (h : 100 ≤ status) (h' : status < 1000) (body : Bytes) :
    Keelctl.parseResponse parse (server.writeResponse status body) =
      Keelctl.view status body := by
  have htaken : Keelctl.client.takeApart parse (server.writeResponse status body) =
      .ok (status, body.bytes) := takeApart_writeResponse hparse rfl h h'
  unfold Keelctl.parseResponse
  rw [htaken]
  rfl

theorem takes_sendRequestTcp (hparse : ReadsResponses parse) :
    Takes (Keelctl.sendRequestTcp parse) Keelctl.view := by
  refine ⟨fun server status body h h' stream hbytes hending => ?_,
    fun server status body h h' stream hbytes => ?_,
    fun server status body h h' stream hpart hne =>
      (dropped_refused hparse server h h' body ⟨Or.inl hpart, hne⟩).2.2⟩
  · unfold Keelctl.sendRequestTcp
    rw [received_of_closed hending, hbytes]
    exact parseResponse_writeResponse hparse server h h' body
  · unfold Keelctl.sendRequestTcp
    rcases received_cases (fun e => "failed to read response: " ++ e) stream with
      hreceived | ⟨e, hreceived⟩
    · rw [hreceived, hbytes]
      exact Or.inl (parseResponse_writeResponse hparse server h h' body)
    · rw [hreceived]
      exact Or.inr ⟨e, rfl⟩

theorem takes_sendRequest (hparse : ReadsResponses parse) :
    Takes (Keelctl.sendRequest parse) Keelctl.view := by
  refine ⟨fun server status body h h' stream hbytes hending => ?_,
    fun server status body h h' stream hbytes => ?_,
    fun server status body h h' stream hpart hne => ?_⟩
  · unfold Keelctl.sendRequest
    rw [hending, hbytes]
    exact parseResponse_writeResponse hparse server h h' body
  · unfold Keelctl.sendRequest
    split
    · rw [hbytes]
      exact Or.inl (parseResponse_writeResponse hparse server h h' body)
    · exact Or.inr ⟨_, rfl⟩
    · exact Or.inr ⟨_, rfl⟩
  · unfold Keelctl.sendRequest
    split
    · exact (refused_notWhole hparse h h' ⟨Or.inl hpart, hne⟩).parseResponse
    · exact ⟨_, rfl⟩
    · exact ⟨_, rfl⟩

end Clients

/-- **Calls are carried out at most once, as they were made, and answered
with the server's answer to them.** Whatever becomes of a connection in
either direction, at any byte and over reads of any size, for each of the
four clients and each of the three servers: a request that does not get
through whole, or is longer than 64 KiB, changes nothing and is an error to
the client; one that does is served once, for the method, the path and the
body it was made with; and a client that is not told an error is told what
the server answered to it. -/
theorem calls_carried {ε σ : Type} {parse : List UInt8 → Parsed RequestHead}
    {parse' : List UInt8 → Parsed ResponseHead} (hparse : ReadsRequests parse)
    (hparse' : ReadsResponses parse') (server : Server) (build : Build)
    {route : ParsedRequest → σ → (ℕ × Bytes) × σ} {method path : String}
    (h : IsTarget method path) (body : Bytes) (wire : Wire ε) {s : σ}
    (hroute : 100 ≤ (route ⟨method, path, body.bytes⟩ s).1.1 ∧
      (route ⟨method, path, body.bytes⟩ s).1.1 < 1000) :
    Conveys server build parse route (ControlPlane.forwardFrom parse') ControlPlane.view
        ⟨method, path, body.bytes⟩ (ControlPlane.forwardRequest method path body) wire s ∧
      Conveys server build parse route (Agentd.sendRequestFrom parse') Agentd.view
        ⟨method, path, body.bytes⟩ (Agentd.sendRequestRequest method path body) wire s ∧
      Conveys server build parse route (Keelctl.sendRequest parse') Keelctl.view
        ⟨method, path, body.bytes⟩ (Keelctl.sendRequestRequest method path body) wire s ∧
      Conveys server build parse route (Keelctl.sendRequestTcp parse') Keelctl.view
        ⟨method, path, body.bytes⟩ (Keelctl.sendRequestTcpRequest method path body) wire s :=
  ⟨(takes_forwardFrom hparse').conveys hparse h server build body wire hroute,
    (takes_sendRequestFrom hparse').conveys hparse h server build body wire hroute,
    (takes_sendRequest hparse').conveys hparse h server build body wire hroute,
    (takes_sendRequestTcp hparse').conveys hparse h server build body wire hroute⟩

/-- A wire that brings everything, a byte a read. -/
def Sample.wire : Wire Unit where
  broken := none
  up bytes := ⟨bytewise bytes, fun _ hc => reads_bytewise hc, none⟩
  up_prefix bytes := ⟨[], by rw [List.append_nil]; exact flatten_bytewise bytes⟩
  down bytes := ⟨bytewise bytes, fun _ hc => reads_bytewise hc, none⟩
  down_prefix bytes := ⟨[], by rw [List.append_nil]; exact flatten_bytewise bytes⟩

/-- A server that counts what it serves. -/
def Sample.route (_ : ParsedRequest) (served : ℕ) : (ℕ × Bytes) × ℕ :=
  ((200, Sample.body), served + 1)

theorem Sample.isTarget_jails : IsTarget "GET" "/jails" :=
  ⟨by decide, List.all_iff_forall_prop.1 (by decide +kernel), by decide,
    List.all_iff_forall_prop.1 (by decide +kernel)⟩

theorem calls_carried_sample :
    call .agentTls .debug findRequest Sample.route (ControlPlane.forwardFrom findResponse)
      Sample.wire (ControlPlane.forwardRequest "GET" "/jails" Sample.body) 0 =
        (.ok (200, Sample.body.bytes), 1) :=
  (calls_carried readsRequests_findRequest readsResponses_findResponse .agentTls .debug
    Sample.isTarget_jails Sample.body Sample.wire (by decide : 100 ≤ 200 ∧ 200 < 1000)).1.answered
    ⟨flatten_bytewise _, by decide +kernel⟩ rfl (fun answer => ⟨flatten_bytewise answer, rfl⟩)

end Http

end Keel
