import Mathlib.Data.Bool.AllAny
import Keel.Http.Heads
/-!
# Responses, whole or not at all

What a server writes is what each client takes it for: the status and the
body. And a part of it, or more than it, is taken for nothing: the head is
incomplete, or the body has not the length that the head gives. So a
client need not know why a connection ended, and it need not be told that
it did.
-/

namespace Keel

namespace Http

/-! ## What is written -/

theorem toNat_reason (server : Server) (status : ℕ) :
    ∀ b ∈ ascii (server.reasonPhrase status), 32 ≤ b.toNat ∧ b.toNat < 127 := by
  cases server with
  | controlPlane =>
    change ∀ b ∈ ascii (ControlPlane.reasonPhrase status), _
    unfold ControlPlane.reasonPhrase
    split <;> decide +kernel
  | agent =>
    change ∀ b ∈ ascii (Agentd.reasonPhrase status), _
    unfold Agentd.reasonPhrase
    split <;> decide +kernel
  | agentTls =>
    change ∀ b ∈ ascii (Agentd.reasonPhrase status), _
    unfold Agentd.reasonPhrase
    split <;> decide +kernel

theorem Server.writeResponse_def (server : Server) (status : ℕ) (body : Bytes) :
    server.writeResponse status body = writeResponseTo server.reasonPhrase status body := by
  cases server <;> rfl

/-- The headers of a response. -/
def responseHeaders (body : Bytes) : List Header :=
  [⟨"Content-Length", ascii (toString body.bytes.length)⟩,
    ⟨"Content-Type", ascii "application/yaml"⟩, ⟨"Connection", ascii "close"⟩]

/-- The head that is written. -/
def written (server : Server) (status : ℕ) (body : Bytes) : List UInt8 :=
  headOf (responseLines status (ascii (server.reasonPhrase status)) (responseHeaders body))

/-- A response is its head and the body. -/
theorem writeResponse_eq (server : Server) (status : ℕ) (body : Bytes) :
    server.writeResponse status body = written server status body ++ body.bytes := by
  have hone : ascii "HTTP/1.1 " = ascii "HTTP/1.1" ++ [32] := by decide +kernel
  have hspace : ascii " " = [32] := by decide +kernel
  have htwo : ascii "\r\nContent-Length: " = [13, 10] ++ (ascii "Content-Length" ++ [58, 32]) := by
    decide +kernel
  have hthree : ascii "\r\nContent-Type: application/yaml\r\nConnection: close\r\n\r\n" =
      [13, 10] ++ crlf (headerLine ⟨"Content-Type", ascii "application/yaml"⟩) ++
        crlf (headerLine ⟨"Connection", ascii "close"⟩) ++ [13, 10] := by decide +kernel
  rw [server.writeResponse_def, writeResponseTo, responseHead]
  simp only [toUTF8_append, hone, hspace, htwo, hthree, written, headOf, responseLines,
    responseHeaders, statusLine, headerLine, crlf, List.map_cons, List.map_nil, List.flatten_cons,
    List.flatten_nil, List.append_assoc, List.cons_append, List.nil_append]

theorem wellFormed_response (server : Server) {status : ℕ} (h : 100 ≤ status) (h' : status < 1000)
    (body : Bytes) :
    WellFormed status (ascii (server.reasonPhrase status)) (responseHeaders body) := by
  have hdigits : ∀ b ∈ ascii (toString body.bytes.length), 33 ≤ b.toNat ∧ b.toNat < 127 := by
    intro b hb
    have := mem_ascii_toString hb
    omega
  have hne : ascii (toString body.bytes.length) ≠ [] := by
    intro hnil
    have hread := fromUtf8_ascii (toString body.bytes.length)
    have hempty : fromUtf8 [] = some "" := by decide +kernel
    rw [hnil, hempty] at hread
    have hdigits := congrArg String.toList (Option.some.inj hread)
    rw [toList_toString] at hdigits
    exact Nat.toDigits_ne_nil hdigits.symm
  have hall : ∀ h ∈ responseHeaders body, h.name ≠ "" ∧
      (∀ c ∈ h.name.toList, c.isAlphanum = true ∨ c = '-') ∧ h.value ≠ [] ∧
      ∀ b ∈ h.value, 33 ≤ b.toNat ∧ b.toNat < 127 := by
    intro h hh
    simp only [responseHeaders, List.mem_cons, List.not_mem_nil, or_false] at hh
    rcases hh with rfl | rfl | rfl
    · have hname : ∀ c ∈ "Content-Length".toList, c.isAlphanum = true ∨ c = '-' :=
        List.all_iff_forall_prop.1 (by decide +kernel)
      exact ⟨(by decide : "Content-Length" ≠ ""), hname, hne, hdigits⟩
    · exact ⟨by decide, List.all_iff_forall_prop.1 (by decide +kernel), by decide +kernel,
        List.all_iff_forall_prop.1 (by decide +kernel)⟩
    · exact ⟨by decide, List.all_iff_forall_prop.1 (by decide +kernel), by decide +kernel,
        List.all_iff_forall_prop.1 (by decide +kernel)⟩
  exact {
    code := ⟨h, h'⟩
    reason := toNat_reason server status
    count := (by decide : 3 ≤ 16)
    name_ne := fun h hh => (hall h hh).1
    name := fun h hh => (hall h hh).2.1
    value_ne := fun h hh => (hall h hh).2.2.1
    value := fun h hh => (hall h hh).2.2.2 }

/-- A text without white space is its own trim. -/
theorem trim_eq {s : String} (h : ∀ c ∈ s.toList, isWhitespace c = false) : trim s = s := by
  unfold trim
  rw [dropWhile_reverse_of_none h, String.ofList_toList]

theorem trim_toString (n : ℕ) : trim (toString n) = toString n := by
  refine trim_eq fun c hc => ?_
  rw [toList_toString] at hc
  have hdigit := Char.isDigit_iff_toNat.1 (Nat.isDigit_of_mem_toDigits (by decide) (by decide) hc)
  have hbounds : 48 ≤ c.toNat ∧ c.toNat ≤ 57 := hdigit
  simp only [isWhitespace, Bool.or_eq_false_iff, Bool.and_eq_false_iff, decide_eq_false_iff_not,
    beq_eq_false_iff_ne]
  omega

/-- The length is found, and it is that of the body. -/
theorem contentLength?_responseHeaders (body : Bytes) :
    contentLength? (responseHeaders body) = some body.bytes.length := by
  have hfind : (responseHeaders body).find? (fun h => eqIgnoreAsciiCase h.name "content-length") =
      some ⟨"Content-Length", ascii (toString body.bytes.length)⟩ := by
    have heq : eqIgnoreAsciiCase "Content-Length" "content-length" = true := by decide +kernel
    unfold responseHeaders
    rw [List.find?_cons, heq]
  unfold contentLength?
  rw [hfind]
  simp only [Option.bind_eq_bind, Option.bind_some, fromUtf8_ascii, trim_toString]
  exact parseUnsigned_toString (body.fits.trans (by decide))

/-! ## What is taken apart -/

section TakeApart

variable {parse : List UInt8 → Parsed ResponseHead} {client : Client} {server : Server}
variable {status : ℕ} {body : Bytes}

/-- A head that was written is found, and a body of the length it gives is
taken. -/
theorem takeApart_written (hparse : ReadsResponses parse)
    (hclient : client.status (some status) = .ok status) (h : 100 ≤ status) (h' : status < 1000)
    (rest : List UInt8) : client.takeApart parse (written server status body ++ rest) =
      if rest.length = body.bytes.length then .ok (status, rest)
      else .error ("truncated response: expected " ++ toString body.bytes.length ++
        " bytes, got " ++ toString rest.length) := by
  have hhead := hparse.complete _ _ _ (wellFormed_response server h h' body) rest
  unfold Client.takeApart written
  rw [hhead]
  simp only [hclient, contentLength?_responseHeaders, bind, Except.bind, List.length_append,
    Nat.add_sub_cancel_left, List.drop_left]
  by_cases hlen : rest.length = body.bytes.length
  · rw [if_pos hlen, if_neg (not_not.2 hlen)]
    rfl
  · rw [if_neg hlen, if_pos hlen]
    rfl

/-- **A response is taken for what it is.** -/
theorem takeApart_writeResponse (hparse : ReadsResponses parse)
    (hclient : client.status (some status) = .ok status) (h : 100 ≤ status) (h' : status < 1000) :
    client.takeApart parse (server.writeResponse status body) = .ok (status, body.bytes) := by
  rw [writeResponse_eq, takeApart_written hparse hclient h h', if_pos rfl]

/-- A part of a response, or more than one, but not the response itself. -/
def NotWhole (response other : List UInt8) : Prop :=
  (other <+: response ∨ response <+: other) ∧ other ≠ response

/-- Its head is cut short, or the head is there and the body has another
length. -/
theorem NotWhole.cases {head body other : List UInt8} (h : NotWhole (head ++ body) other) :
    (∃ rest, other ++ rest = head ∧ rest ≠ []) ∨
      ∃ rest, other = head ++ rest ∧ rest.length ≠ body.length := by
  obtain ⟨hbegins | ⟨extra, rfl⟩, hne⟩ := h
  · rcases List.prefix_or_prefix_of_prefix hbegins (List.prefix_append head body) with
      ⟨rest, hrest⟩ | ⟨rest, rfl⟩
    · by_cases hnil : rest = []
      · subst hnil
        rw [List.append_nil] at hrest
        refine .inr ⟨[], by rw [hrest, List.append_nil], fun hlen => hne ?_⟩
        rw [List.eq_nil_of_length_eq_zero hlen.symm, List.append_nil, hrest]
      · exact .inl ⟨rest, hrest, hnil⟩
    · have hbody := (List.prefix_append_right_inj head).1 hbegins
      exact .inr ⟨rest, rfl, fun hlen => hne (by rw [hbody.eq_of_length hlen])⟩
  · refine .inr ⟨body ++ extra, List.append_assoc head body extra, fun hlen => hne ?_⟩
    rw [List.length_append] at hlen
    rw [List.eq_nil_of_length_eq_zero (by omega : extra.length = 0), List.append_nil]

/-- **What is not the whole response is taken for none.** -/
theorem takeApart_notWhole (hparse : ReadsResponses parse)
    (hclient : client.status (some status) = .ok status) (h : 100 ≤ status) (h' : status < 1000)
    {other : List UInt8} (hother : NotWhole (server.writeResponse status body) other) :
    ∃ e, client.takeApart parse other = .error e := by
  rw [writeResponse_eq] at hother
  rcases hother.cases with ⟨rest, hrest, hnil⟩ | ⟨rest, rfl, hlen⟩
  · have hwhole := hparse.complete _ _ _ (wellFormed_response server h h' body) []
    rw [List.append_nil] at hwhole
    change parse (written server status body) = .complete (written server status body).length _
      at hwhole
    have hcut : parse other = .incomplete := by
      have hpos := List.length_pos_of_ne_nil hnil
      rw [← hrest] at hwhole
      exact hparse.incremental.incomplete_of_append hwhole (by rw [List.length_append]; omega)
    refine ⟨client.incomplete, ?_⟩
    unfold Client.takeApart
    rw [hcut]
  · rw [takeApart_written hparse hclient h h', if_neg hlen]
    exact ⟨_, rfl⟩

end TakeApart

section Clients

variable {parse : List UInt8 → Parsed ResponseHead} {server : Server} {status : ℕ} {body : Bytes}
variable {response : List UInt8} {e : String}

theorem sendRequest_ok (h : Agentd.client.takeApart parse response = .ok (status, body.bytes)) :
    Agentd.sendRequest parse response = if 200 ≤ status ∧ status < 300 then .ok body.bytes
      else .error ("control plane returned status " ++ toString status) := by
  unfold Agentd.sendRequest
  rw [h]
  rfl

theorem sendRequest_error (h : Agentd.client.takeApart parse response = .error e) :
    Agentd.sendRequest parse response = .error e := by
  unfold Agentd.sendRequest
  rw [h]
  rfl

theorem parseResponse_ok {s : String}
    (h : Keelctl.client.takeApart parse response = .ok (status, s.toUTF8.data.toList)) :
    Keelctl.parseResponse parse response = .ok (status, s) := by
  have hlossy : Keelctl.fromUtf8Lossy s.toUTF8.data.toList = s := by
    unfold Keelctl.fromUtf8Lossy
    rw [fromUtf8_ascii]
  unfold Keelctl.parseResponse
  rw [h]
  exact congrArg (fun t => Except.ok (status, t)) hlossy

theorem parseResponse_error (h : Keelctl.client.takeApart parse response = .error e) :
    Keelctl.parseResponse parse response = .error e := by
  unfold Keelctl.parseResponse
  rw [h]
  rfl

/-- What is taken for no response. -/
structure Refused (parse : List UInt8 → Parsed ResponseHead) (response : List UInt8) : Prop where
  forward : ∃ e, ControlPlane.forward parse response = .error e
  sendRequest : ∃ e, Agentd.sendRequest parse response = .error e
  parseResponse : ∃ e, Keelctl.parseResponse parse response = .error e

theorem refused_notWhole (hparse : ReadsResponses parse) (h : 100 ≤ status) (h' : status < 1000)
    (hnot : NotWhole (server.writeResponse status body) response) : Refused parse response := by
  have hagent : Agentd.client.status (some status) = .ok status := rfl
  have hkeelctl : Keelctl.client.status (some status) = .ok status := rfl
  obtain ⟨e, he⟩ := takeApart_notWhole hparse hagent h h' hnot
  obtain ⟨e', he'⟩ := takeApart_notWhole hparse hkeelctl h h' hnot
  exact ⟨takeApart_notWhole hparse rfl h h' hnot, ⟨e, sendRequest_error he⟩,
    ⟨e', parseResponse_error he'⟩⟩

end Clients

/-- **Responses, whole or not at all.** What a server writes, each of the
three clients takes for the status and the body it was written for; the
agent's, for the body where the status is one of success. A part of it, or
more than it, none of them takes for a response. -/
theorem response_framing {parse : List UInt8 → Parsed ResponseHead} (hparse : ReadsResponses parse)
    (server : Server) {status : ℕ} (h : 100 ≤ status) (h' : status < 1000) (body : Bytes) :
    (ControlPlane.forward parse (server.writeResponse status body) = .ok (status, body.bytes) ∧
      Agentd.sendRequest parse (server.writeResponse status body) =
        (if 200 ≤ status ∧ status < 300 then .ok body.bytes
          else .error ("control plane returned status " ++ toString status)) ∧
      ∀ s, body.bytes = s.toUTF8.data.toList →
        Keelctl.parseResponse parse (server.writeResponse status body) = .ok (status, s)) ∧
      ∀ other, NotWhole (server.writeResponse status body) other →
        (∃ e, ControlPlane.forward parse other = .error e) ∧
          (∃ e, Agentd.sendRequest parse other = .error e) ∧
          ∃ e, Keelctl.parseResponse parse other = .error e := by
  refine ⟨⟨takeApart_writeResponse hparse rfl h h', ?_, fun s hs => ?_⟩, fun other hother => ?_⟩
  · exact sendRequest_ok (takeApart_writeResponse hparse rfl h h')
  · refine parseResponse_ok ?_
    rw [← hs]
    exact takeApart_writeResponse hparse rfl h h'
  · have hrefused := refused_notWhole hparse h h' hother
    exact ⟨hrefused.forward, hrefused.sendRequest, hrefused.parseResponse⟩

/-- A body that looks like a head. -/
def Sample.body : Bytes where
  bytes := ascii "HTTP/1.1 404 Not Found\r\nContent-Length: 7\r\n\r\n"
  fits := by decide +kernel

theorem response_framing_sample :
    ControlPlane.forward findResponse (Server.agentTls.writeResponse 200 Sample.body) =
        .ok (200, Sample.body.bytes) ∧
      ∃ e, Agentd.sendRequest findResponse
        ((Server.agentTls.writeResponse 200 Sample.body).take 100) = .error e := by
  have hframing := response_framing readsResponses_findResponse .agentTls (by decide : 100 ≤ 200)
    (by decide) Sample.body
  refine ⟨hframing.1.1, (hframing.2 _ ⟨.inl (List.take_prefix _ _), fun h => ?_⟩).2.1⟩
  have hlen := congrArg List.length h
  rw [List.length_take] at hlen
  exact absurd hlen (by decide +kernel)

/-! ## Connections that end -/

/-- **A connection that ends early** brings no response, however it ends
and wherever it was cut. -/
theorem dropped_refused {parse : List UInt8 → Parsed ResponseHead} (hparse : ReadsResponses parse)
    (server : Server) {status : ℕ} (h : 100 ≤ status) (h' : status < 1000) (body : Bytes)
    {stream : Stream ReadError} (hnot : NotWhole (server.writeResponse status body) stream.bytes) :
    (∃ e, ControlPlane.forwardFrom parse stream = .error e) ∧
      (∃ e, Agentd.sendRequestFrom parse stream = .error e) ∧
      ∃ e, Keelctl.sendRequestTcp parse stream = .error e := by
  have hrefused := refused_notWhole hparse h h' hnot
  have hreceived : ∀ failed, received failed stream = .ok stream.bytes ∨
      ∃ e, received failed stream = .error e := by
    intro failed
    unfold received
    split
    · exact .inr ⟨_, rfl⟩
    · exact .inl rfl
  refine ⟨?_, ?_, ?_⟩
  · unfold ControlPlane.forwardFrom
    rcases hreceived id with hr | ⟨e, hr⟩ <;> rw [hr]
    · exact hrefused.forward
    · exact ⟨e, rfl⟩
  · unfold Agentd.sendRequestFrom
    rcases hreceived (fun e => "failed to read response: " ++ e) with hr | ⟨e, hr⟩ <;> rw [hr]
    · exact hrefused.sendRequest
    · exact ⟨e, rfl⟩
  · unfold Keelctl.sendRequestTcp
    rcases hreceived (fun e => "failed to read response: " ++ e) with hr | ⟨e, hr⟩ <;> rw [hr]
    · exact hrefused.parseResponse
    · exact ⟨e, rfl⟩

end Http

end Keel
