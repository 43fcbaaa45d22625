import Keel.Common.Checked
import Keel.Common.Heads
import Keel.Spec.Validate
/-!
# Messages on the wire

How the control plane and the agent read a request and write a response,
and how their three clients take a response apart. A message arrives in
reads of any size (`Stream`); what is in its head is `httparse`'s to say,
a parser the functions are given.
-/

namespace Keel

namespace Http

/-- `httparse::Header`. -/
structure Header where
  name : String
  value : List UInt8
deriving DecidableEq

def eqIgnoreAsciiCase (s t : String) : Bool := s.toList.map asciiLower == t.toList.map asciiLower

/-- `str::trim`. -/
def trim (s : String) : String :=
  String.ofList ((s.toList.dropWhile isWhitespace).reverse.dropWhile isWhitespace).reverse

/-- `str::from_utf8`. -/
def fromUtf8 (s : List UInt8) : Option String := String.fromUTF8? ⟨s.toArray⟩

/-- The length the first `Content-Length` gives, if there is one and it is
a number of 64 bits. -/
def contentLength? (headers : List Header) : Option ℕ := do
  let h ← headers.find? fun h => eqIgnoreAsciiCase h.name "content-length"
  let v ← fromUtf8 h.value
  parseUnsigned 64 (trim v)

/-! ## Streams -/

variable {ε : Type}

/-- What is left of a connection: what each read brings, up to the size of
the buffer that is read into, and how it ends: it is closed, or a read
fails. -/
structure Stream (ε : Type) where
  chunks : List (List UInt8)
  reads : ∀ chunk ∈ chunks, chunk ≠ [] ∧ chunk.length ≤ 4096
  ending : Option ε

/-- All the bytes that arrive. -/
def Stream.bytes (stream : Stream ε) : List UInt8 := stream.chunks.flatten

/-- Where a stream ends, a function that reads on returns: nothing, or the
error. -/
def atEnd {α : Type} : Option ε → Except ε (Option α)
  | none => .ok none
  | some e => .error e

/-! ## Requests -/

/-- What is left of `httparse::Request` after the parse. -/
structure RequestHead where
  method : Option String
  path : Option String
  headers : List Header
deriving DecidableEq

structure ParsedRequest where
  method : String
  path : String
  body : List UInt8
deriving DecidableEq

def contentLength (head : RequestHead) : ℕ := (contentLength? head.headers).getD 0

/-- The profiles: arithmetic past 64 bits stops a debug build, and wraps in
a release one. -/
inductive Build
  | debug
  | release
deriving DecidableEq

def Build.add : Build → ℕ → ℕ → Checked ℕ
  | .debug, a, b => Checked.add 64 a b
  | .release, a, b => .ok ((a + b) % 2 ^ 64)

/-- `buf[start..stop]`. -/
def slice (buf : List UInt8) (start stop : ℕ) : Checked (List UInt8) :=
  if stop < start then
    .error (.assertion ("slice index starts at " ++ toString start ++ " but ends at " ++
      toString stop))
  else if buf.length < stop then
    .error (.assertion ("range end index " ++ toString stop ++
      " out of range for slice of length " ++ toString buf.length))
  else .ok ((buf.take stop).drop start)

section Read

variable (maxMessageBytes : ℕ) (build : Build) (parse : List UInt8 → Parsed RequestHead)
variable (ending : Option ε)

/-- The loop up to the end of the head: its length and what is in it, and
what has been read by then and what is left to read. -/
def readHead (buf : List UInt8) (chunks : List (List UInt8)) :
    Except ε (Option ((ℕ × RequestHead) × List UInt8 × List (List UInt8))) :=
  match parse buf with
  | .complete headerLen head => .ok (some ((headerLen, head), buf, chunks))
  | .malformed _ => .ok none
  | .incomplete =>
    if maxMessageBytes ≤ buf.length then .ok none
    else match chunks with
      | [] => atEnd ending
      | chunk :: chunks => readHead (buf ++ chunk) chunks

/-- The loop up to the end of the body: what has been read by then. -/
def readBody (totalLen : ℕ) (buf : List UInt8) (chunks : List (List UInt8)) :
    Except ε (Option (List UInt8)) :=
  if totalLen ≤ buf.length then .ok (some buf)
  else match chunks with
    | [] => atEnd ending
    | chunk :: chunks => readBody totalLen (buf ++ chunk) chunks

/-- Once the head is there: the rest of the request. -/
def readRest (headerLen : ℕ) (head : RequestHead) (buf : List UInt8) (chunks : List (List UInt8)) :
    Checked (Except ε (Option ParsedRequest)) := do
  let totalLen ← build.add headerLen (contentLength head)
  if maxMessageBytes < totalLen then return .ok none
  match readBody ending totalLen buf chunks with
  | .error e => return .error e
  | .ok none => return .ok none
  | .ok (some buf) =>
    let body ← slice buf headerLen totalLen
    return .ok (some ⟨head.method.getD "", head.path.getD "", body⟩)

def readRequestFrom (stream : Stream ε) : Checked (Except ε (Option ParsedRequest)) :=
  match readHead maxMessageBytes parse stream.ending [] stream.chunks with
  | .error e => .ok (.error e)
  | .ok none => .ok (.ok none)
  | .ok (some ((headerLen, head), buf, chunks)) =>
    readRest maxMessageBytes build stream.ending headerLen head buf chunks

end Read

namespace ControlPlane

def maxMessageBytes : ℕ := 64 * 1024

def readRequest (build : Build) (parse : List UInt8 → Parsed RequestHead) (stream : Stream ε) :
    Checked (Except ε (Option ParsedRequest)) :=
  readRequestFrom maxMessageBytes build parse stream

end ControlPlane

namespace Agentd

def maxMessageBytes : ℕ := 64 * 1024

/-- From the socket of the machine itself. -/
def readRequest (build : Build) (parse : List UInt8 → Parsed RequestHead) (stream : Stream ε) :
    Checked (Except ε (Option ParsedRequest)) :=
  readRequestFrom maxMessageBytes build parse stream

/-- From the network. -/
def readRequestTls (build : Build) (parse : List UInt8 → Parsed RequestHead) (stream : Stream ε) :
    Checked (Except ε (Option ParsedRequest)) :=
  readRequestFrom maxMessageBytes build parse stream

end Agentd

/-- Where a request is read. -/
inductive Server
  | controlPlane
  | agent
  | agentTls
deriving DecidableEq

namespace Server

def maxMessageBytes : Server → ℕ
  | controlPlane => ControlPlane.maxMessageBytes
  | agent | agentTls => Agentd.maxMessageBytes

def readRequest : Server → Build → (List UInt8 → Parsed RequestHead) → Stream ε →
    Checked (Except ε (Option ParsedRequest))
  | controlPlane => ControlPlane.readRequest
  | agent => Agentd.readRequest
  | agentTls => Agentd.readRequestTls

end Server

/-! ## Responses -/

/-- A `Vec<u8>`, which is never longer than a signed integer of 64 bits
counts. -/
structure Bytes where
  bytes : List UInt8
  fits : bytes.length < 2 ^ 63

/-- The head of a response, by the words for its status. -/
def responseHead (reasonPhrase : ℕ → String) (status : ℕ) (body : Bytes) : String :=
  "HTTP/1.1 " ++ toString status ++ " " ++ reasonPhrase status ++ "\r\nContent-Length: " ++
    toString body.bytes.length ++
    "\r\nContent-Type: application/yaml\r\nConnection: close\r\n\r\n"

/-- The bytes written, where the stream takes them all. -/
def writeResponseTo (reasonPhrase : ℕ → String) (status : ℕ) (body : Bytes) : List UInt8 :=
  (responseHead reasonPhrase status body).toUTF8.data.toList ++ body.bytes

namespace ControlPlane

def reasonPhrase : ℕ → String
  | 200 => "OK"
  | 400 => "Bad Request"
  | 401 => "Unauthorized"
  | 404 => "Not Found"
  | 409 => "Conflict"
  | 500 => "Internal Server Error"
  | 503 => "Service Unavailable"
  | _ => "Unknown"

def writeResponse (status : ℕ) (body : Bytes) : List UInt8 :=
  writeResponseTo reasonPhrase status body

end ControlPlane

namespace Agentd

def reasonPhrase : ℕ → String
  | 200 => "OK"
  | 400 => "Bad Request"
  | 401 => "Unauthorized"
  | 404 => "Not Found"
  | 409 => "Conflict"
  | 500 => "Internal Server Error"
  | _ => "Unknown"

def writeResponse (status : ℕ) (body : Bytes) : List UInt8 :=
  writeResponseTo reasonPhrase status body

def writeResponseTls (status : ℕ) (body : Bytes) : List UInt8 :=
  writeResponseTo reasonPhrase status body

end Agentd

namespace Server

def reasonPhrase : Server → ℕ → String
  | controlPlane => ControlPlane.reasonPhrase
  | agent | agentTls => Agentd.reasonPhrase

def writeResponse : Server → ℕ → Bytes → List UInt8
  | controlPlane => ControlPlane.writeResponse
  | agent => Agentd.writeResponse
  | agentTls => Agentd.writeResponseTls

end Server

/-! ## Clients -/

/-- What is left of `httparse::Response` after the parse. -/
structure ResponseHead where
  code : Option ℕ
  headers : List Header
deriving DecidableEq

/-- What a client has of its own: what it says where there is no head, and
what it takes for the status. -/
structure Client where
  malformed : String → String
  incomplete : String
  status : Option ℕ → Except String ℕ

/-- The status and the body of what was received: the body has the length
the head gives. -/
def Client.takeApart (client : Client) (parse : List UInt8 → Parsed ResponseHead)
    (response : List UInt8) : Except String (ℕ × List UInt8) :=
  match parse response with
  | .malformed e => .error (client.malformed e)
  | .incomplete => .error client.incomplete
  | .complete headerLen head => do
    let status ← client.status head.code
    match contentLength? head.headers with
    | none => throw "response missing Content-Length header"
    | some contentLength =>
      let actual := response.length - headerLen
      if actual ≠ contentLength then
        throw ("truncated response: expected " ++ toString contentLength ++ " bytes, got " ++
          toString actual)
      else return (status, response.drop headerLen)

/-- A connection of a client is at its end where it is closed, also without
a `close_notify` (`unexpectedEof`). -/
inductive ReadError
  | unexpectedEof
  | other (message : String)
deriving DecidableEq

/-- All that is received, up to where the connection ends. -/
def received (failed : String → String) (stream : Stream ReadError) : Except String (List UInt8) :=
  match stream.ending with
  | some (.other message) => .error (failed message)
  | _ => .ok stream.bytes

variable (parse : List UInt8 → Parsed ResponseHead)

namespace ControlPlane

def client : Client where
  malformed := id
  incomplete := "incomplete response"
  status
    | some status => .ok status
    | none => .error "missing status code"

/-- What `forward` takes apart. -/
def forward (response : List UInt8) : Except String (ℕ × List UInt8) :=
  client.takeApart parse response

def forwardFrom (stream : Stream ReadError) : Except String (ℕ × List UInt8) := do
  forward parse (← received id stream)

end ControlPlane

namespace Agentd

def client : Client where
  malformed e := "malformed response: " ++ e
  incomplete := "incomplete response from control plane"
  status code := .ok (code.getD 0)

/-- What the agent's `send_request` takes apart, less the status. -/
def sendRequest (response : List UInt8) : Except String (List UInt8) := do
  let (status, body) ← client.takeApart parse response
  if 200 ≤ status ∧ status < 300 then return body
  else throw ("control plane returned status " ++ toString status)

def sendRequestFrom (stream : Stream ReadError) : Except String (List UInt8) := do
  sendRequest parse (← received (fun e => "failed to read response: " ++ e) stream)

end Agentd

namespace Keelctl

def isContinuation (b : UInt8) : Bool := 0x80 ≤ b && b ≤ 0xBF

/-- Which bytes may follow the first one of three, and of four. -/
def isSecond (b second : UInt8) : Bool :=
  if b = 0xE0 then 0xA0 ≤ second && second ≤ 0xBF
  else if b = 0xED then 0x80 ≤ second && second ≤ 0x9F
  else if b = 0xF0 then 0x90 ≤ second && second ≤ 0xBF
  else if b = 0xF4 then 0x80 ≤ second && second ≤ 0x8F
  else isContinuation second

/-- The length of the character in front, or of the part of one that is
replaced as a whole, and whether it is a character. -/
def utf8Front (b : UInt8) (rest : List UInt8) : ℕ × Bool :=
  if b < 0x80 then (1, true)
  else if 0xC2 ≤ b && b ≤ 0xDF then if isContinuation (rest.getD 0 0) then (2, true) else (1, false)
  else if 0xE0 ≤ b && b ≤ 0xEF then
    if !isSecond b (rest.getD 0 0) then (1, false)
    else if !isContinuation (rest.getD 1 0) then (2, false)
    else (3, true)
  else if 0xF0 ≤ b && b ≤ 0xF4 then
    if !isSecond b (rest.getD 0 0) then (1, false)
    else if !isContinuation (rest.getD 1 0) then (2, false)
    else if !isContinuation (rest.getD 2 0) then (3, false)
    else (4, true)
  else (1, false)

/-- Up to some number of characters, with what is none replaced. -/
def lossy : ℕ → List UInt8 → String
  | 0, _ => ""
  | _, [] => ""
  | n + 1, b :: rest =>
    let front := utf8Front b rest
    (if front.2 then (fromUtf8 ((b :: rest).take front.1)).getD "" else "\uFFFD") ++
      lossy n ((b :: rest).drop front.1)

/-- `String::from_utf8_lossy`. -/
def fromUtf8Lossy (s : List UInt8) : String :=
  match fromUtf8 s with
  | some valid => valid
  | none => lossy s.length s

def client : Client where
  malformed e := "malformed response: " ++ e
  incomplete := "incomplete response from server"
  status code := .ok (code.getD 0)

def parseResponse (response : List UInt8) : Except String (ℕ × String) := do
  let (status, body) ← client.takeApart parse response
  return (status, fromUtf8Lossy body)

def sendRequestTcp (stream : Stream ReadError) : Except String (ℕ × String) := do
  parseResponse parse (← received (fun e => "failed to read response: " ++ e) stream)

end Keelctl

end Http

end Keel
