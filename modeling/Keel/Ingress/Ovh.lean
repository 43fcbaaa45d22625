import Keel.Ingress.Model
/-!
# TXT records at the DNS provider

What `OvhDnsProvider` asks of the provider's API to create a TXT record
and to delete one. The API knows a record by its sub-domain in the zone,
while a record is created and deleted by its whole name. Requests are
signed as they are sent, which does not depend on the record.
-/

namespace Keel

namespace Ingress

/-- `trim_end_matches`, as often as the suffix is there, up to some number
of times. -/
def trimTimes (suffix : List Char) : ℕ → List Char → List Char
  | 0, s => s
  | n + 1, s =>
    if suffix <:+ s then trimTimes suffix n (s.take (s.length - suffix.length)) else s

/-- `trim_end_matches`; a string has no suffix more often than it has
characters. -/
def trimEndMatches (suffix s : List Char) : List Char := trimTimes suffix s.length s

/-- A record, as the API has it. -/
structure TxtRecord where
  fieldType : String
  subDomain : String
  target : String
  ttl : ℕ
deriving DecidableEq

inductive Body
  | empty
  | json (record : TxtRecord)
deriving DecidableEq

inductive OvhOp : Type → Type
  /-- `request`, which signs and sends: the body of the response. -/
  | request (method path : String) (body : Body) : OvhOp (Except DnsError String)

abbrev Ovh (α : Type) := Proc Unit OvhOp DnsError α

structure OvhDnsProvider where
  zone : String

namespace OvhDnsProvider

variable (p : OvhDnsProvider)

def subDomain (name : String) : String :=
  String.ofList (trimEndMatches p.zone.toList (trimEndMatches ("." ++ p.zone).toList name.toList))

def recordPath : String := "/domain/zone/" ++ p.zone ++ "/record"

def refreshPath : String := "/domain/zone/" ++ p.zone ++ "/refresh"

def createTxtRecord (name value : String) : Ovh Unit := do
  let _ ← Proc.tryCall id
    (.request "POST" p.recordPath (.json ⟨"TXT", p.subDomain name, value, 60⟩))
  let _ ← Proc.tryCall id (.request "POST" p.refreshPath .empty)
  return ()

/-- The records are listed by their numbers, which `serde_json` reads
(`fromStr`). -/
def deleteTxtRecord (fromStr : String → Except String (List UInt64)) (name : String) :
    Ovh Unit := do
  let listBody ← Proc.tryCall id
    (.request "GET" (p.recordPath ++ "?fieldType=TXT&subDomain=" ++ p.subDomain name) .empty)
  let ids ← Proc.ofExcept .request (fromStr listBody)
  Proc.forEach (fun i => do
    let _ ← Proc.tryCall id (.request "DELETE" (p.recordPath ++ "/" ++ toString i) .empty)
    return ()) ids
  let _ ← Proc.tryCall id (.request "POST" p.refreshPath .empty)
  return ()

end OvhDnsProvider

/-! ## What is answered -/

/-- Any request may be answered in any way. -/
def ovhOutside : Outside OvhOp (Except DnsError String) Unit Unit where
  call o c w := match c with
    | .request _ _ _ => (o, w)
  allows _ _ _ _ := True

/-- The requests made, under some answers. -/
def requests {α : Type} (p : Ovh α) (answers : ℕ → Except DnsError String) :
    List (Σ ρ : Type, OvhOp ρ) :=
  (p.run ovhOutside (fun i => some (answers i)) () ⟨(), []⟩).2.calls

end Ingress

end Keel
