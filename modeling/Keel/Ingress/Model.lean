import Keel.Common.Proc
import Keel.Node.Model.Machine
/-!
# A certificate order

What the agent's ACME client does to get one certificate: it orders it,
proves for each authorization of the order that the domain is its own, by
a TXT record, and has the certificate issued. The ACME server and the DNS
provider answer every call as they like (`Replies`).

The ACME account is loaded or registered first, by a call that has to do
with no record.
-/

namespace Keel

namespace Ingress

open Node (Cert)

inductive DnsError
  | notFound (name : String)
  | request (message : String)
  | propagationTimeout (name : String)
deriving DecidableEq

inductive AcmeError
  | dns (e : DnsError)
  | request (message : String)
deriving DecidableEq

inductive OrderStatus
  | pending
  | ready
  | processing
  | valid
  | invalid
deriving DecidableEq

def OrderStatus.debug : OrderStatus → String
  | .pending => "Pending"
  | .ready => "Ready"
  | .processing => "Processing"
  | .valid => "Valid"
  | .invalid => "Invalid"

/-- What the client calls, by what each call answers. -/
inductive Op : Type → Type
  | loadOrCreateAccount (contactEmail : String) : Op (Except AcmeError Unit)
  /-- An order, with as many authorizations as it has. -/
  | newOrder (domain : String) : Op (Except String ℕ)
  /-- The next authorization is fetched. -/
  | nextAuthorization : Op (Except String Unit)
  /-- Its DNS-01 challenge, if one is offered: the value of the record. -/
  | challenge : Op (Option String)
  | createTxtRecord (name value : String) : Op (Except DnsError Unit)
  | waitForPropagation (name value : String) : Op (Except DnsError Unit)
  | setReady : Op (Except String Unit)
  | pollReady : Op (Except String OrderStatus)
  /-- The private key. -/
  | finalize : Op (Except String String)
  | pollCertificate : Op (Except String String)
  | deleteTxtRecord (name : String) : Op (Except DnsError Unit)

abbrev Client (α : Type) := Proc Unit Op AcmeError α

def challengeName (domain : String) : String := "_acme-challenge." ++ domain

/-- One turn of the loop over the authorizations: the value of the record
it creates. -/
def authorize (domain : String) : Client String := do
  Proc.tryCall .request .nextAuthorization
  match ← Proc.ask .challenge with
  | none => Proc.fail (.request ("no DNS-01 challenge offered for '" ++ domain ++ "'"))
  | some dnsValue =>
    Proc.tryCall .dns (.createTxtRecord (challengeName domain) dnsValue)
    Proc.tryCall .dns (.waitForPropagation (challengeName domain) dnsValue)
    Proc.tryCall .request .setReady
    pure dnsValue

/-- The loop, from the values it has so far. -/
def authorizations (domain : String) : ℕ → List String → Client (List String)
  | 0, dnsValues => pure dnsValues
  | n + 1, dnsValues => do
    let dnsValue ← authorize domain
    authorizations domain n (dnsValues ++ [dnsValue])

def finalizeAndDownload : Client Cert := do
  let status ← Proc.tryCall .request .pollReady
  if status ≠ .ready then
    Proc.fail (.request ("order did not become ready, status: " ++ status.debug))
  let keyPem ← Proc.tryCall .request .finalize
  let certPem ← Proc.tryCall .request .pollCertificate
  pure ⟨certPem, keyPem⟩

def requestCertificateAsync (domain contactEmail : String) : Client Cert := do
  Proc.tryCall id (.loadOrCreateAccount contactEmail)
  let n ← Proc.tryCall .request (.newOrder domain)
  let dnsValues ← authorizations domain n []
  let issuanceResult ← (finalizeAndDownload.attempt : Client (Except AcmeError Cert))
  if dnsValues ≠ [] then
    let _ ← Proc.ask (.deleteTxtRecord (challengeName domain))
  Proc.ofExcept id issuanceResult

/-! ## What is answered -/

/-- The answers to every call; those of a turn of the loop by its number. -/
structure Replies where
  account : Except AcmeError Unit
  order : Except String ℕ
  authorization : ℕ → Except String Unit
  challenge : ℕ → Option String
  create : ℕ → Except DnsError Unit
  propagation : ℕ → Except DnsError Unit
  ready : ℕ → Except String Unit
  status : Except String OrderStatus
  key : Except String String
  certificate : Except String String
  delete : Except DnsError Unit

/-- What becomes of the records. -/
inductive Entry
  /-- A record was created. -/
  | created (name value : String)
  /-- The deletion of a record was asked for. -/
  | deleted (name : String)
deriving DecidableEq

/-- The authorizations fetched so far, and what became of the records. -/
structure Zone where
  fetched : ℕ
  log : List Entry
deriving DecidableEq

def Zone.call (o : Replies) : {ρ : Type} → Op ρ → Zone → ρ × Zone
  | _, .loadOrCreateAccount _, z => (o.account, z)
  | _, .newOrder _, z => (o.order, z)
  | _, .nextAuthorization, z => (o.authorization z.fetched, { z with fetched := z.fetched + 1 })
  | _, .challenge, z => (o.challenge (z.fetched - 1), z)
  | _, .createTxtRecord name value, z =>
    (o.create (z.fetched - 1), match o.create (z.fetched - 1) with
      | .ok () => { z with log := z.log ++ [.created name value] }
      | .error _ => z)
  | _, .waitForPropagation _ _, z => (o.propagation (z.fetched - 1), z)
  | _, .setReady, z => (o.ready (z.fetched - 1), z)
  | _, .pollReady, z => (o.status, z)
  | _, .finalize, z => (o.key, z)
  | _, .pollCertificate, z => (o.certificate, z)
  | _, .deleteTxtRecord name, z => (o.delete, { z with log := z.log ++ [.deleted name] })

def outside : Outside Op Replies Unit Zone where
  call o c z := Zone.call o c z
  allows _ _ _ _ := True

/-- A request under some answers: how it ends, and what became of the
records. -/
def request (domain contactEmail : String) (o : Replies) :
    Ended Unit AcmeError Cert × Trace Op Zone :=
  (requestCertificateAsync domain contactEmail).run outside (fun _ => some o) () ⟨⟨0, []⟩, []⟩

end Ingress

end Keel
