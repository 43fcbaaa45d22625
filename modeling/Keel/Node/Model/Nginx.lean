import Keel.Node.Model.Run
/-!
# The nginx of the ingress jail

The controller that reaches into the jail: the config is written to a
file beside it and renamed over it, and `nginx -t` and `nginx -s reload`
are told to read it there, as the jail's own command is. Every step of it
may fail, with a message.

The reconciler names no other jail to it, so the files are those of the
ingress jail.
-/

namespace Keel

namespace Node

/-- `/usr/local/etc/nginx` in the jail. -/
structure ConfigDir where
  /-- `nginx.conf`: what any nginx of the jail reads. -/
  conf : Option String
  /-- `nginx.conf.tmp`. -/
  tmp : Option String
deriving DecidableEq

/-- How the calls of one pass go; a step that fails does so with a
message. -/
structure Verdict where
  createDirAll : Option String
  write : Option String
  /-- What a failing write leaves of the file it was at, if anything. -/
  torn : Option String
  rename : Option String
  test : Option String
  reload : Option String
  /-- The service table's answer to the `i`-th call of the pass. -/
  vips : ℕ → Option (String × ℕ)

namespace JexecNginxController

def writeConfig (o : Verdict) (config : String) (dir : ConfigDir) :
    Except String Unit × ConfigDir :=
  match o.createDirAll with
  | some message => (.error message, dir)
  | none =>
    match o.write with
    | some message => (.error message, { dir with tmp := o.torn <|> dir.tmp })
    | none =>
      match o.rename with
      | some message => (.error message, { dir with tmp := some config })
      | none => (.ok (), ⟨some config, none⟩)

/-- `nginx -t` and `nginx -s reload` only read. -/
def runJexec (failure : Option String) : Except String Unit :=
  match failure with
  | some message => .error message
  | none => .ok ()

def testConfig (o : Verdict) : Except String Unit := runJexec o.test

def reload (o : Verdict) : Except String Unit := runJexec o.reload

end JexecNginxController

/-! ## Passes -/

/-- The machine with the files of the ingress jail's nginx, and what
`nginx -t` has accepted so far. -/
structure Serving (Text : Type) where
  host : Host Text
  dir : ConfigDir
  validated : List String

namespace Serving

variable {Text : Type} [Ipnet]

def call : {ρ : Type} → Verdict × ℕ → Op Text ρ → Serving Text → ρ × Serving Text
  | _, (o, _), .writeConfig _ config, w =>
    let (result, dir) := JexecNginxController.writeConfig o config w.dir
    (result, { w with dir })
  | _, (o, _), .testConfig _, w =>
    match JexecNginxController.testConfig o with
    | .error message => (.error message, w)
    | .ok () => (.ok (), { w with validated := w.dir.conf.toList ++ w.validated })
  | _, (o, _), .reload _, w => (JexecNginxController.reload o, w)
  | _, (o, i), .serviceVip _, w => (o.vips i, w)
  | _, _, c, w =>
    let (answer, host) := Host.call .works c w.host
    (answer, { w with host })

def outside : Outside (Op Text) (Verdict × ℕ) Reconciler (Serving Text) where
  call := call
  allows _ _ _ _ := True

/-- A pass over the ingresses of a reconciler as it is then. -/
structure Attempt where
  reconciler : Reconciler
  pass : Pass
  verdict : Verdict

def reconcileIngressConfig (w : Serving Text) (a : Attempt) : Serving Text :=
  ((Reconciler.reconcileIngressConfig a.pass).run outside (fun i => some (a.verdict, i))
    a.reconciler ⟨w, []⟩).2.world

/-- One pass after the other, with anything in between that leaves the
config alone. -/
def passes (w : Serving Text) (attempts : List Attempt) : Serving Text :=
  attempts.foldl reconcileIngressConfig w

/-- Before the first pass. -/
def initial (host : Host Text) (dir : ConfigDir) : Serving Text := ⟨host, dir, []⟩

end Serving

end Node

end Keel
