import Mathlib.Data.List.AList
import Keel.Agent.Model.Reconciler
import Keel.Node.Model.Machine
/-!
# The state directories

A record to a file: `<name>.yaml`, written beside it first and renamed
into place. `store` and `ingress_store` are one code over two
directories. How a record is written as YAML and read back is
`serde_yaml`'s; what is assumed of it is that it reads what it wrote
(`SerdeYaml`).
-/

namespace Keel

namespace Node

open Agent (JailRecord ZfsError)

structure IngressRecord where
  spec : IngressSpec
  certExpiresAtUnix : Option ℤ
deriving DecidableEq

inductive StoreError
  | io (dir : Dir) (file : String) (e : IoError)
  | parse (dir : Dir) (file : String) (e : String)
deriving DecidableEq

inductive ReconcileError
  | invalidSpec (e : SpecError)
  | store (e : StoreError)
  | jail (e : JailError)
  | zfs (e : ZfsError)
  | net (e : NetError)
  | mount (e : MountError)
  | notFound (name : String)
  | baseImageNotFound (dataset : String)
deriving DecidableEq

/-- How values of `α` are written as YAML and read. -/
class SerdeYaml (Text α : Type) where
  toYaml : α → Text
  fromYaml : Text → Except String α
  fromYaml_toYaml : ∀ a, fromYaml (toYaml a) = .ok a

/-- When an action was last tried for a jail, and how long to wait until
the next. Times are in nanoseconds. -/
structure BackoffState where
  currentDelay : ℕ
  nextRetryAt : Option ℕ
  lastStartedAt : Option ℕ
deriving DecidableEq

/-- The reconciler of an agent, in memory. -/
structure Reconciler where
  pool : String
  records : Table JailRecord
  backoff : Table BackoffState
  nextEpairOrdinal : ℕ
  ingressRecords : Table IngressRecord
  ingressBackoff : Table BackoffState

/-- A method of the reconciler. -/
abbrev Method (Text α : Type) := Proc Reconciler (Op Text) ReconcileError α

variable {Text α : Type}

/-- What follows the last dot of a file's name, if the dot is not its
first character. -/
def extension (file : String) : Option String :=
  let cs := file.toList.reverse
  let ext := cs.takeWhile (· ≠ '.')
  -- the dot, and then what it is an extension of
  if 2 ≤ (cs.dropWhile (· ≠ '.')).length then some (String.ofList ext.reverse) else none

def stateFile (name : String) : String := name ++ ".yaml"

def tmpFile (name : String) : String := name ++ ".yaml.tmp"

/-- `save`, of either store. -/
def saveYaml (dir : Dir) (name : String) (content : Text) : Method Text Unit := do
  Proc.tryCall (fun e => .store (.io dir "" e)) (.createDirAll dir)
  Proc.tryCall (fun e => .store (.io dir (tmpFile name) e)) (.writeFile dir (tmpFile name) content)
  Proc.tryCall (fun e => .store (.io dir (stateFile name) e))
    (.renameFile dir (tmpFile name) (stateFile name))

/-- `remove`, of either store: a file that is not there is removed. -/
def removeYaml (dir : Dir) (name : String) : Method Text Unit := do
  match ← Proc.ask (.removeFile dir (stateFile name)) with
  | .ok () => pure ()
  | .error .notFound => pure ()
  | .error e => Proc.fail (.store (.io dir (stateFile name) e))

/-- The records of some files, those that are YAML. -/
def loadFiles (dir : Dir) (fromYaml : Text → Except String α) :
    List String → Method Text (List α)
  | [] => pure []
  | file :: files => do
    if extension file ≠ some "yaml" then loadFiles dir fromYaml files
    else
      let content ← Proc.tryCall (fun e => .store (.io dir file e)) (.readToString dir file)
      let record ← Proc.ofExcept (fun e => .store (.parse dir file e)) (fromYaml content)
      let records ← loadFiles dir fromYaml files
      return record :: records

/-- `load_all`, of either store. -/
def loadYaml (dir : Dir) (fromYaml : Text → Except String α) : Method Text (List α) := do
  Proc.tryCall (fun e => .store (.io dir "" e)) (.createDirAll dir)
  let files ← Proc.tryCall (fun e => .store (.io dir "" e)) (.readDir dir)
  loadFiles dir fromYaml files

section

variable [SerdeYaml Text JailRecord] [SerdeYaml Text IngressRecord]

def store.loadAll : Method Text (List JailRecord) := loadYaml .state SerdeYaml.fromYaml

def store.save (record : JailRecord) : Method Text Unit :=
  saveYaml .state record.spec.metadata.name (SerdeYaml.toYaml record)

def store.remove (specName : String) : Method Text Unit := removeYaml .state specName

def ingressStore.loadAll : Method Text (List IngressRecord) := loadYaml .ingress SerdeYaml.fromYaml

def ingressStore.save (record : IngressRecord) : Method Text Unit :=
  saveYaml .ingress record.spec.metadata.name (SerdeYaml.toYaml record)

def ingressStore.remove (specName : String) : Method Text Unit := removeYaml .ingress specName

end

end Node

end Keel
