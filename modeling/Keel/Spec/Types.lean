import Mathlib.Data.List.Basic
/-!
# Specs

The `keel-spec` types: what an operator writes for a jail or a service,
and the jail spec a service's template yields for one replica.
-/

namespace Keel

structure Metadata where
  name : String
deriving DecidableEq

structure VolumeMount where
  name : String
  mountPath : String
  size : String
deriving DecidableEq

structure NetworkSpec where
  vnet : Bool
  bridge : String
  address : String
deriving DecidableEq

structure ResourcesSpec where
  cpu : String
  memory : String
deriving DecidableEq

inductive RestartPolicy
  | always
  | onFailure
  | never
deriving DecidableEq

structure Spec where
  image : String
  command : List String
  network : NetworkSpec
  resources : ResourcesSpec
  restartPolicy : RestartPolicy
  volumes : List VolumeMount
  replicateTo : Option String
deriving DecidableEq

structure JailSpec where
  apiVersion : String
  kind : String
  metadata : Metadata
  spec : Spec
deriving DecidableEq

structure TemplateNetworkSpec where
  vnet : Bool
  bridge : String
deriving DecidableEq

/-- A jail's fields less its address, which a replica is always assigned. -/
structure JailTemplate where
  image : String
  command : List String
  network : TemplateNetworkSpec
  resources : ResourcesSpec
  restartPolicy : RestartPolicy
  volumes : List VolumeMount
deriving DecidableEq

structure ServiceSpecBody where
  replicas : ℕ
  port : ℕ
  template : JailTemplate
deriving DecidableEq

structure ServiceSpec where
  apiVersion : String
  kind : String
  metadata : Metadata
  spec : ServiceSpecBody
deriving DecidableEq

/-- The jail spec of one replica: the template under the replica's name
and address, its volumes renamed `<replica>-<volume>`. -/
def JailTemplate.toJailSpec (t : JailTemplate) (name address : String) : JailSpec where
  apiVersion := "keel/v1"
  kind := "Jail"
  metadata := ⟨name⟩
  spec :=
    { image := t.image
      command := t.command
      network := ⟨t.network.vnet, t.network.bridge, address⟩
      resources := t.resources
      restartPolicy := t.restartPolicy
      volumes := t.volumes.map fun v => ⟨name ++ "-" ++ v.name, v.mountPath, v.size⟩
      replicateTo := none }

structure IngressBackend where
  service : String
  port : ℕ
deriving DecidableEq

structure IngressTls where
  email : String
deriving DecidableEq

structure IngressSpecBody where
  host : String
  backend : IngressBackend
  tls : IngressTls
deriving DecidableEq

/-- A host to serve, from a service. -/
structure IngressSpec where
  apiVersion : String
  kind : String
  metadata : Metadata
  spec : IngressSpecBody
deriving DecidableEq

/-- Why a spec is refused. -/
inductive SpecError
  | yaml (e : String)
  | invalidName (name : String)
  | invalidAddress (address e : String)
  | invalidCpu (s : String)
  | invalidMemory (s : String)
  | invalidPort (port : ℕ)
  | duplicateVolumeName (name : String)
  | immutableField (field : String)
  | invalidHost (host : String)
  | invalidEmail (email : String)
deriving DecidableEq

def SpecError.display : SpecError → String
  | .yaml e => "failed to parse YAML: " ++ e
  | .invalidName name =>
    "invalid jail name '" ++ name ++ "': must be 1-63 lowercase alphanumeric characters or " ++
      "hyphens, starting and ending with an alphanumeric character"
  | .invalidAddress address e => "invalid network address '" ++ address ++ "': " ++ e
  | .invalidCpu s => "invalid cpu value '" ++ s ++ "': must be a positive number of cores"
  | .invalidMemory s =>
    "invalid memory value '" ++ s ++ "': expected a number optionally followed by K, M, or G"
  | .invalidPort port => "invalid port " ++ toString port ++ ": must be non-zero"
  | .duplicateVolumeName name => "duplicate volume name '" ++ name ++ "' in spec.volumes"
  | .immutableField field =>
    "field '" ++ field ++ "' cannot be changed after the jail is created; delete and re-apply " ++
      "instead"
  | .invalidHost host =>
    "invalid host '" ++ host ++ "': must be a syntactically well-formed DNS name"
  | .invalidEmail email =>
    "invalid email '" ++ email ++ "': must be a syntactically well-formed email address"

end Keel
