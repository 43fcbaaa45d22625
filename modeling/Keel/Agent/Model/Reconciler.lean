import Keel.Spec.Validate
import Keel.Agent.Model.Replication
/-!
# The reconciler's records

The jails an agent is to run, each under its name, in memory and as they
are on disk. Of a reconcile pass only what it does to the records and to
the volumes is here. What the machine makes of a command — whether a file
is written, how far a jail is torn down, which volumes a pass gets to
create — is the outside's (`Machine`).
-/

namespace Keel

namespace Agent

structure JailRecord where
  spec : JailSpec
  epairOrdinal : ℕ
deriving DecidableEq

inductive ReconcileError
  | invalidSpec (e : SpecError)
  | store (e : StoreError)
  | jail (message : String)
  | zfs (e : ZfsError)
  | net (message : String)
  | mount (message : String)
  | notFound (name : String)
deriving DecidableEq

/-- What the machine makes of one command. -/
structure Machine where
  /-- `store::save` works. -/
  saves : Bool
  /-- `store::remove` works. -/
  removes : Bool
  /-- What tearing a jail down comes to, short of its record. -/
  tearDown : Except ReconcileError Unit
  /-- An ingress is there for the pass to serve. -/
  ingress : Bool
  /-- `store::save` works for its jail. -/
  ingressSaves : Bool
  /-- The volumes the pass gets to create. -/
  provisioned : List String

structure Reconciler where
  pool : String
  records : Table JailRecord
  /-- The records on disk. -/
  saved : Table JailRecord
  nextEpairOrdinal : ℕ

namespace Reconciler

/-- The records of the files a starting agent reads, each under its own
name. -/
def collect (loaded : List JailRecord) : Table JailRecord :=
  loaded.foldl (fun t record => t.insert record.spec.metadata.name record) ∅

/-- A reconciler on what is on disk. -/
def new (pool : String) (saved : Table JailRecord) : Reconciler where
  pool
  records := saved
  saved
  nextEpairOrdinal := (saved.entries.map fun e => e.2.epairOrdinal + 1).foldl max 1

variable (r : Reconciler)

/-- The checks of `apply`, and the ordinals of the record and of the next
new one. -/
def checkApply [Ipnet] (spec : JailSpec) : Except SpecError (ℕ × ℕ) := do
  validateName spec.metadata.name
  validateAddress spec.spec.network.address
  let _ ← parseCpuCores spec.spec.resources.cpu
  let _ ← parseMemoryBytes spec.spec.resources.memory
  match r.records.lookup spec.metadata.name with
  | some existing => do
    validateTransition existing.spec spec
    return (existing.epairOrdinal, r.nextEpairOrdinal)
  | none => return (r.nextEpairOrdinal, r.nextEpairOrdinal + 1)

/-- Save a record, then keep it. -/
def keep (saves : Bool) (name : String) (record : JailRecord) :
    Except ReconcileError Unit × Reconciler :=
  if saves then
    (.ok (), { r with
      records := r.records.insert name record
      saved := r.saved.insert record.spec.metadata.name record })
  else (.error (.store .io), r)

def apply [Ipnet] (saves : Bool) (spec : JailSpec) : Except ReconcileError Unit × Reconciler :=
  match r.checkApply spec with
  | .error e => (.error (.invalidSpec e), r)
  | .ok (epairOrdinal, nextEpairOrdinal) =>
    { r with nextEpairOrdinal }.keep saves spec.metadata.name ⟨spec, epairOrdinal⟩

def delete (m : Machine) (name : String) : Except ReconcileError Unit × Reconciler :=
  match r.records.lookup name with
  | none => (.error (.notFound name), r)
  | some _ =>
    match m.tearDown with
    | .error e => (.error e, r)
    | .ok () =>
      if m.removes then
        (.ok (), { r with records := r.records.erase name, saved := r.saved.erase name })
      else (.error (.store .io), r)

/-- Retarget a record without a word about its volumes. -/
def setReplicateTo (saves : Bool) (name : String) (replicateTo : Option String) :
    Except ReconcileError Unit × Reconciler :=
  match r.records.lookup name with
  | none => (.error (.notFound name), r)
  | some record =>
    r.keep saves name
      { record with spec := { record.spec with spec := { record.spec.spec with replicateTo } } }

/-- The records, sorted by name. -/
def list : List JailRecord :=
  (r.records.keys.insertionSort (· ≤ ·)).filterMap fun name => r.records.lookup name

/-! ## Volumes -/

def getVolume (zfs : FakeZfsManager) (name : String) : Except ReconcileError Unit :=
  let dataset := volumeDatasetPath r.pool name
  if zfs.datasetExists dataset then .ok () else .error (.zfs (.notFound dataset))

def deleteVolume (zfs : FakeZfsManager) (name : String) :
    Except ReconcileError Unit × FakeZfsManager :=
  match zfs.destroyDataset (volumeDatasetPath r.pool name) with
  | (.ok (), zfs) => (.ok (), zfs)
  | (.error e, zfs) => (.error (.zfs e), zfs)

/-! ## A reconcile pass -/

/-- The jail that serves ingresses. -/
def ingressSpec : JailSpec where
  apiVersion := "keel/v1"
  kind := "Jail"
  metadata := ⟨"ingress"⟩
  spec :=
    { image := "base/keel-ingress"
      command := ["/usr/local/sbin/nginx", "-c", "/usr/local/etc/nginx/nginx.conf", "-g",
        "daemon off;"]
      network := ⟨true, "keel0", "10.0.0.2/24"⟩
      resources := ⟨"1", "256M"⟩
      restartPolicy := .always
      volumes := []
      replicateTo := none }

def ensureIngressJail [Ipnet] (m : Machine) : Reconciler :=
  if !m.ingress || "ingress" ∈ r.records then r else (r.apply m.ingressSaves ingressSpec).2

/-- The volumes of the records there are, those the pass gets to create. -/
def provision (m : Machine) (zfs : FakeZfsManager) : FakeZfsManager :=
  ((r.records.entries.flatMap fun e => e.2.spec.spec.volumes).filter
    fun v => v.name ∈ m.provisioned).foldl
      (fun zfs v => zfs.createVolume (volumeDatasetPath r.pool v.name)) zfs

def reconcile [Ipnet] (m : Machine) (zfs : FakeZfsManager) : Reconciler × FakeZfsManager :=
  let r := r.ensureIngressJail m
  (r, r.provision m zfs)

end Reconciler

/-! ## A small jail -/

namespace Sample

/-- How IPv4 networks in dotted decimal are read. -/
scoped instance ipnet : Ipnet where
  parse s :=
    match (s.toList.splitOn '/').map fun part => (part.splitOn '.').mapM digits? with
    | [some [a, b, c, d], some [len]] =>
      if a < 256 ∧ b < 256 ∧ c < 256 ∧ d < 256 ∧ len ≤ 32 then
        .ok (.v4 (Ipv4Addr.ofOctets a b c d) len)
      else .error "invalid IP address syntax"
    | _ => .error "invalid IP address syntax"

/-- Everything works, and every volume asked for is created. -/
def machine : Machine := ⟨true, true, .ok (), false, true, ["db-0-data"]⟩

/-- A jail with a volume. -/
def jail (name : String) (replicateTo : Option String) : JailSpec where
  apiVersion := "keel/v1"
  kind := "Jail"
  metadata := ⟨name⟩
  spec :=
    { image := "base"
      command := ["app"]
      network := ⟨true, "keel0", "10.0.9.9/24"⟩
      resources := ⟨"1", "256M"⟩
      restartPolicy := .always
      volumes := [⟨name ++ "-data", "/data", "1G"⟩]
      replicateTo }

end Sample

end Agent

end Keel
