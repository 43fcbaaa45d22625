import Keel.Common.Paths
import Keel.Agent.Model.Replication
import Keel.Node.Model.Store
/-!
# Replica targets on disk

A replication connection from its first byte: the header as it is decoded,
and the target it names as it is kept, in memory and in a file of its own.
Whoever connects chooses the name. Each connection is a procedure on the
registry; what it calls on is the disk, the acknowledgement it sends and
the receiving `zfs`.
-/

namespace Keel

namespace Node

open Agent (Header ReplicaTarget Ack volumeDatasetPath)

/-! ## The header -/

/-- `io::ErrorKind`. -/
inductive ReadError
  | unexpectedEof
  | invalidData
deriving DecidableEq

/-- `read_exact`: the next bytes, and what is left. -/
def readExact (len : ℕ) (stream : List UInt8) : Except ReadError (List UInt8 × List UInt8) :=
  if stream.length < len then .error .unexpectedEof
  else .ok (stream.take len, stream.drop len)

/-- `u32::to_be_bytes`. -/
def toBeBytes (n : ℕ) : List UInt8 :=
  [UInt8.ofNat (n / 2 ^ 24), UInt8.ofNat (n / 2 ^ 16), UInt8.ofNat (n / 2 ^ 8), UInt8.ofNat n]

/-- The bytes of a string, behind their number as 32 bits hold it. -/
def writeLenPrefixed (s : String) : List UInt8 :=
  toBeBytes (s.utf8ByteSize % 2 ^ 32) ++ s.toUTF8.data.toList

/-- The bytes written, where the stream takes them all. -/
def writeHeader (header : Header) : List UInt8 :=
  writeLenPrefixed header.replicaName ++ (writeLenPrefixed header.snapshotId ++
    match header.baseSnapshotId with
    | none => [0]
    | some base => 1 :: writeLenPrefixed base)

/-- `u32::from_be_bytes`. -/
def fromBeBytes (bytes : List UInt8) : ℕ := bytes.foldl (fun n b => n * 256 + b.toNat) 0

def readLenPrefixed (stream : List UInt8) : Except ReadError (String × List UInt8) := do
  let (lenBuf, stream) ← readExact 4 stream
  let (buf, stream) ← readExact (fromBeBytes lenBuf) stream
  match String.fromUTF8? ⟨buf.toArray⟩ with
  | some s => return (s, stream)
  | none => throw .invalidData

def readHeader (stream : List UInt8) : Except ReadError (Header × List UInt8) := do
  let (replicaName, stream) ← readLenPrefixed stream
  let (snapshotId, stream) ← readLenPrefixed stream
  let (hasBase, stream) ← readExact 1 stream
  if hasBase = [0] then return (⟨replicaName, snapshotId, none⟩, stream)
  else
    let (base, stream) ← readLenPrefixed stream
    return (⟨replicaName, snapshotId, some base⟩, stream)

/-! ## The files -/

/-- A path as it is given. -/
def path (s : List Char) : PathBuf (List Char) := ⟨s.head? = some '/', components s⟩

/-- A path with a NUL in it cannot be opened. -/
def HasNul (p : PathBuf (List Char)) : Prop := ∃ c ∈ p.components, '\x00' ∈ c

instance (p : PathBuf (List Char)) : Decidable (HasNul p) :=
  inferInstanceAs (Decidable (∃ c ∈ p.components, '\x00' ∈ c))

/-- What a connection calls on. -/
inductive TargetOp (Text : Type) : Type → Type
  | createDirAll (dir : PathBuf (List Char)) : TargetOp Text (Except IoError Unit)
  | write (path : PathBuf (List Char)) (content : Text) : TargetOp Text (Except IoError Unit)
  | rename (old new : PathBuf (List Char)) : TargetOp Text (Except IoError Unit)
  | ack (a : Ack) : TargetOp Text (Except IoError Unit)
  /-- `receive_snapshot`, of what is left of the stream. -/
  | receive (dataset : String) (stream : List UInt8) : TargetOp Text (Except IoError Unit)

inductive ConnectionError
  | read (e : ReadError)
  | store (path : PathBuf (List Char)) (e : IoError)
  | io (e : IoError)
deriving DecidableEq

/-- The targets in memory, and the directory they are kept below. -/
structure ReplicaTargetRegistry where
  stateDir : PathBuf (List Char)
  byName : Table ReplicaTarget
  /-- A target is kept under its own name. -/
  keyed : ∀ name target, byName.lookup name = some target → target.replicaName = name

/-- A step of a connection. -/
abbrev Connection (Text α : Type) :=
  Proc ReplicaTargetRegistry (TargetOp Text) ConnectionError α

variable {Text : Type}

/-- Where `ingress_store` keeps its files; `store` keeps its own in the
state directory itself. -/
def ingressStore.dir (stateDir : PathBuf (List Char)) : PathBuf (List Char) :=
  stateDir.join (path "ingress".toList)

namespace replicaTargetStore

def dir (stateDir : PathBuf (List Char)) : PathBuf (List Char) :=
  stateDir.join (path "replica-targets".toList)

/-- The file of a target, and the one it is written to first. -/
def file (stateDir : PathBuf (List Char)) (replicaName suffix : String) : PathBuf (List Char) :=
  (dir stateDir).join (path (replicaName ++ suffix).toList)

def save [SerdeYaml Text ReplicaTarget] (stateDir : PathBuf (List Char)) (target : ReplicaTarget) :
    Connection Text Unit := do
  let path := file stateDir target.replicaName ".yaml"
  let tmpPath := file stateDir target.replicaName ".yaml.tmp"
  Proc.tryCall (.store (dir stateDir)) (.createDirAll (dir stateDir))
  Proc.tryCall (.store tmpPath) (.write tmpPath (SerdeYaml.toYaml target))
  Proc.tryCall (.store path) (.rename tmpPath path)

end replicaTargetStore

namespace ReplicaTargetRegistry

/-- A target, put under its name. -/
def insert (t : ReplicaTargetRegistry) (target : ReplicaTarget) : ReplicaTargetRegistry where
  stateDir := t.stateDir
  byName := t.byName.insert target.replicaName target
  keyed := by
    intro name target' h
    rw [Table.lookup_insert_eq] at h
    split at h
    · rename_i heq
      rw [← Option.some.inj h, heq]
    · exact t.keyed name target' h

/-- A registry of what was loaded. -/
def load (stateDir : PathBuf (List Char)) (loaded : List ReplicaTarget) : ReplicaTargetRegistry :=
  loaded.foldl insert ⟨stateDir, ∅, fun _ _ h => by cases h⟩

/-- The target, made on first contact; its source is refreshed. -/
def entry (t : ReplicaTargetRegistry) (replicaName volumeDataset sourceNodeAddr : String) :
    ReplicaTarget :=
  { (t.byName.lookup replicaName).getD ⟨replicaName, volumeDataset, sourceNodeAddr, none⟩ with
    sourceNodeAddr }

variable [SerdeYaml Text ReplicaTarget]

def ensure (replicaName volumeDataset sourceNodeAddr : String) : Connection Text ReplicaTarget := do
  let t ← Proc.get
  let target := t.entry replicaName volumeDataset sourceNodeAddr
  Proc.modify fun t => t.insert target
  replicaTargetStore.save t.stateDir target
  return target

def recordSnapshot (replicaName snapshotId : String) : Connection Text Unit := do
  let t ← Proc.get
  match t.byName.lookup replicaName with
  | none => pure ()
  | some known => do
    let target := { known with lastSnapshot := some snapshotId }
    Proc.modify fun t => t.insert target
    replicaTargetStore.save t.stateDir target

/-- One connection, by the bytes that come over it. -/
def handleConnection (pool : String) (stream : List UInt8) (peerAddr : String) :
    Connection Text Unit := do
  let (header, stream) ← Proc.ofExcept .read (readHeader stream)
  let dataset := volumeDatasetPath pool (header.replicaName ++ "-data")
  let target ← ensure header.replicaName dataset peerAddr
  if header.baseSnapshotId ≠ target.lastSnapshot then Proc.tryCall .io (.ack .needFull)
  else
    Proc.tryCall .io (.ack .proceed)
    Proc.tryCall .io (.receive dataset stream)
    recordSnapshot header.replicaName header.snapshotId

end ReplicaTargetRegistry

/-! ## The disk -/

/-- What becomes of one call. -/
structure TargetOutcome where
  /-- The call fails, with a message. -/
  fails : Option String
  /-- A write that fails has truncated the file already. -/
  torn : Bool

/-- The paths written to so far, by a write or by a rename: what there is
of the disk. A path that cannot be opened is not written to. -/
def TargetOp.call : {ρ : Type} → TargetOutcome → TargetOp Text ρ → List (PathBuf (List Char)) →
    ρ × List (PathBuf (List Char))
  | _, o, .createDirAll dir, written =>
    if HasNul dir then (.error (.other "invalid path"), written)
    else match o.fails with
      | some message => (.error (.other message), written)
      | none => (.ok (), written)
  | _, o, .write path _, written =>
    if HasNul path then (.error (.other "invalid path"), written)
    else match o.fails with
      | some message => (.error (.other message), if o.torn then path :: written else written)
      | none => (.ok (), path :: written)
  | _, o, .rename old new, written =>
    if HasNul old ∨ HasNul new then (.error (.other "invalid path"), written)
    else match o.fails with
      | some message => (.error (.other message), written)
      | none => (.ok (), new :: written)
  | _, o, .ack _, written =>
    match o.fails with
    | some message => (.error (.other message), written)
    | none => (.ok (), written)
  | _, o, .receive _ _, written =>
    match o.fails with
    | some message => (.error (.other message), written)
    | none => (.ok (), written)

/-- The disk, with any call failing. -/
def TargetOp.outside :
    Outside (TargetOp Text) TargetOutcome ReplicaTargetRegistry (List (PathBuf (List Char))) where
  call := TargetOp.call
  allows _ _ _ _ := True

end Node

end Keel
