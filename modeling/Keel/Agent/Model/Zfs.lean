import Mathlib.Data.List.AList
import Mathlib.Data.Finset.Basic
/-!
# The ZFS of a node

Datasets and snapshots as `FakeZfsManager` keeps them. Every snapshot
also carries a stamp, which the program does not have: the creation event
it comes from, kept by a send and a receive. Two snapshots of one name
are copies of one another when their stamps agree.
-/

namespace Keel

namespace Agent

/-- Which snapshot a snapshot is, whatever it is called. -/
abbrev Stamp := ℕ

inductive ZfsError
  | notFound (name : String)
  | busy (dataset : String)
  | commandFailed (message : String)
deriving DecidableEq

/-- What `zfs send` puts on the wire: the snapshot, and the base an
incremental stream builds on. -/
structure SendStream where
  snapshot : String
  base : Option String
  stamp : Stamp
deriving DecidableEq

structure FakeZfsManager where
  datasets : Finset String
  /-- By dataset and name. -/
  snapshots : AList fun _ : String × String => Stamp
  busy : Finset String

namespace FakeZfsManager

def new : FakeZfsManager := ⟨∅, ∅, ∅⟩

def datasetExists (z : FakeZfsManager) (dataset : String) : Bool := dataset ∈ z.datasets

def createVolume (z : FakeZfsManager) (dataset : String) : FakeZfsManager :=
  { z with datasets := insert dataset z.datasets }

def cloneFromBase (z : FakeZfsManager) (baseDataset targetDataset : String) :
    Except ZfsError Unit × FakeZfsManager :=
  if baseDataset ∈ z.datasets then
    (.ok (), { z with datasets := insert targetDataset z.datasets })
  else (.error (.notFound baseDataset), z)

/-- The dataset goes; its snapshots stay on the books. -/
def destroyDataset (z : FakeZfsManager) (dataset : String) :
    Except ZfsError Unit × FakeZfsManager :=
  if dataset ∈ z.busy then (.error (.busy dataset), z)
  else if dataset ∈ z.datasets then (.ok (), { z with datasets := z.datasets.erase dataset })
  else (.error (.notFound dataset), z)

/-- A snapshot of a name the dataset has already is that snapshot; a new
one is a new creation. -/
def snapshot (z : FakeZfsManager) (dataset name : String) (fresh : Stamp) :
    Except ZfsError Unit × FakeZfsManager :=
  if dataset ∈ z.datasets then
    (.ok (),
      if (dataset, name) ∈ z.snapshots then z
      else { z with snapshots := z.snapshots.insert (dataset, name) fresh })
  else (.error (.notFound dataset), z)

def destroySnapshot (z : FakeZfsManager) (dataset name : String) :
    Except ZfsError Unit × FakeZfsManager :=
  if (dataset, name) ∈ z.snapshots then
    (.ok (), { z with snapshots := z.snapshots.erase (dataset, name) })
  else (.error (.notFound (dataset ++ "@" ++ name)), z)

def sendSnapshot (z : FakeZfsManager) (dataset name : String) (base : Option String) :
    Except ZfsError SendStream :=
  match z.snapshots.lookup (dataset, name) with
  | none => .error (.notFound (dataset ++ "@" ++ name))
  | some stamp =>
    match base with
    | none => .ok ⟨name, none, stamp⟩
    | some b =>
      if (dataset, b) ∈ z.snapshots then .ok ⟨name, some b, stamp⟩
      else .error (.notFound (dataset ++ "@" ++ b))

/-- A received snapshot, and the dataset if there was none. -/
def store (z : FakeZfsManager) (dataset : String) (stream : SendStream) : FakeZfsManager :=
  { z with
    datasets := insert dataset z.datasets
    snapshots := z.snapshots.insert (dataset, stream.snapshot) stream.stamp }

/-- Receive what came over the wire: nothing whole (`none`), or a stream
whose base the dataset must have. -/
def receiveSnapshot (z : FakeZfsManager) (dataset : String) (input : Option SendStream) :
    Except ZfsError Unit × FakeZfsManager :=
  match input with
  | none => (.error (.commandFailed "malformed stream"), z)
  | some stream =>
    match stream.base with
    | some b =>
      if (dataset, b) ∈ z.snapshots then (.ok (), z.store dataset stream)
      else
        (.error (.commandFailed ("cannot receive incremental stream: base snapshot " ++ dataset ++
          "@" ++ b ++ " does not exist")), z)
    | none => (.ok (), z.store dataset stream)

end FakeZfsManager

end Agent

end Keel
