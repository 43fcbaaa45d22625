import Keel.Common.Net
import Keel.Agent.Model.Zfs
/-!
# Replication

The two ends of a replication stream. A primary's loop ticks: it
snapshots its replica's volume and sends the snapshot to the standby, on
top of the last one it believes the standby to have. The standby's
listener keeps a `ReplicaTarget` for each replica, refuses a stream whose
base is not the snapshot it last recorded, and records what it receives.

Each function here is what one end does without the other between two
points where the network comes in. A flag argument says whether a step
that can fail for reasons of its own (a file not written, a command that
dies) does not.
-/

namespace Keel

namespace Agent

inductive StoreError
  | io
  | parse
deriving DecidableEq

def volumeDatasetPath (pool name : String) : String := pool ++ "/keel/volumes/" ++ name

/-! ## The standby's records -/

/-- A replica this node is a standby for. -/
structure ReplicaTarget where
  replicaName : String
  volumeDataset : String
  sourceNodeAddr : String
  /-- `none` until the first full send completes. -/
  lastSnapshot : Option String
deriving DecidableEq

/-- The targets in memory, and as they are on disk. -/
structure ReplicaTargetRegistry where
  byName : Table ReplicaTarget
  saved : Table ReplicaTarget

namespace ReplicaTargetRegistry

/-- What a restarted agent finds. -/
def load (saved : Table ReplicaTarget) : ReplicaTargetRegistry := ⟨saved, saved⟩

def get (t : ReplicaTargetRegistry) (replicaName : String) : Option ReplicaTarget :=
  t.byName.lookup replicaName

/-- The target, made on first contact with no snapshot; its source is
refreshed and its snapshot left alone. -/
def ensure (t : ReplicaTargetRegistry) (saved : Bool)
    (replicaName volumeDataset sourceNodeAddr : String) :
    Except StoreError ReplicaTarget × ReplicaTargetRegistry :=
  let known := (t.byName.lookup replicaName).getD ⟨replicaName, volumeDataset, sourceNodeAddr, none⟩
  let target := { known with sourceNodeAddr }
  let byName := t.byName.insert replicaName target
  if saved then (.ok target, ⟨byName, t.saved.insert replicaName target⟩)
  else (.error .io, ⟨byName, t.saved⟩)

def recordSnapshot (t : ReplicaTargetRegistry) (saved : Bool) (replicaName snapshotId : String) :
    Except StoreError Unit × ReplicaTargetRegistry :=
  match t.byName.lookup replicaName with
  | none => (.ok (), t)
  | some known =>
    let target := { known with lastSnapshot := some snapshotId }
    let byName := t.byName.insert replicaName target
    if saved then (.ok (), ⟨byName, t.saved.insert replicaName target⟩)
    else (.error .io, ⟨byName, t.saved⟩)

end ReplicaTargetRegistry

/-! ## The standby's listener -/

structure Header where
  replicaName : String
  snapshotId : String
  baseSnapshotId : Option String
deriving DecidableEq

/-- `ACK_PROCEED` and `ACK_NEED_FULL`. -/
inductive Ack
  | proceed
  | needFull
deriving DecidableEq

/-- What the listener has at hand. -/
structure Listener where
  pool : String
  zfs : FakeZfsManager
  targets : ReplicaTargetRegistry

namespace Listener

/-- The dataset of the one volume, `data`, a replica is taken to have. -/
def dataset (l : Listener) (replicaName : String) : String :=
  volumeDatasetPath l.pool (replicaName ++ "-data")

/-- `handle_connection` up to its acknowledgement; none if the target
could not be saved. -/
def answer (l : Listener) (saved : Bool) (header : Header) (peerAddr : String) :
    Option Ack × Listener :=
  match l.targets.ensure saved header.replicaName (l.dataset header.replicaName) peerAddr with
  | (.error _, targets) => (none, { l with targets })
  | (.ok target, targets) =>
    (some (if header.baseSnapshotId ≠ target.lastSnapshot then .needFull else .proceed),
      { l with targets })

/-- `handle_connection` past it: receive what came. -/
def receive (l : Listener) (works : Bool) (header : Header) (input : Option SendStream) :
    Bool × Listener :=
  if works then
    match l.zfs.receiveSnapshot (l.dataset header.replicaName) input with
    | (.ok (), zfs) => (true, { l with zfs })
    | (.error _, zfs) => (false, { l with zfs })
  else (false, l)

/-- And its end: record what was received. -/
def record (l : Listener) (saved : Bool) (header : Header) : Listener :=
  { l with
    targets := (l.targets.recordSnapshot saved header.replicaName header.snapshotId).2 }

/-- The agent restarts: what was not saved is gone. -/
def restart (l : Listener) : Listener := { l with targets := .load l.targets.saved }

end Listener

/-! ## The primary's loop -/

structure ReplicationLoop where
  replicaName : String
  dataset : String
  lastConfirmedSent : Option String
  tick : ℕ

/-- `Result<(), SendOnceError>`. -/
inductive SendOnce
  | ok
  | needFull
  | io
deriving DecidableEq

/-- `format!("keel-repl-{tick}")`. -/
def snapshotId (tick : ℕ) : String := "keel-repl-" ++ toString tick

namespace ReplicationLoop

def spawn (replicaName volumeName pool : String) : ReplicationLoop :=
  ⟨replicaName, volumeDatasetPath pool volumeName, none, 0⟩

/-- The header of this tick. -/
def header (loop : ReplicationLoop) : Header :=
  ⟨loop.replicaName, snapshotId loop.tick, loop.lastConfirmedSent⟩

/-- Snapshot the volume for this tick. -/
def takeSnapshot (loop : ReplicationLoop) (works : Bool) (fresh : Stamp) (zfs : FakeZfsManager) :
    Bool × FakeZfsManager :=
  if works then
    match zfs.snapshot loop.dataset (snapshotId loop.tick) fresh with
    | (.ok (), zfs) => (true, zfs)
    | (.error _, zfs) => (false, zfs)
  else (false, zfs)

/-- The stream of this tick, if `zfs send` has what it takes. -/
def stream (loop : ReplicationLoop) (zfs : FakeZfsManager) : Option SendStream :=
  (zfs.sendSnapshot loop.dataset (snapshotId loop.tick) loop.lastConfirmedSent).toOption

/-- What the loop makes of `send_once`: on success prune the previous
base and move to the new one, on a rejection drop the base. -/
def conclude (loop : ReplicationLoop) (pruned : Bool) (result : SendOnce) (zfs : FakeZfsManager) :
    ReplicationLoop × FakeZfsManager :=
  match result with
  | .ok =>
    ({ loop with lastConfirmedSent := some (snapshotId loop.tick) },
      match loop.lastConfirmedSent with
      | some previous => if pruned then (zfs.destroySnapshot loop.dataset previous).2 else zfs
      | none => zfs)
  | .needFull => ({ loop with lastConfirmedSent := none }, zfs)
  | .io => (loop, zfs)

end ReplicationLoop

/-- The volume of `db-0`. -/
def Sample.volume : String := volumeDatasetPath "zroot" "db-0-data"

end Agent

end Keel
