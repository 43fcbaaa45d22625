import Mathlib.Data.Finset.Basic
import Keel.Common.Net
/-!
# The control plane's tables

`Placements`, `Standbys` and `PendingFences` are flat maps from a jail's
name to a node's id, with the map's own `lookup`, `insert` and `erase`
for `get`, `set` and `remove`. `UsedAddresses` keeps two maps in step:
the addresses used on each node, and the node and address of each jail.
-/

namespace Keel

namespace ControlPlane

/-- Which node each jail is placed on. -/
abbrev Placements := Table String

/-- Which node is each stateful replica's standby. -/
abbrev Standbys := Table String

/-- Which node is owed a forced delete of each replica: one node a
replica. -/
abbrev PendingFences := Table String

/-- Every replica currently owed a forced delete on `nodeId`. -/
def PendingFences.forNode (fences : PendingFences) (ord : IterOrder) (nodeId : String) :
    List String :=
  ((fences.iter ord).filter fun entry => entry.2 = nodeId).map Prod.fst

/-- Which addresses are assigned to a replica, per node and per jail. -/
structure UsedAddresses where
  usedByNode : Table (Finset Ipv4Addr)
  byJail : Table (String × Ipv4Addr)

namespace UsedAddresses

def new : UsedAddresses := ⟨∅, ∅⟩

def isUsed (u : UsedAddresses) (nodeId : String) (addr : Ipv4Addr) : Bool :=
  (u.usedByNode.lookup nodeId).any fun set => addr ∈ set

def release (u : UsedAddresses) (jailName : String) : UsedAddresses :=
  match u.byJail.lookup jailName with
  | none => u
  | some (nodeId, addr) =>
    { byJail := u.byJail.erase jailName
      usedByNode :=
        match u.usedByNode.lookup nodeId with
        | none => u.usedByNode
        | some set => u.usedByNode.insert nodeId (set.erase addr) }

def record (u : UsedAddresses) (jailName nodeId : String) (addr : Ipv4Addr) : UsedAddresses :=
  let u' := u.release jailName
  { usedByNode :=
      u'.usedByNode.insert nodeId (insert addr ((u'.usedByNode.lookup nodeId).getD ∅))
    byJail := u'.byJail.insert jailName (nodeId, addr) }

def addressOf (u : UsedAddresses) (jailName : String) : Option Ipv4Addr :=
  (u.byJail.lookup jailName).map Prod.snd

end UsedAddresses

/-- The first address of `podCidr` free on `nodeId`, past the first host,
which is the node's bridge gateway. -/
def firstFreeAddress (podCidr : Ipv4Net) (nodeId : String) (used : UsedAddresses) :
    Option Ipv4Addr :=
  (podCidr.hosts.drop 1).find? fun addr => !used.isUsed nodeId addr

end ControlPlane

end Keel
