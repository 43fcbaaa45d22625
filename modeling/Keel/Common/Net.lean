import Mathlib.Data.BitVec
import Mathlib.Data.List.AList
/-!
# Addresses, networks and tables

IPv4 addresses and networks as the `ipnet` types have them, and what a
hash map gives a program: lookup by key, and an iteration order that
nothing specifies.
-/

namespace Keel

/-- An IPv4 address, as its 32 bits. -/
abbrev Ipv4Addr := BitVec 32

namespace Ipv4Addr

/-- The `i`-th octet, most significant first. -/
def octet (a : Ipv4Addr) (i : ℕ) : ℕ := a.toNat / 256 ^ (3 - i) % 256

/-- Dotted decimal. -/
def display (a : Ipv4Addr) : String :=
  toString (octet a 0) ++ "." ++ toString (octet a 1) ++ "." ++ toString (octet a 2) ++ "." ++
    toString (octet a 3)

/-- The address of four octets. -/
def ofOctets (a b c d : ℕ) : Ipv4Addr := BitVec.ofNat 32 (((a * 256 + b) * 256 + c) * 256 + d)

end Ipv4Addr

/-- An IPv4 network: any address of it, and a prefix length. -/
structure Ipv4Net where
  addr : Ipv4Addr
  prefixLen : ℕ
  prefixLen_le : prefixLen ≤ 32
deriving DecidableEq

namespace Ipv4Net

/-- The bits below the prefix, all set. -/
def hostmask (n : Ipv4Net) : Ipv4Addr := BitVec.ofNat 32 (2 ^ (32 - n.prefixLen) - 1)

def network (n : Ipv4Net) : Ipv4Addr := n.addr &&& ~~~ n.hostmask

def broadcast (n : Ipv4Net) : Ipv4Addr := n.addr ||| n.hostmask

/-- The host addresses in order: network and broadcast are left out of
any network with room for more than those two. -/
def hosts (n : Ipv4Net) : List Ipv4Addr :=
  if n.prefixLen < 31 then
    (List.range' (n.network.toNat + 1) (n.broadcast.toNat - 1 - n.network.toNat)).map
      (BitVec.ofNat 32)
  else
    (List.range' n.network.toNat (n.broadcast.toNat + 1 - n.network.toNat)).map (BitVec.ofNat 32)

def contains (n : Ipv4Net) (a : Ipv4Addr) : Bool :=
  decide (n.network ≤ a ∧ a ≤ n.broadcast)

def display (n : Ipv4Net) : String := n.addr.display ++ "/" ++ toString n.prefixLen

end Ipv4Net

/-- A table keyed by name: a hash map, less its iteration order. -/
abbrev Table (β : Type) := AList fun _ : String => β

/-- **An iteration order.** A hash map yields its keys in some order, and
nothing says which. -/
structure IterOrder where
  apply : List String → List String
  perm : ∀ l, (apply l).Perm l

namespace IterOrder

/-- The order the keys are listed in. -/
def listed : IterOrder := ⟨id, fun _ => List.Perm.refl _⟩

instance : Inhabited IterOrder := ⟨listed⟩

@[simp] theorem mem_apply (ord : IterOrder) {l : List String} {k : String} :
    k ∈ ord.apply l ↔ k ∈ l := (ord.perm l).mem_iff

theorem nodup_apply (ord : IterOrder) {l : List String} (h : l.Nodup) : (ord.apply l).Nodup :=
  (ord.perm l).nodup_iff.2 h

end IterOrder

namespace Table

variable {β : Type}

theorem mem_of_lookup {t : Table β} {k : String} {v : β} (h : t.lookup k = some v) : k ∈ t :=
  AList.lookup_isSome.1 (Option.isSome_iff_exists.2 ⟨v, h⟩)

theorem exists_of_mem {t : Table β} {k : String} (h : k ∈ t) : ∃ v, t.lookup k = some v :=
  Option.isSome_iff_exists.1 (AList.lookup_isSome.2 h)

theorem mem_keys_of_lookup {t : Table β} {k : String} {v : β} (h : t.lookup k = some v) :
    k ∈ t.keys :=
  AList.mem_keys.1 (mem_of_lookup h)

/-- The entries of a table, in an iteration order. -/
def iter (t : Table β) (ord : IterOrder) : List (String × β) :=
  (ord.apply t.keys).filterMap fun k => (t.lookup k).map fun v => (k, v)

theorem mem_iter {t : Table β} {ord : IterOrder} {k : String} {v : β} :
    (k, v) ∈ t.iter ord ↔ t.lookup k = some v := by
  simp only [iter, List.mem_filterMap, IterOrder.mem_apply, Option.map_eq_some_iff,
    Prod.mk.injEq]
  constructor
  · rintro ⟨k', -, v', hv, rfl, rfl⟩
    exact hv
  · intro h
    exact ⟨k, mem_keys_of_lookup h, v, h, rfl, rfl⟩

theorem lookup_insert_eq (t : Table β) (k k' : String) (v : β) :
    (t.insert k v).lookup k' = if k' = k then some v else t.lookup k' := by
  split
  · rename_i h; rw [h, AList.lookup_insert]
  · rename_i h; rw [AList.lookup_insert_ne h]

theorem lookup_erase_eq (t : Table β) (k k' : String) :
    (t.erase k).lookup k' = if k' = k then none else t.lookup k' := by
  split
  · rename_i h; rw [h, AList.lookup_erase]
  · rename_i h; rw [AList.lookup_erase_ne h]

end Table

end Keel
