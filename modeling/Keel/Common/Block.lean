import Mathlib.Data.Nat.ModEq
import Mathlib.Data.Finset.Card
import Mathlib.Data.Finset.Image
import Keel.Common.Net
/-!
# Blocks of addresses

A network is a block of consecutive addresses, as many as its size, from
an address that is a multiple of the size: an offset below the size is
added to it without wrapping. And a block is covered, each address once,
by as many consecutive hash values as it has addresses.
-/

namespace Keel

namespace Ipv4Net
variable (n : Ipv4Net)

/-- How many addresses the network has. -/
def size : ℕ := 2 ^ (32 - n.prefixLen)

theorem size_pos : 0 < n.size := Nat.two_pow_pos _

theorem size_le : n.size ≤ 2 ^ 32 := Nat.pow_le_pow_right (by decide) (Nat.sub_le _ _)

theorem size_dvd : n.size ∣ 2 ^ 32 := pow_dvd_pow 2 (Nat.sub_le _ _)

theorem toNat_hostmask : n.hostmask.toNat = n.size - 1 := by
  have hpos := n.size_pos
  have hle := n.size_le
  rw [hostmask, BitVec.toNat_ofNat, ← size, Nat.mod_eq_of_lt (by omega)]

theorem getLsbD_hostmask (i : ℕ) :
    n.hostmask.getLsbD i = (decide (i < 32) && decide (i < 32 - n.prefixLen)) := by
  rw [hostmask, BitVec.getLsbD_ofNat, Nat.testBit_two_pow_sub_one]

/-- The network is its address with the bits below the prefix cleared. -/
theorem toNat_network : n.network.toNat = n.addr.toNat / n.size * n.size := by
  have hshift : n.network = (n.addr >>> (32 - n.prefixLen)) <<< (32 - n.prefixLen) := by
    apply BitVec.eq_of_getLsbD_eq
    intro i hi
    rw [network, BitVec.getLsbD_and, BitVec.getLsbD_not, getLsbD_hostmask,
      BitVec.getLsbD_shiftLeft, BitVec.getLsbD_ushiftRight]
    by_cases h : i < 32 - n.prefixLen
    · simp [h, hi]
    · simp [h, hi, Nat.add_sub_cancel' (Nat.le_of_not_lt h)]
  have hle : n.addr.toNat / n.size * n.size ≤ n.addr.toNat := Nat.div_mul_le_self _ _
  rw [hshift, BitVec.toNat_shiftLeft, BitVec.toNat_ushiftRight, Nat.shiftRight_eq_div_pow,
    Nat.shiftLeft_eq, ← size, Nat.mod_eq_of_lt (lt_of_le_of_lt hle n.addr.isLt)]

theorem size_dvd_network : n.size ∣ n.network.toNat := by
  rw [toNat_network]
  exact Nat.dvd_mul_left _ _

/-- The last address is still one of 32 bits. -/
theorem network_add_size_le : n.network.toNat + n.size ≤ 2 ^ 32 := by
  obtain ⟨q, hq⟩ := n.size_dvd_network
  obtain ⟨k, hk⟩ := n.size_dvd
  have hlt : n.size * q < n.size * k := by
    rw [← hq, ← hk]
    exact n.network.isLt
  have hqk : q + 1 ≤ k := Nat.lt_of_mul_lt_mul_left hlt
  rw [hq, hk, ← Nat.mul_succ]
  exact Nat.mul_le_mul_left _ hqk

theorem toNat_broadcast : n.broadcast.toNat = n.network.toNat + (n.size - 1) := by
  have hsum : n.broadcast = n.network + n.hostmask := by
    rw [BitVec.add_eq_or_of_and_eq_zero]
    · apply BitVec.eq_of_getLsbD_eq
      intro i hi
      simp only [broadcast, network, BitVec.getLsbD_or, BitVec.getLsbD_and, BitVec.getLsbD_not, hi]
      cases n.addr.getLsbD i <;> cases n.hostmask.getLsbD i <;> rfl
    · apply BitVec.eq_of_getLsbD_eq
      intro i hi
      simp only [network, BitVec.getLsbD_and, BitVec.getLsbD_not, hi, BitVec.getLsbD_zero]
      cases n.addr.getLsbD i <;> cases n.hostmask.getLsbD i <;> rfl
  have hpos := n.size_pos
  have hle := n.network_add_size_le
  rw [hsum, BitVec.toNat_add, toNat_hostmask, Nat.mod_eq_of_lt (by omega)]

/-- **A network is a block** of consecutive addresses. -/
theorem contains_iff (a : Ipv4Addr) :
    n.contains a = true ↔ n.network.toNat ≤ a.toNat ∧ a.toNat < n.network.toNat + n.size := by
  have hpos := n.size_pos
  rw [contains, decide_eq_true_eq, BitVec.le_def, BitVec.le_def, toNat_broadcast]
  omega

/-- A host address is one of the network's. -/
theorem contains_of_mem_hosts {a : Ipv4Addr} (h : a ∈ n.hosts) : n.contains a = true := by
  have hpos := n.size_pos
  have hle := n.network_add_size_le
  rw [contains_iff]
  rw [hosts, toNat_broadcast] at h
  split at h <;>
  · obtain ⟨i, hi, rfl⟩ := List.mem_map.1 h
    rw [List.mem_range'_1] at hi
    rw [BitVec.toNat_ofNat, Nat.mod_eq_of_lt (by omega)]
    omega

/-- A host past the first one is strictly between that and the
broadcast. -/
theorem toNat_of_mem_hosts_drop (hlen : n.prefixLen < 31) {a : Ipv4Addr}
    (h : a ∈ n.hosts.drop 1) :
    n.network.toNat + 1 < a.toNat ∧ a.toNat < n.broadcast.toNat := by
  have hlt := n.broadcast.isLt
  rw [hosts, if_pos hlen, ← List.map_drop, List.drop_one, List.tail_range'] at h
  obtain ⟨i, hi, rfl⟩ := List.mem_map.1 h
  rw [List.mem_range'_1] at hi
  rw [BitVec.toNat_ofNat, Nat.mod_eq_of_lt (by omega)]
  omega

theorem head?_hosts (hlen : n.prefixLen < 31) {a : Ipv4Addr} (h : n.hosts.head? = some a) :
    a.toNat = n.network.toNat + 1 := by
  have hlt := n.broadcast.isLt
  rw [hosts, if_pos hlen, List.head?_map, List.head?_range'] at h
  split at h
  · cases h
  · rename_i hsome
    rw [Option.map_some, Option.some.injEq] at h
    rw [← h, BitVec.toNat_ofNat, Nat.mod_eq_of_lt (by omega)]

/-- Adding an offset below the block's size does not wrap. -/
theorem toNat_network_add {i : ℕ} (hi : i < n.size) :
    (n.network + BitVec.ofNat 32 i).toNat = n.network.toNat + i := by
  have hle := n.network_add_size_le
  rw [BitVec.toNat_add, BitVec.toNat_ofNat, Nat.add_mod_mod, Nat.mod_eq_of_lt (by omega)]

theorem contains_network_add {i : ℕ} (hi : i < n.size) :
    n.contains (n.network + BitVec.ofNat 32 i) = true := by
  rw [contains_iff, toNat_network_add n hi]
  omega

/-- An address of the block is the network plus an offset. -/
theorem eq_network_add {a : Ipv4Addr} (h : n.contains a = true) :
    a = n.network + BitVec.ofNat 32 (a.toNat - n.network.toNat) := by
  rw [contains_iff] at h
  apply BitVec.eq_of_toNat_eq
  rw [toNat_network_add n (by omega)]
  omega

/-- The addresses of the block. -/
def block : Finset Ipv4Addr := (Finset.range n.size).image fun i => n.network + BitVec.ofNat 32 i

theorem mem_block {a : Ipv4Addr} : a ∈ n.block ↔ n.contains a = true := by
  simp only [block, Finset.mem_image, Finset.mem_range]
  constructor
  · rintro ⟨i, hi, rfl⟩
    exact n.contains_network_add hi
  · intro h
    refine ⟨a.toNat - n.network.toNat, ?_, (n.eq_network_add h).symm⟩
    rw [contains_iff] at h
    omega

theorem card_block : n.block.card = n.size := by
  rw [block, Finset.card_image_of_injOn, Finset.card_range]
  intro i hi j hj heq
  rw [Finset.coe_range, Set.mem_Iio] at hi hj
  have hnat := congrArg BitVec.toNat heq
  rw [toNat_network_add n hi, toNat_network_add n hj] at hnat
  omega

/-- Two networks of one size meet only if they are the same block. -/
theorem network_eq_of_contains {m : Ipv4Net} (hlen : m.prefixLen = n.prefixLen) {a : Ipv4Addr}
    (hm : m.contains a = true) (hn : n.contains a = true) : m.network = n.network := by
  have hsize : m.size = n.size := by rw [size, size, hlen]
  obtain ⟨q, hq⟩ := n.size_dvd_network
  obtain ⟨q', hq'⟩ := m.size_dvd_network
  rw [contains_iff] at hm hn
  rw [hsize] at hq' hm
  rw [hq'] at hm
  rw [hq] at hn
  apply BitVec.eq_of_toNat_eq
  -- Both quotients are the address's own.
  have hdiv : ∀ k, n.size * k ≤ a.toNat → a.toNat < n.size * k + n.size → a.toNat / n.size = k := by
    intro k hlo hhi
    exact Nat.div_eq_of_lt_le (by rwa [Nat.mul_comm]) (by rwa [Nat.succ_mul, Nat.mul_comm])
  rw [hq, hq', ← hdiv q' hm.1 hm.2, ← hdiv q hn.1 hn.2]

/-! ## Blocks within blocks -/

/-- An address is its network and what is left below the prefix. -/
theorem toNat_addr : n.addr.toNat = n.network.toNat + n.addr.toNat % n.size := by
  rw [toNat_network, Nat.div_add_mod']

theorem contains_addr : n.contains n.addr = true := by
  have haddr := n.toNat_addr
  have hlt := Nat.mod_lt n.addr.toNat n.size_pos
  rw [contains_iff]
  omega

theorem size_of_prefixLen_eq (h : n.prefixLen = 32) : n.size = 1 := by
  rw [size, h, Nat.sub_self, pow_zero]

/-- Any other network has a second address. -/
theorem two_le_size (h : n.prefixLen ≠ 32) : 2 ≤ n.size := by
  have hle := n.prefixLen_le
  calc 2 = 2 ^ 1 := rfl
    _ ≤ 2 ^ (32 - n.prefixLen) := Nat.pow_le_pow_right (by decide) (by omega)

/-- **Nested blocks.** A network with an address in another lies in it
exactly when its prefix is no shorter. -/
theorem forall_contains_iff {m : Ipv4Net} (haddr : m.contains n.addr = true) :
    (∀ a, n.contains a = true → m.contains a = true) ↔ m.prefixLen ≤ n.prefixLen := by
  have hn := n.contains_addr
  rw [contains_iff] at haddr hn
  constructor
  · intro h
    by_contra hlt
    have hsize : m.size < n.size :=
      Nat.pow_lt_pow_right (by decide) (by have := m.prefixLen_le; omega)
    have hfirst := h n.network ((n.contains_iff _).2 ⟨le_rfl, by have := n.size_pos; omega⟩)
    have hlast := h n.broadcast ((n.contains_iff _).2
      ⟨by rw [toNat_broadcast]; omega, by rw [toNat_broadcast]; have := n.size_pos; omega⟩)
    rw [contains_iff] at hfirst hlast
    rw [toNat_broadcast] at hlast
    omega
  · intro hle a ha
    -- both ends of the outer block are multiples of the inner one's size
    obtain ⟨c, hc⟩ : n.size ∣ m.size := pow_dvd_pow 2 (by omega)
    obtain ⟨k, hk⟩ : n.size ∣ m.network.toNat := dvd_trans ⟨c, hc⟩ m.size_dvd_network
    obtain ⟨q, hq⟩ := n.size_dvd_network
    rw [contains_iff] at ha ⊢
    rw [hk, hc] at haddr ⊢
    rw [hq] at ha hn
    have hlow : k ≤ q := by
      have hlt : n.size * k < n.size * (q + 1) := by rw [Nat.mul_succ]; omega
      exact Nat.lt_succ_iff.1 (Nat.lt_of_mul_lt_mul_left hlt)
    have hhigh : q + 1 ≤ k + c := by
      have hlt : n.size * q < n.size * (k + c) := by rw [Nat.mul_add]; omega
      exact Nat.lt_of_mul_lt_mul_left hlt
    have hfront := Nat.mul_le_mul_left n.size hlow
    have hback := Nat.mul_le_mul_left n.size hhigh
    rw [Nat.mul_succ, Nat.mul_add] at hback
    omega

end Ipv4Net

/-! ## Probing -/

/-- Wrapping at `2 ^ 32` is no different from not wrapping, once reduced
modulo what divides it. -/
theorem toNat_add_mod {m : ℕ} (hm : m ∣ 2 ^ 32) (hash : BitVec 32) (attempt : ℕ) :
    (hash + BitVec.ofNat 32 attempt).toNat % m = (hash.toNat + attempt) % m := by
  rw [BitVec.toNat_add, BitVec.toNat_ofNat, Nat.mod_mod_of_dvd _ hm, Nat.add_mod,
    Nat.mod_mod_of_dvd _ hm, ← Nat.add_mod]

/-- **A probe visits every index once.** -/
theorem existsUnique_probe {m i : ℕ} (hi : i < m) (start : ℕ) :
    ∃! attempt, attempt < m ∧ (start + attempt) % m = i := by
  have hm : 0 < m := by omega
  have hstart := Nat.mod_lt start hm
  have hvisits : (start + (i + (m - start % m)) % m) % m = i := by
    rw [Nat.add_mod_mod, Nat.add_mod, ← Nat.mod_mod start m, ← Nat.add_mod, Nat.mod_mod,
      show start % m + (i + (m - start % m)) = i + m by omega, Nat.add_mod_right,
      Nat.mod_eq_of_lt hi]
  refine ⟨(i + (m - start % m)) % m, ⟨Nat.mod_lt _ hm, hvisits⟩, ?_⟩
  rintro attempt ⟨hlt, heq⟩
  have hcong : start + attempt ≡ start + (i + (m - start % m)) % m [MOD m] := by
    rw [Nat.ModEq, heq, hvisits]
  have hmod := hcong.add_left_cancel' start
  rw [Nat.ModEq, Nat.mod_eq_of_lt hlt, Nat.mod_mod] at hmod
  exact hmod

end Keel
