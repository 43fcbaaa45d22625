import Keel.Common.Block
import Keel.ControlPlane.Model.Run
/-!
# Pod networks

A node's pod network is the `/24` block of the cluster network its id
hashes to; a registration that would give two nodes one block is refused.
Over any sequence of registrations and heartbeats the nodes' pod networks
are disjoint blocks of the cluster network, and a node's never changes
(`podCidrs_partition`).
-/

namespace Keel

namespace ControlPlane

/-! ## One block -/

section Block

variable {cidr : Ipv4Net} (hcidr : cidr.prefixLen ≤ podPrefixLen) (id : String)

include hcidr

/-- The cluster network is a whole number of `/24` blocks. -/
theorem size_eq_blocks : cidr.size = 2 ^ (podPrefixLen - cidr.prefixLen) * 2 ^ (32 - podPrefixLen) := by
  rw [Ipv4Net.size, ← pow_add]
  congr 1
  rw [podPrefixLen] at hcidr ⊢
  omega

/-- The last address of the block is one of the cluster network's. -/
theorem podOffset_lt :
    (fnv1a (utf8 id)).toNat % 2 ^ (podPrefixLen - cidr.prefixLen) * 2 ^ (32 - podPrefixLen) +
      2 ^ (32 - podPrefixLen) ≤ cidr.size := by
  have hlt := Nat.mod_lt (fnv1a (utf8 id)).toNat (Nat.two_pow_pos (podPrefixLen - cidr.prefixLen))
  rw [size_eq_blocks hcidr, ← Nat.succ_mul]
  exact Nat.mul_le_mul_right _ hlt

/-- The sum of network and offset does not wrap. -/
theorem toNat_derivePodCidr :
    (derivePodCidr id cidr).addr.toNat = cidr.network.toNat +
      (fnv1a (utf8 id)).toNat % 2 ^ (podPrefixLen - cidr.prefixLen) * 2 ^ (32 - podPrefixLen) := by
  have hlt := podOffset_lt hcidr id
  have hpos := Nat.two_pow_pos (32 - podPrefixLen)
  exact Ipv4Net.toNat_network_add _ (by omega)

omit hcidr in
theorem size_derivePodCidr : (derivePodCidr id cidr).size = 2 ^ (32 - podPrefixLen) := rfl

/-- The block starts at the address it is written with: the cluster
network starts at a multiple of its size. -/
theorem network_derivePodCidr : (derivePodCidr id cidr).network = (derivePodCidr id cidr).addr := by
  have hdvd : 2 ^ (32 - podPrefixLen) ∣ (derivePodCidr id cidr).addr.toNat := by
    rw [toNat_derivePodCidr hcidr]
    refine Nat.dvd_add (dvd_trans ?_ cidr.size_dvd_network) (Nat.dvd_mul_left _ _)
    rw [size_eq_blocks hcidr]
    exact Nat.dvd_mul_left _ _
  apply BitVec.eq_of_toNat_eq
  rw [Ipv4Net.toNat_network, size_derivePodCidr]
  exact Nat.div_mul_cancel hdvd

/-- **A node's block is within the cluster network.** -/
theorem contains_of_derivePodCidr {a : Ipv4Addr} (h : (derivePodCidr id cidr).contains a = true) :
    cidr.contains a = true := by
  have hlt := podOffset_lt hcidr id
  rw [Ipv4Net.contains_iff, network_derivePodCidr hcidr, toNat_derivePodCidr hcidr,
    size_derivePodCidr] at h
  rw [Ipv4Net.contains_iff]
  omega

/-- Two nodes' blocks are one block, or disjoint. -/
theorem derivePodCidr_eq_of_contains {id' : String} {a : Ipv4Addr}
    (h : (derivePodCidr id cidr).contains a = true)
    (h' : (derivePodCidr id' cidr).contains a = true) :
    derivePodCidr id cidr = derivePodCidr id' cidr := by
  have hlen : (derivePodCidr id cidr).prefixLen = (derivePodCidr id' cidr).prefixLen := by
    simp only [derivePodCidr]
  have hnetwork := Ipv4Net.network_eq_of_contains (derivePodCidr id' cidr) hlen h h'
  rw [network_derivePodCidr hcidr, network_derivePodCidr hcidr] at hnetwork
  simp only [derivePodCidr] at hnetwork ⊢
  rw [hnetwork]

end Block

/-! ## The registry -/

namespace Registry

/-- Each node has the block its id hashes to, and no other node has it. -/
structure Blocks (cidr : Ipv4Net) (r : Registry) : Prop where
  cidr_eq : r.clusterCidr = cidr
  derived : ∀ id podCidr, r.podCidr id = some podCidr → podCidr = derivePodCidr id cidr
  distinct : ∀ id id' podCidr, r.podCidr id = some podCidr → r.podCidr id' = some podCidr → id = id'

variable {cidr : Ipv4Net} {r : Registry}

/-- **What a registration comes to**: refused, with another node on the
block, and nothing changed; or accepted, and the node put in. -/
theorem register_cases (r : Registry) (id addr : String) (replicateAddr : Option String)
    (capacityCpu : ℚ) (capacityMemory : ℕ) (now : Instant) :
    (∃ e, r.register id addr replicateAddr capacityCpu capacityMemory now = (.error e, r) ∧
      e.conflictingNodeId ≠ id ∧
      r.podCidr e.conflictingNodeId = some (derivePodCidr id r.clusterCidr)) ∨
      ∃ record, record.podCidr = derivePodCidr id r.clusterCidr ∧
        (∀ id', id' ≠ id → r.podCidr id' ≠ some (derivePodCidr id r.clusterCidr)) ∧
        r.register id addr replicateAddr capacityCpu capacityMemory now =
          (.ok (derivePodCidr id r.clusterCidr), { r with nodes := r.nodes.insert id record }) := by
  simp only [register]
  split
  · rename_i e hfind
    have hmem := List.mem_of_find?_eq_some hfind
    have hcond := List.find?_some hfind
    simp only [decide_eq_true_eq] at hcond
    refine Or.inl ⟨_, rfl, hcond.1, ?_⟩
    rw [podCidr, AList.mem_lookup_iff.2 hmem, Option.map_some, hcond.2]
  · rename_i hnone
    refine Or.inr ⟨_, rfl, fun id' hne hpod => ?_, rfl⟩
    obtain ⟨record, hlookup, hpod⟩ := Option.map_eq_some_iff.1 hpod
    have := List.find?_eq_none.1 hnone ⟨id', record⟩ (AList.mem_lookup_iff.1 hlookup)
    simp only [decide_eq_true_eq] at this
    exact this ⟨hne, hpod⟩

/-- A heartbeat leaves every pod network as it was. -/
theorem podCidr_heartbeat (r : Registry) (id : String) (committedCpu : ℚ) (committedMemory : ℕ)
    (jails : List JailHealth) (now : Instant) (k : String) :
    (r.heartbeat id committedCpu committedMemory jails now).2.podCidr k = r.podCidr k := by
  simp only [heartbeat]
  split
  · rename_i record hrecord
    simp only [podCidr, Table.lookup_insert_eq]
    split
    · rename_i hk
      rw [hk, hrecord]
      rfl
    · rfl
  · rfl

theorem clusterCidr_heartbeat (r : Registry) (id : String) (committedCpu : ℚ)
    (committedMemory : ℕ) (jails : List JailHealth) (now : Instant) :
    (r.heartbeat id committedCpu committedMemory jails now).2.clusterCidr = r.clusterCidr := by
  simp only [heartbeat]
  split <;> rfl

theorem podCidr_insert (r : Registry) (id k : String) (record : NodeRecord) :
    podCidr { r with nodes := r.nodes.insert id record } k =
      if k = id then some record.podCidr else r.podCidr k := by
  simp only [podCidr, Table.lookup_insert_eq]
  split <;> rfl

theorem Blocks.new (cidr : Ipv4Net) : (Registry.new cidr).Blocks cidr :=
  ⟨rfl, nofun, nofun⟩

theorem Blocks.call (h : r.Blocks cidr) (c : RegistryCall) : (r.call c).Blocks cidr := by
  cases c with
  | heartbeat id committedCpu committedMemory jails now =>
    have hpod := r.podCidr_heartbeat id committedCpu committedMemory jails now
    refine ⟨?_, fun k podCidr hk => ?_, fun k k' podCidr hk hk' => ?_⟩
    · rw [Registry.call, clusterCidr_heartbeat, h.cidr_eq]
    · rw [Registry.call, hpod] at hk
      exact h.derived k podCidr hk
    · rw [Registry.call, hpod] at hk hk'
      exact h.distinct k k' podCidr hk hk'
  | register id addr replicateAddr capacityCpu capacityMemory now =>
    rw [Registry.call]
    rcases r.register_cases id addr replicateAddr capacityCpu capacityMemory now with
      ⟨e, heq, -, -⟩ | ⟨record, hpod, hfree, heq⟩
    · rwa [heq]
    · rw [heq]
      rw [h.cidr_eq] at hpod hfree
      refine ⟨h.cidr_eq, fun k podCidr hk => ?_, fun k k' podCidr hk hk' => ?_⟩
      · rw [podCidr_insert] at hk
        split at hk
        · rename_i hid
          cases hk
          rw [hpod, hid]
        · exact h.derived k podCidr hk
      · -- The block of the node put in is nobody else's.
        rw [podCidr_insert] at hk hk'
        split at hk <;> split at hk'
        · rename_i hid hid'
          rw [hid, hid']
        · rename_i hne
          cases hk
          rw [hpod] at hk'
          exact absurd hk' (hfree k' hne)
        · rename_i hne _
          cases hk'
          rw [hpod] at hk
          exact absurd hk (hfree k hne)
        · exact h.distinct k k' podCidr hk hk'

theorem Blocks.calls (h : r.Blocks cidr) (l : List RegistryCall) : (r.calls l).Blocks cidr := by
  induction l generalizing r with
  | nil => exact h
  | cons c l ih => exact ih (h.call c)

end Registry

/-! ## The addresses of jails -/

/-- **An address for a jail**: one of the network's, and neither the
network's own, nor its broadcast, nor the first host, which is the node's
bridge. -/
structure JailAddress (podCidr : Ipv4Net) (a : Ipv4Addr) : Prop where
  contained : podCidr.contains a = true
  ne_network : a ≠ podCidr.network
  ne_broadcast : a ≠ podCidr.broadcast
  ne_bridge : podCidr.hosts.head? ≠ some a

/-- The hosts past the first are such addresses, of a `/24`. -/
theorem Registry.Blocks.jailAddress {cidr podCidr : Ipv4Net} {r : Registry} {n : String}
    {a : Ipv4Addr} (h : r.Blocks cidr) (hpod : r.podCidr n = some podCidr)
    (ha : a ∈ podCidr.hosts.drop 1) : JailAddress podCidr a := by
  have hlen : podCidr.prefixLen < 31 := by
    rw [h.derived n podCidr hpod]
    exact (by decide : podPrefixLen < 31)
  obtain ⟨hlo, hhi⟩ := podCidr.toNat_of_mem_hosts_drop hlen ha
  refine ⟨podCidr.contains_of_mem_hosts (List.mem_of_mem_drop ha), ?_, ?_, fun hfirst => ?_⟩
  · rintro rfl
    omega
  · rintro rfl
    omega
  · have hfirst := podCidr.head?_hosts hlen hfirst
    omega

/-! ## Every sequence of calls -/

/-- **What is promised of pod networks**, of a registry over the network
`cidr`. -/
structure PodCidrPartition (cidr : Ipv4Net) (r : Registry) : Prop where
  /-- A pod network is a `/24`, aligned and within the cluster network. -/
  inside : ∀ id podCidr, r.podCidr id = some podCidr →
    podCidr.prefixLen = 24 ∧ podCidr.network = podCidr.addr ∧
      ∀ a, podCidr.contains a = true → cidr.contains a = true
  /-- The arithmetic it is computed by stays within 32 bits. -/
  fits : ∀ id, 2 ^ (24 - cidr.prefixLen) < 2 ^ 32 ∧
    cidr.network.toNat + (fnv1a (utf8 id)).toNat % 2 ^ (24 - cidr.prefixLen) * 2 ^ (32 - 24) < 2 ^ 32
  disjoint : ∀ id id' podCidr podCidr', r.podCidr id = some podCidr →
    r.podCidr id' = some podCidr' → id ≠ id' →
      ∀ a, ¬ (podCidr.contains a = true ∧ podCidr'.contains a = true)
  /-- A node that registers again is given the network it has. -/
  again : ∀ id podCidr, r.podCidr id = some podCidr →
    ∀ addr replicateAddr capacityCpu capacityMemory now,
      (r.register id addr replicateAddr capacityCpu capacityMemory now).1 = .ok podCidr
  /-- A refusal leaves every node as it was. -/
  unchanged : ∀ id addr replicateAddr capacityCpu capacityMemory now e,
    (r.register id addr replicateAddr capacityCpu capacityMemory now).1 = .error e →
      (r.register id addr replicateAddr capacityCpu capacityMemory now).2 = r

/-- **Pod networks partition the cluster network**, over every sequence of
registrations and heartbeats. -/
theorem podCidrs_partition (cidr : Ipv4Net) (hcidr : cidr.prefixLen ≤ 24) (l : List RegistryCall) :
    PodCidrPartition cidr ((Registry.new cidr).calls l) := by
  have h := (Registry.Blocks.new cidr).calls l
  refine ⟨fun id podCidr hpod => ?_, fun id => ?_, fun id id' podCidr podCidr' hpod hpod' hne a => ?_,
    fun id podCidr hpod addr replicateAddr capacityCpu capacityMemory now => ?_,
    fun id addr replicateAddr capacityCpu capacityMemory now e he => ?_⟩
  · rw [h.derived id podCidr hpod]
    exact ⟨rfl, network_derivePodCidr hcidr id, fun a => contains_of_derivePodCidr hcidr id⟩
  · refine ⟨Nat.pow_lt_pow_right (by decide) (by omega), ?_⟩
    have hfit := (derivePodCidr id cidr).addr.isLt
    rw [toNat_derivePodCidr hcidr id] at hfit
    exact hfit
  · -- Blocks that share an address are one block, and so is the node.
    rintro ⟨ha, ha'⟩
    rw [h.derived id podCidr hpod] at ha hpod
    rw [h.derived id' podCidr' hpod'] at ha' hpod'
    rw [derivePodCidr_eq_of_contains hcidr id ha ha'] at hpod
    exact hne (h.distinct id id' _ hpod hpod')
  · -- A node on the block it would be given is the node itself.
    have hpod' := hpod
    rw [h.derived id podCidr hpod] at hpod' ⊢
    rcases Registry.register_cases _ id addr replicateAddr capacityCpu capacityMemory now with
      ⟨e, -, hne, hother⟩ | ⟨record, -, -, heq⟩
    · rw [h.cidr_eq] at hother
      exact absurd (h.distinct _ _ _ hother hpod') hne
    · rw [heq, h.cidr_eq]
  · rcases Registry.register_cases _ id addr replicateAddr capacityCpu capacityMemory now with
      ⟨e', heq, -, -⟩ | ⟨record, -, -, heq⟩
    · rw [heq]
    · rw [heq] at he
      cases he

/-- Two nodes in a network at the top of the address space, one of them
registered twice. -/
theorem podCidrs_partition_sample :
    PodCidrPartition ⟨Ipv4Addr.ofOctets 255 255 254 7, 23, by decide⟩
      ((Registry.new ⟨Ipv4Addr.ofOctets 255 255 254 7, 23, by decide⟩).calls
        [.register "a" "a:7621" none 4 1024 0, .register "b" "b:7621" none 4 1024 0,
          .heartbeat "a" 0 0 [] 5, .register "a" "a:7621" none 4 1024 9]) :=
  podCidrs_partition _ (by decide) _

end ControlPlane

end Keel
