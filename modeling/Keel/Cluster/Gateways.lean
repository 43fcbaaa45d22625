import Keel.Agent.Model.Http
import Keel.Cluster.Distinct
import Keel.ControlPlane.Subnets
import Keel.Node.Panics
/-!
# The gateway of a bridge

The first host address of a node's subnet is the gateway of its jails'
bridge. Three places have to agree on that: the agent computes the gateway
from a jail's address, its HTTP handler checks the address against the
subnet, and the control plane skips the first host where it assigns
addresses.

What the control plane assigns agrees with what the agent computes
(`assigned_addresses_agree`). What an operator writes need not: the handler
looks at the jail's own address only, and the rest of the network it is
written with, and the gateway, may lie outside the subnet or be the jail's
address (`subnetCheck_covers_iff`).
-/

namespace Keel

open Agent (Agentd)
open ControlPlane (derivePodCidr firstFreeAddress UsedAddresses podPrefixLen)
open Node (bridgeGateway Host)

/-! ## What the agent computes -/

/-- A network is displayed as no other is. -/
theorem Ipv4Net.display_inj {n m : Ipv4Net} (h : n.display = m.display) : n = m := by
  have hread := Agent.Sample.parse_display n
  rw [h, Agent.Sample.parse_display m] at hread
  obtain ⟨addr, prefixLen, hle⟩ := n
  obtain ⟨addr', prefixLen', hle'⟩ := m
  simp only [Except.ok.injEq, IpNet.v4.injEq] at hread
  obtain ⟨rfl, rfl⟩ := hread
  rfl

theorem Ipv4Net.ofNat_gateway (net : Ipv4Net) :
    BitVec.ofNat 32 (net.network.toNat + 1) = net.network + 1 := by
  refine BitVec.eq_of_toNat_eq ?_
  rw [BitVec.toNat_ofNat, BitVec.toNat_add]
  rfl

theorem Ipv4Net.toNat_gateway {net : Ipv4Net} (hroom : net.network.toNat + 1 < 2 ^ 32) :
    (net.network + 1).toNat = net.network.toNat + 1 := by
  rw [BitVec.toNat_add]
  exact Nat.mod_eq_of_lt hroom

/-- The gateway is the jail's own address when that is the first host of
its network. -/
theorem Ipv4Net.gateway_eq_addr_iff {net : Ipv4Net} (hroom : net.network.toNat + 1 < 2 ^ 32) :
    net.network + 1 = net.addr ↔ net.addr.toNat % net.size = 1 := by
  have haddr := net.toNat_addr
  rw [← BitVec.toNat_inj, Ipv4Net.toNat_gateway hroom]
  omega

section Gateway

variable [Ipnet] {address : String} {net : Ipv4Net}

/-- The gateway of a network that has an address after its first. -/
theorem bridgeGateway_of_lt (hnet : parseIpv4Net address = .ok net)
    (hroom : net.network.toNat + 1 < 2 ^ 32) :
    bridgeGateway address = .ok (Ipv4Net.display
      ⟨net.network + 1, net.prefixLen, net.prefixLen_le⟩) := by
  rw [bridgeGateway, hnet]
  simp only [Checked.add_of_lt hroom]
  rw [← Ipv4Net.ofNat_gateway]
  rfl

/-- There is no other: at the last address there is, it panics. -/
theorem lt_of_bridgeGateway {gateway : String} (hnet : parseIpv4Net address = .ok net)
    (h : bridgeGateway address = .ok gateway) : net.network.toNat + 1 < 2 ^ 32 := by
  by_contra hroom
  rw [bridgeGateway, hnet] at h
  simp only [Checked.add, if_neg hroom] at h
  cases h

/-- Attaching a jail puts the gateway on its bridge. -/
theorem attachJail_gateway {Text : Type} {gateway : String}
    (h : bridgeGateway address = .ok gateway) (machine : Host Text) {bridge : String}
    (hbridge : bridge ∈ machine.net.bridges) (name epairBase : String) :
    (machine.attachJail name bridge epairBase address).2.net.bridgeAddresses.lookup bridge =
      some gateway := by
  rw [Host.attachJail, if_pos hbridge, h]
  exact AList.lookup_insert _

/-! ## What the handler checks -/

/-- **The subnet covers an address**: the network it is written with, and
the gateway, lie in the subnet, and the gateway is not the jail's own
address. -/
structure Covers (podCidr : Ipv4Net) (address : String) (net : Ipv4Net) (gateway : Ipv4Addr) :
    Prop where
  parsed : parseIpv4Net address = .ok net
  inside : ∀ a, net.contains a = true → podCidr.contains a = true
  computed : bridgeGateway address =
    .ok (Ipv4Net.display ⟨gateway, net.prefixLen, net.prefixLen_le⟩)
  gateway_inside : podCidr.contains gateway = true
  gateway_ne : gateway ≠ net.addr
  /-- So this is what comes on the bridge. -/
  attached : ∀ {Text : Type} (machine : Host Text) (name bridge epairBase : String),
    bridge ∈ machine.net.bridges →
      (machine.attachJail name bridge epairBase address).2.net.bridgeAddresses.lookup bridge =
        some (Ipv4Net.display ⟨gateway, net.prefixLen, net.prefixLen_le⟩)

/-- Of an address in the subnet, which the subnet covers. -/
theorem covers_iff {podCidr : Ipv4Net} (hnet : parseIpv4Net address = .ok net)
    (hinside : podCidr.contains net.addr = true) :
    (∃ gateway, Covers podCidr address net gateway) ↔
      podCidr.prefixLen ≤ net.prefixLen ∧ net.addr.toNat % net.size ≠ 1 ∧
        (net.prefixLen = 32 → net.addr ≠ podCidr.broadcast) := by
  have hpod := (podCidr.contains_iff net.addr).1 hinside
  have hend := podCidr.network_add_size_le
  have haddr := net.toNat_addr
  constructor
  · rintro ⟨gateway, h⟩
    have hroom := lt_of_bridgeGateway hnet h.computed
    have hgateway : gateway = net.network + 1 := by
      have hsame := h.computed.symm.trans (bridgeGateway_of_lt hnet hroom)
      exact congrArg Ipv4Net.addr (Ipv4Net.display_inj (Except.ok.inj hsame))
    refine ⟨(net.forall_contains_iff hinside).1 h.inside, fun hfirst => ?_, fun hsingle heq => ?_⟩
    · exact h.gateway_ne (hgateway.trans ((Ipv4Net.gateway_eq_addr_iff hroom).2 hfirst))
    · have hin := (podCidr.contains_iff gateway).1 h.gateway_inside
      have hlast := congrArg BitVec.toNat heq
      rw [net.size_of_prefixLen_eq hsingle, Nat.mod_one] at haddr
      rw [podCidr.toNat_broadcast] at hlast
      rw [hgateway, Ipv4Net.toNat_gateway hroom] at hin
      omega
  · rintro ⟨hlen, hfirst, hlast⟩
    have hall := (net.forall_contains_iff hinside).2 hlen
    have hin : podCidr.network.toNat ≤ net.network.toNat + 1 ∧
        net.network.toNat + 1 < podCidr.network.toNat + podCidr.size := by
      by_cases hsingle : net.prefixLen = 32
      · have hne : net.addr.toNat ≠ podCidr.broadcast.toNat :=
          fun h => hlast hsingle (BitVec.eq_of_toNat_eq h)
        rw [net.size_of_prefixLen_eq hsingle, Nat.mod_one] at haddr
        rw [podCidr.toNat_broadcast] at hne
        omega
      · have hsecond : net.contains net.broadcast = true := by
          have hpos := net.size_pos
          rw [net.contains_iff, net.toNat_broadcast]
          omega
        have htwo := net.two_le_size hsingle
        have hback := (podCidr.contains_iff _).1 (hall _ hsecond)
        have hfront := (podCidr.contains_iff _).1 (hall net.network
          ((net.contains_iff _).2 ⟨le_rfl, by omega⟩))
        rw [net.toNat_broadcast] at hback
        omega
    have hroom : net.network.toNat + 1 < 2 ^ 32 := by omega
    have hcomputed := bridgeGateway_of_lt hnet hroom
    refine ⟨net.network + 1, hnet, hall, hcomputed, ?_, ?_, ?_⟩
    · rw [podCidr.contains_iff, Ipv4Net.toNat_gateway hroom]
      exact hin
    · exact fun h => hfirst ((Ipv4Net.gateway_eq_addr_iff hroom).1 h)
    · exact fun machine name bridge epairBase hbridge =>
        attachJail_gateway hcomputed machine hbridge name epairBase

/-! ## What is accepted -/

variable {a : Agentd} {podCidr : Ipv4Net} {m : Agent.Machine} {pathName : String} {spec : JailSpec}

omit [Ipnet] in
theorem ok_of_reply {result : Except Agent.ReconcileError Unit}
    (h : (Agent.reply result).status = 200) : result = .ok () := by
  rcases result with e | u
  · exfalso
    revert h
    unfold Agent.reply Agent.errorResponse Agent.statusForError
    simp only
    split <;> simp
  · rfl

/-- An accepted address is an IPv4 network's, and lies in the subnet. -/
theorem contains_of_handleApply (hpod : a.podCidr = some podCidr)
    (haccepted : (a.handleApply m pathName (.ok spec)).1.status = 200) :
    ∃ addr prefixLen, Ipnet.parse spec.spec.network.address = .ok (.v4 addr prefixLen) ∧
      podCidr.contains addr = true := by
  rw [Agentd.handleApply] at haccepted
  split at haccepted
  · cases haccepted
  · split at haccepted
    · cases haccepted
    · rename_i houtside
      have happlied : (a.reconciler.apply m.saves spec).1 = .ok () := ok_of_reply haccepted
      have haddress : validateAddress spec.spec.network.address = .ok () := by
        rw [Agent.Reconciler.apply] at happlied
        split at happlied
        · cases happlied
        · rename_i hchecked
          rw [Agent.Reconciler.checkApply] at hchecked
          obtain ⟨-, -, u, haddress, -⟩ := by simpa only [bind_eq_ok] using hchecked
          exact haddress
      unfold validateAddress at haddress
      unfold Agentd.outsidePodCidr at houtside
      rw [hpod] at houtside
      cases hparse : Ipnet.parse spec.spec.network.address with
      | error e =>
        rw [hparse] at haddress
        cases haddress
      | ok ip =>
        rw [hparse] at houtside
        cases ip with
        | v6 addr prefixLen => cases houtside
        | v4 addr prefixLen =>
          refine ⟨addr, prefixLen, rfl, ?_⟩
          by_contra hnot
          simp only [hnot] at houtside
          cases houtside

end Gateway

/-- **The subnet check covers the gateway** exactly for a network whose
prefix is no shorter than the subnet's, whose address is not its own first
host, and, if it is a single address, not the subnet's last. For every spec
an agent with a subnet accepts: the network it is written with and the
gateway computed from it lie in the subnet, and the gateway is another
address, if and only if that is so. -/
theorem subnetCheck_covers_iff [Ipnet] {a : Agentd} {podCidr : Ipv4Net} {m : Agent.Machine}
    {pathName : String} {spec : JailSpec} (hpod : a.podCidr = some podCidr)
    (haccepted : (a.handleApply m pathName (.ok spec)).1.status = 200) :
    (∃ net gateway, Covers podCidr spec.spec.network.address net gateway) ↔
      ∃ net, parseIpv4Net spec.spec.network.address = .ok net ∧
        podCidr.prefixLen ≤ net.prefixLen ∧ net.addr.toNat % net.size ≠ 1 ∧
          (net.prefixLen = 32 → net.addr ≠ podCidr.broadcast) := by
  obtain ⟨addr, prefixLen, hparse, hin⟩ := contains_of_handleApply hpod haccepted
  have hinside : ∀ net, parseIpv4Net spec.spec.network.address = .ok net →
      podCidr.contains net.addr = true := by
    intro net hnet
    rw [parseIpv4Net, hparse] at hnet
    simp only at hnet
    split at hnet
    · rw [← Except.ok.inj hnet]
      exact hin
    · cases hnet
  constructor
  · rintro ⟨net, gateway, h⟩
    exact ⟨net, h.parsed, (covers_iff h.parsed (hinside net h.parsed)).1 ⟨gateway, h⟩⟩
  · rintro ⟨net, hnet, h⟩
    exact ⟨net, (covers_iff hnet (hinside net hnet)).2 h⟩

section

open Node.Sample (jailAt)
open scoped Agent.Sample

namespace Gateways.Sample

theorem le_of_slash24 : 24 ≤ 32 := by decide

def subnet : Ipv4Net := ⟨Ipv4Addr.ofOctets 10 0 60 0, 24, le_of_slash24⟩

/-- A node with that subnet. -/
def node : Agentd :=
  { Agentd.start "zroot" Agent.FakeZfsManager.new ∅ ∅ with podCidr := some subnet }

end Gateways.Sample

open Gateways.Sample (node subnet le_of_slash24)

/-- A jail at the subnet's fifth host. -/
theorem subnetCheck_covers_sample :
    ∃ net gateway, Covers subnet "10.0.60.5/24" net gateway := by
  have haccepted : (node.handleApply Agent.Sample.machine "web"
      (.ok (jailAt "10.0.60.5/24"))).1.status = 200 := by decide +kernel
  have hsubnet : node.podCidr = some subnet := rfl
  refine (subnetCheck_covers_iff hsubnet haccepted).2
    ⟨⟨Ipv4Addr.ofOctets 10 0 60 5, 24, le_of_slash24⟩, ?_⟩
  decide +kernel

/-- A jail is accepted at the address that its own gateway then has, one
whose network is wider than the subnet, and one whose gateway is the next
subnet's. -/
theorem subnetCheck_misses :
    (∀ address ∈ ["10.0.60.1/24", "10.0.60.5/16", "10.0.60.255/32"],
      (node.handleApply Agent.Sample.machine "web" (.ok (jailAt address))).1.status = 200) ∧
    bridgeGateway "10.0.60.1/24" = .ok "10.0.60.1/24" ∧
    bridgeGateway "10.0.60.5/16" = .ok "10.0.0.1/16" ∧
    bridgeGateway "10.0.60.255/32" = .ok "10.0.61.0/32" ∧
    subnet.contains (Ipv4Addr.ofOctets 10 0 0 1) = false ∧
    subnet.contains (Ipv4Addr.ofOctets 10 0 61 0) = false := by
  refine ⟨by decide +kernel, by decide +kernel, by decide +kernel, by decide +kernel,
    by decide +kernel, by decide +kernel⟩

end

/-! ## What the control plane assigns -/

section Assigned

variable {podCidr : Ipv4Net} {nodeId : String} {used : UsedAddresses} {a : Ipv4Addr}

theorem size_of_slash24 (hlen : podCidr.prefixLen = 24) : podCidr.size = 256 := by
  rw [Ipv4Net.size, hlen]
  rfl

/-- The hosts of a `/24` past the first, in order. -/
theorem drop_hosts (hlen : podCidr.prefixLen = 24) : podCidr.hosts.drop 1 =
    (List.range' (podCidr.network.toNat + 2) 253).map (BitVec.ofNat 32) := by
  have hcount : podCidr.network.toNat + (256 - 1) - 1 - podCidr.network.toNat = 254 := by omega
  rw [Ipv4Net.hosts, if_pos (by omega), podCidr.toNat_broadcast, size_of_slash24 hlen, hcount,
    ← List.map_drop, List.drop_one, List.tail_range']

theorem head?_hosts_of_slash24 (hlen : podCidr.prefixLen = 24) :
    podCidr.hosts.head? = some (podCidr.network + 1) := by
  have hcount : podCidr.network.toNat + (256 - 1) - 1 - podCidr.network.toNat = 254 := by omega
  rw [Ipv4Net.hosts, if_pos (by omega), podCidr.toNat_broadcast, size_of_slash24 hlen, hcount,
    List.head?_map, List.head?_range', if_neg (by decide), Option.map_some, Ipv4Net.ofNat_gateway]

/-- A number in the block, as an address. -/
theorem toNat_ofNat_of_lt (hlen : podCidr.prefixLen = 24) {i : ℕ}
    (hi : i < podCidr.network.toNat + 256) : (BitVec.ofNat 32 i).toNat = i := by
  have hend := podCidr.network_add_size_le
  rw [size_of_slash24 hlen] at hend
  exact Nat.mod_eq_of_lt (by omega)

/-- **None is free** when all are used. -/
theorem firstFreeAddress_eq_none_iff (hlen : podCidr.prefixLen = 24) :
    firstFreeAddress podCidr nodeId used = none ↔
      ∀ b : Ipv4Addr, podCidr.network.toNat + 2 ≤ b.toNat → b.toNat < podCidr.broadcast.toNat →
        used.isUsed nodeId b = true := by
  rw [firstFreeAddress, drop_hosts hlen, List.find?_eq_none, podCidr.toNat_broadcast,
    size_of_slash24 hlen]
  constructor
  · intro h b hlow hhigh
    have hmem : b ∈ (List.range' (podCidr.network.toNat + 2) 253).map (BitVec.ofNat 32) := by
      exact List.mem_map.2 ⟨b.toNat, List.mem_range'_1.2 (by omega), by simp⟩
    simpa using h b hmem
  · intro h b hb
    obtain ⟨i, hi, rfl⟩ := List.mem_map.1 hb
    rw [List.mem_range'_1] at hi
    have hnat := toNat_ofNat_of_lt hlen (i := i) (by omega)
    have hused := h (BitVec.ofNat 32 i) (by omega) (by omega)
    simpa using hused

/-- **The one returned** is free, and all before it are used. -/
theorem firstFreeAddress_eq_some_iff (hlen : podCidr.prefixLen = 24) :
    firstFreeAddress podCidr nodeId used = some a ↔
      (podCidr.network.toNat + 2 ≤ a.toNat ∧ a.toNat < podCidr.broadcast.toNat) ∧
        used.isUsed nodeId a = false ∧
        ∀ b : Ipv4Addr, podCidr.network.toNat + 2 ≤ b.toNat → b.toNat < a.toNat →
          used.isUsed nodeId b = true := by
  rw [firstFreeAddress, drop_hosts hlen, List.find?_map, Option.map_eq_some_iff,
    podCidr.toNat_broadcast, size_of_slash24 hlen]
  constructor
  · rintro ⟨i, hi, rfl⟩
    rw [List.find?_range'_eq_some] at hi
    obtain ⟨hfree, hmem, hbefore⟩ := hi
    rw [List.mem_range'_1] at hmem
    have hnat := toNat_ofNat_of_lt hlen (i := i) (by omega)
    rw [hnat]
    refine ⟨by omega, by simpa using hfree, fun b hlow hb => ?_⟩
    have hused := hbefore b.toNat hlow hb
    simpa using hused
  · rintro ⟨⟨hlow, hhigh⟩, hfree, hbefore⟩
    refine ⟨a.toNat, List.find?_range'_eq_some.2 ⟨?_, ?_, ?_⟩, by simp⟩
    · simpa using hfree
    · exact List.mem_range'_1.2 (by omega)
    · intro i hi hlt
      have hnat := toNat_ofNat_of_lt hlen (i := i) (by omega)
      have hused := hbefore (BitVec.ofNat 32 i) (by omega) (by omega)
      simpa using hused

theorem display_of_slash24 (a : Ipv4Addr) :
    a.display ++ "/24" = Ipv4Net.display ⟨a, 24, by decide⟩ := by
  have hlen : "/24" = "/" ++ toString 24 := by decide
  rw [hlen, ← String.append_assoc, Ipv4Net.display]

/-- **The agent's gateway** for an address of the subnet past the first
host is that first host. -/
theorem bridgeGateway_of_contains [Ipnet]
    (hparse : ∀ n : Ipv4Net, Ipnet.parse n.display = .ok (.v4 n.addr n.prefixLen))
    (hlen : podCidr.prefixLen = 24) (ha : podCidr.contains a = true) :
    bridgeGateway (Ipv4Net.display ⟨a, 24, by decide⟩) =
      .ok (Ipv4Net.display ⟨podCidr.network + 1, 24, by decide⟩) := by
  let net : Ipv4Net := ⟨a, 24, by decide⟩
  have hnet : parseIpv4Net net.display = .ok net := by
    rw [parseIpv4Net, hparse]
    rfl
  have hsame : net.network = podCidr.network :=
    podCidr.network_eq_of_contains hlen.symm net.contains_addr ha
  have hend := podCidr.network_add_size_le
  rw [size_of_slash24 hlen] at hend
  have hgateway := bridgeGateway_of_lt hnet (by rw [hsame]; omega)
  rw [hsame] at hgateway
  exact hgateway

end Assigned

/-- **Assigned addresses agree with the agent's gateway.** In the block of
any node of any cluster network, with any addresses used: the control plane
finds no address exactly when the 253 from the network's second to the
broadcast's last are all used, and otherwise the smallest that is not; and
the gateway the agent computes for it is the first host of the block, which
is another address of the block. -/
theorem assigned_addresses_agree [Ipnet]
    (hparse : ∀ n : Ipv4Net, Ipnet.parse n.display = .ok (.v4 n.addr n.prefixLen))
    {cluster : Ipv4Net} (hcluster : cluster.prefixLen ≤ 24) (id : String) (used : UsedAddresses) :
    let c := derivePodCidr id cluster
    (c.network = c.addr ∧ c.broadcast.toNat = c.network.toNat + 255) ∧
    (firstFreeAddress c id used = none ↔
      ∀ b : Ipv4Addr, c.network.toNat + 2 ≤ b.toNat → b.toNat ≤ c.broadcast.toNat - 1 →
        used.isUsed id b = true) ∧
    ∀ a, firstFreeAddress c id used = some a →
      (c.network.toNat + 2 ≤ a.toNat ∧ a.toNat ≤ c.broadcast.toNat - 1 ∧
        used.isUsed id a = false ∧
        ∀ b : Ipv4Addr, c.network.toNat + 2 ≤ b.toNat → b.toNat < a.toNat →
          used.isUsed id b = true) ∧
      ∃ gateway, bridgeGateway (a.display ++ "/24") =
          .ok (Ipv4Net.display ⟨gateway, 24, by decide⟩) ∧
        c.hosts.head? = some gateway ∧ c.contains gateway = true ∧ gateway ≠ a := by
  intro c
  have hlen : c.prefixLen = 24 := rfl
  have haligned : c.network = c.addr := ControlPlane.network_derivePodCidr hcluster id
  clear_value c
  have hlast : c.broadcast.toNat = c.network.toNat + 255 := by
    rw [c.toNat_broadcast, size_of_slash24 hlen]
  have hend := c.network_add_size_le
  rw [size_of_slash24 hlen] at hend
  refine ⟨⟨haligned, hlast⟩, ?_, fun a ha => ?_⟩
  · rw [firstFreeAddress_eq_none_iff hlen]
    refine forall_congr' fun b => imp_congr_right fun hlow => ?_
    rw [show b.toNat < c.broadcast.toNat ↔ b.toNat ≤ c.broadcast.toNat - 1 by omega]
  · obtain ⟨⟨hlow, hhigh⟩, hfree, hbefore⟩ := (firstFreeAddress_eq_some_iff hlen).1 ha
    have hin : c.contains a = true := by
      rw [c.contains_iff, size_of_slash24 hlen]
      omega
    have hgateway : (c.network + 1).toNat = c.network.toNat + 1 :=
      Ipv4Net.toNat_gateway (by omega)
    refine ⟨⟨hlow, by omega, hfree, hbefore⟩, c.network + 1, ?_,
      head?_hosts_of_slash24 hlen, ?_, ?_⟩
    · rw [display_of_slash24]
      exact bridgeGateway_of_contains hparse hlen hin
    · rw [c.contains_iff, size_of_slash24 hlen, hgateway]
      omega
    · intro heq
      rw [← heq, hgateway] at hlow
      omega

open scoped Agent.Sample in
/-- A node of a cluster at the top of the address space, whose first
address is used. -/
theorem assigned_addresses_agree_sample :
    ∃ gateway, bridgeGateway "255.255.255.3/24" =
        .ok (Ipv4Net.display ⟨gateway, 24, by decide⟩) ∧
      gateway ≠ Ipv4Addr.ofOctets 255 255 255 3 := by
  have hname : "255.255.255.3/24" = (Ipv4Addr.ofOctets 255 255 255 3).display ++ "/24" := by
    decide +kernel
  have hfree : firstFreeAddress (derivePodCidr "node-1"
      ⟨Ipv4Addr.ofOctets 255 255 255 0, 24, by decide⟩) "node-1"
      (UsedAddresses.new.record "web-0" "node-1" (Ipv4Addr.ofOctets 255 255 255 2)) =
        some (Ipv4Addr.ofOctets 255 255 255 3) := by decide +kernel
  have hlen : (⟨Ipv4Addr.ofOctets 255 255 255 0, 24, by decide⟩ : Ipv4Net).prefixLen ≤ 24 :=
    le_refl 24
  obtain ⟨-, -, hassigned⟩ := assigned_addresses_agree Agent.Sample.parse_display hlen "node-1"
    (UsedAddresses.new.record "web-0" "node-1" (Ipv4Addr.ofOctets 255 255 255 2))
  obtain ⟨-, gateway, hgateway, -, -, hne⟩ := hassigned _ hfree
  rw [hname]
  exact ⟨gateway, hgateway, hne⟩

end Keel
