import Keel.Agent.Helpers.Records
import Keel.Cluster.Gateways
/-!
# The address of the ingress jail

The jail that serves ingresses has an address of its own, written into the
agent. The control plane knows nothing of it: where the cluster network
has `10.0.0.0/24` among its blocks, some node ids hash to that block, and
the address is the first one assigned there. So it stays clear of the
replicas exactly as long as no node is of such an id
(`ingress_address_reserved_iff`).
-/

namespace Keel

open ControlPlane (derivePodCidr firstFreeAddress fnv1a podPrefixLen utf8 Registry RegistryCall
  UsedAddresses)

/-- `INGRESS_JAIL_BRIDGE_ADDR`. -/
def ingressJailBridgeAddr : Ipv4Addr := Ipv4Addr.ofOctets 10 0 0 2

theorem toNat_ingressJailBridgeAddr : ingressJailBridgeAddr.toNat = 655360 * 256 + 2 := by
  decide +kernel

/-- **The id takes the ingress jail's block**: the cluster network has the
block, and the id hashes to its index. -/
def TakesIngressBlock (cluster : Ipv4Net) (id : String) : Prop :=
  cluster.contains ingressJailBridgeAddr = true ∧
    (fnv1a (utf8 id)).toNat % 2 ^ (24 - cluster.prefixLen) =
      (655360 * 256 - cluster.network.toNat) / 256

instance (cluster : Ipv4Net) (id : String) : Decidable (TakesIngressBlock cluster id) :=
  inferInstanceAs (Decidable (_ ∧ _))

section Block

variable {cluster : Ipv4Net} (hcluster : cluster.prefixLen ≤ 24) {id : String}

include hcluster

theorem dvd_network_of_le : 256 ∣ cluster.network.toNat := by
  have hsize : cluster.size = 2 ^ (24 - cluster.prefixLen) * 256 :=
    ControlPlane.size_eq_blocks hcluster
  exact dvd_trans ⟨_, by rw [hsize, Nat.mul_comm]⟩ cluster.size_dvd_network

/-- Such a node's block holds the address, and no other's does. -/
theorem contains_ingress_iff :
    (derivePodCidr id cluster).contains ingressJailBridgeAddr = true ↔
      TakesIngressBlock cluster id := by
  have haddr : (derivePodCidr id cluster).addr.toNat = cluster.network.toNat +
      (fnv1a (utf8 id)).toNat % 2 ^ (24 - cluster.prefixLen) * 256 :=
    ControlPlane.toNat_derivePodCidr hcluster id
  have hsize : (derivePodCidr id cluster).size = 256 := size_of_slash24 rfl
  have hnetwork := ControlPlane.network_derivePodCidr hcluster id
  obtain ⟨base, hbase⟩ := dvd_network_of_le hcluster
  have hcontains : (derivePodCidr id cluster).contains ingressJailBridgeAddr = true ↔
      base + (fnv1a (utf8 id)).toNat % 2 ^ (24 - cluster.prefixLen) = 655360 := by
    rw [Ipv4Net.contains_iff, hnetwork, haddr, hsize, hbase, toNat_ingressJailBridgeAddr]
    omega
  constructor
  · intro h
    have hin := ControlPlane.contains_of_derivePodCidr hcluster id h
    have hindex := hcontains.1 h
    refine ⟨hin, ?_⟩
    rw [hbase]
    omega
  · rintro ⟨hin, hindex⟩
    have hlow := ((cluster.contains_iff _).1 hin).1
    rw [hbase] at hindex hlow
    rw [toNat_ingressJailBridgeAddr] at hlow
    exact hcontains.2 (by omega)

/-- In such a block it is the first address there is to assign. -/
theorem firstFreeAddress_ingress_iff :
    (∃ used, firstFreeAddress (derivePodCidr id cluster) id used = some ingressJailBridgeAddr) ↔
      TakesIngressBlock cluster id := by
  rw [← contains_ingress_iff hcluster]
  constructor
  · rintro ⟨used, hused⟩
    exact Ipv4Net.contains_of_mem_hosts _ (ControlPlane.mem_hosts_of_firstFreeAddress hused)
  · intro h
    have hlen : (derivePodCidr id cluster).prefixLen = 24 := rfl
    obtain ⟨block, hblock⟩ : 256 ∣ (derivePodCidr id cluster).network.toNat := by
      rw [← size_of_slash24 hlen]
      exact Ipv4Net.size_dvd_network _
    have hin := (Ipv4Net.contains_iff _ _).1 h
    rw [size_of_slash24 hlen, hblock, toNat_ingressJailBridgeAddr] at hin
    refine ⟨UsedAddresses.new, (firstFreeAddress_eq_some_iff hlen).2 ⟨?_, rfl, ?_⟩⟩
    · rw [Ipv4Net.toNat_broadcast, size_of_slash24 hlen, hblock, toNat_ingressJailBridgeAddr]
      omega
    · intro b hlow hb
      rw [hblock] at hlow
      rw [toNat_ingressJailBridgeAddr] at hb
      omega

end Block

/-- The agent that makes the ingress jail gives it this address. -/
theorem address_of_ensureIngressJail [Ipnet] {agent : Agent.Reconciler} {m : Agent.Machine}
    (hnew : "ingress" ∉ agent.records) (hcreated : "ingress" ∈ (agent.ensureIngressJail m).records) :
    ∃ record, (agent.ensureIngressJail m).records.lookup "ingress" = some record ∧
      record.spec.spec.network.address = ingressJailBridgeAddr.display ++ "/24" := by
  have haddress : Agent.Reconciler.ingressSpec.spec.network.address =
      ingressJailBridgeAddr.display ++ "/24" := by decide +kernel
  rcases agent.ensureIngressJail_cases m with ⟨next, h⟩ | ⟨-, ordinal, next, h⟩
  · rw [h] at hcreated
    exact absurd hcreated hnew
  · refine ⟨⟨Agent.Reconciler.ingressSpec, ordinal⟩, ?_, haddress⟩
    rw [h]
    exact AList.lookup_insert _

/-- **The ingress jail's address is never a replica's** exactly as long as
no node takes its block. In every cluster network that holds a `/24`, after
any registrations and heartbeats, for a node whose agent has made the
ingress jail: no address the control plane can find free on the node is the
jail's, and no other registered node's subnet has it, if and only if
neither this node's id nor that of any other registered node hashes to the
block the address is in. -/
theorem ingress_address_reserved_iff [Ipnet] {cluster : Ipv4Net}
    (hcluster : cluster.prefixLen ≤ 24) (calls : List RegistryCall) (id : String)
    {agent : Agent.Reconciler} {m : Agent.Machine} (hnew : "ingress" ∉ agent.records)
    (hcreated : "ingress" ∈ (agent.ensureIngressJail m).records) :
    (∃ record, (agent.ensureIngressJail m).records.lookup "ingress" = some record ∧
      record.spec.spec.network.address = ingressJailBridgeAddr.display ++ "/24") ∧
    ((∀ used a, firstFreeAddress (derivePodCidr id cluster) id used = some a →
        a ≠ ingressJailBridgeAddr) ∧
      (∀ id' podCidr, id' ≠ id → ((Registry.new cluster).calls calls).podCidr id' = some podCidr →
        podCidr.contains ingressJailBridgeAddr = false) ↔
      ∀ id', id' = id ∨ (((Registry.new cluster).calls calls).podCidr id').isSome = true →
        ¬ TakesIngressBlock cluster id') := by
  have hblocks := (Registry.Blocks.new cluster).calls calls
  refine ⟨address_of_ensureIngressJail hnew hcreated, ?_⟩
  constructor
  · rintro ⟨hown, hothers⟩ id' hid' htakes
    by_cases hid : id' = id
    · rw [hid] at htakes
      obtain ⟨used, hused⟩ := (firstFreeAddress_ingress_iff hcluster).2 htakes
      exact hown used _ hused rfl
    · obtain ⟨podCidr, hpod⟩ := Option.isSome_iff_exists.1 (hid'.resolve_left hid)
      have hin := (contains_ingress_iff hcluster).2 htakes
      have hnot := hothers id' podCidr hid hpod
      rw [hblocks.derived id' podCidr hpod, hin] at hnot
      cases hnot
  · intro hnone
    refine ⟨fun used a hused heq => ?_, fun id' podCidr _ hpod => ?_⟩
    · rw [heq] at hused
      exact hnone id (Or.inl rfl) ((firstFreeAddress_ingress_iff hcluster).1 ⟨used, hused⟩)
    · have hfree := hnone id' (Or.inr (Option.isSome_iff_exists.2 ⟨podCidr, hpod⟩))
      rw [hblocks.derived id' podCidr hpod]
      by_contra hin
      exact hfree ((contains_ingress_iff hcluster).1 (Bool.eq_true_of_not_eq_false hin))

section

open scoped Agent.Sample

namespace Reserved.Sample

/-- An ingress is there to serve. -/
def serving : Agent.Machine := { Agent.Sample.machine with ingress := true }

theorem sixteen_le : 16 ≤ 32 := by decide

def cluster16 : Ipv4Net := ⟨Ipv4Addr.ofOctets 10 0 0 0, 16, sixteen_le⟩

def cluster22 : Ipv4Net := ⟨Ipv4Addr.ofOctets 10 0 0 0, 22, by decide⟩

end Reserved.Sample

open Reserved.Sample

/-- Two nodes whose ids hash to other blocks. -/
theorem ingress_address_reserved_sample :
    ∃ a, firstFreeAddress (derivePodCidr "node-1" cluster16) "node-1" .new = some a ∧
      a ≠ ingressJailBridgeAddr := by
  have hcluster : cluster16.prefixLen ≤ 24 := by decide
  have hnew : "ingress" ∉ (Agent.Reconciler.new "zroot" ∅).records := by decide
  have hcreated : "ingress" ∈ ((Agent.Reconciler.new "zroot" ∅).ensureIngressJail serving).records :=
    by decide +kernel
  obtain ⟨-, hreserved⟩ := ingress_address_reserved_iff hcluster
    [.register "node-2" "node-2:7621" none 4 1024 0] "node-1" hnew hcreated
  have hkeys : ((Registry.new cluster16).calls
      [.register "node-2" "node-2:7621" none 4 1024 0]).nodes.keys = ["node-2"] := by
    decide +kernel
  have hfree : (firstFreeAddress (derivePodCidr "node-1" cluster16) "node-1" .new).isSome = true := by
    decide +kernel
  obtain ⟨a, ha⟩ := Option.isSome_iff_exists.1 hfree
  refine ⟨a, ha, (hreserved.2 fun id' hid' => ?_).1 _ a ha⟩
  have hname : id' = "node-1" ∨ id' = "node-2" := by
    refine hid'.imp_right fun hregistered => ?_
    rw [Registry.podCidr, Option.isSome_map, AList.lookup_isSome, AList.mem_keys, hkeys]
      at hregistered
    exact List.mem_singleton.1 hregistered
  rcases hname with rfl | rfl
  · decide +kernel
  · decide +kernel

/-- `node-4` of `10.0.0.0/22` has the ingress jail's block, and its first
replica the ingress jail's address. -/
theorem ingress_address_assigned :
    ((Agent.Reconciler.new "zroot" ∅).ensureIngressJail serving).records.keys = ["ingress"] ∧
    firstFreeAddress (derivePodCidr "node-4" cluster22) "node-4" .new =
      some ingressJailBridgeAddr := by
  refine ⟨by decide +kernel, by decide +kernel⟩

end

end Keel
