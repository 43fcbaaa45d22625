import Keel.ControlPlane.Panics
/-!
# Virtual addresses and pod networks

Pods get their addresses from the cluster network and services theirs
from the service network. The two allocators never meet, so what keeps
their addresses apart is that the two networks have no address in common
— which nothing that reads the command line checks.
-/

namespace Keel

namespace ControlPlane

/-- The networks have no address in common. -/
def NetworksApart (clusterCidr serviceCidr : Ipv4Net) : Prop :=
  ∀ a, clusterCidr.contains a = true → serviceCidr.contains a = false

/-- Every node has a block of the cluster network, and every service an
address of the service network. -/
structure Worker.Placed (clusterCidr serviceCidr : Ipv4Net) (w : Worker) : Prop where
  blocks : w.registry.Blocks clusterCidr
  vips : w.services.Allocated serviceCidr

theorem Worker.Placed.spawn (clusterCidr serviceCidr : Ipv4Net) :
    (Worker.spawn clusterCidr serviceCidr).Placed clusterCidr serviceCidr where
  blocks := .new clusterCidr
  vips := ⟨rfl, fun hget => absurd hget (by simp [Worker.spawn, Services.get, Services.new]),
    fun hget => absurd hget (by simp [Worker.spawn, Services.get, Services.new])⟩

/-- **A command keeps them so.** -/
theorem Worker.Placed.after {clusterCidr serviceCidr : Ipv4Net} {w : Worker}
    (h : w.Placed clusterCidr serviceCidr) (c : Received) :
    (c.after w).Placed clusterCidr serviceCidr := by
  obtain ⟨now, ord, command⟩ := c
  cases command with
  | register id addr replicateAddr capacityCpu capacityMemory =>
    exact ⟨h.blocks.call (.register id addr replicateAddr capacityCpu capacityMemory now), h.vips⟩
  | heartbeat id committedCpu committedMemory jails =>
    exact ⟨h.blocks.call (.heartbeat id committedCpu committedMemory jails now), h.vips⟩
  | applyService name replicas template port =>
    simp only [Received.after, Worker.handleCommand, Worker.applyService]
    split
    · exact h
    · exact ⟨h.blocks, h.vips.call (.apply name replicas template port)⟩
  | deleteService name =>
    simp only [Received.after, Worker.handleCommand, Worker.deleteService]
    split
    · exact h
    · exact ⟨h.blocks, h.vips.call (.remove name)⟩
  | _ => exact ⟨h.blocks, h.vips⟩

theorem Worker.Placed.afterAll {clusterCidr serviceCidr : Ipv4Net} {w : Worker}
    (h : w.Placed clusterCidr serviceCidr) (commands : List Received) :
    (w.afterAll commands).Placed clusterCidr serviceCidr := by
  induction commands generalizing w with
  | nil => exact h
  | cons c commands ih => exact ih (h.after c)

/-- The address after the network's own, where a node's bridge is. -/
theorem contains_gateway (cidr : Ipv4Net) (id : String) :
    (derivePodCidr id cidr).contains ((derivePodCidr id cidr).network + 1) = true :=
  Ipv4Net.contains_network_add _ (i := 1) (by rw [size_derivePodCidr]; decide)

/-- **No virtual address is in a pod network** of a control plane whose
networks have no address in common, whatever commands it has served: none
is the address of a jail, nor of a bridge. -/
theorem vips_outside_pods [Ipnet] {args : List String} {config : Config}
    (hargs : parseArgsFrom args = .ok config) :
    ∃ clusterCidr serviceCidr, config.clusterCidr = some clusterCidr ∧
      config.serviceCidr = some serviceCidr ∧
      (NetworksApart clusterCidr serviceCidr → ∀ commands s record id podCidr,
        ((Worker.spawn clusterCidr serviceCidr).afterAll commands).services.get s = some record →
        ((Worker.spawn clusterCidr serviceCidr).afterAll commands).registry.podCidr id =
          some podCidr →
        podCidr.contains record.vip = false ∧ record.vip ≠ podCidr.network + 1 ∧
          ∀ a ∈ podCidr.hosts, record.vip ≠ a) := by
  obtain ⟨clusterCidr, serviceCidr, hcluster, hservice, hle⟩ := parseArgsFrom_ok hargs
  refine ⟨clusterCidr, serviceCidr, hcluster, hservice, ?_⟩
  intro hapart commands s record id podCidr hget hpod
  have hplaced := (Worker.Placed.spawn clusterCidr serviceCidr).afterAll commands
  have hderived := hplaced.blocks.derived id podCidr hpod
  have hvip := hplaced.vips.inside hget
  have houtside : podCidr.contains record.vip = false := by
    rw [← Bool.not_eq_true]
    intro hinside
    rw [hderived] at hinside
    have hcluster := contains_of_derivePodCidr hle id hinside
    rw [hapart _ hcluster] at hvip
    cases hvip
  refine ⟨houtside, ?_, fun a ha heq => ?_⟩
  · intro heq
    rw [heq, hderived, contains_gateway] at houtside
    cases houtside
  · rw [heq, Ipv4Net.contains_of_mem_hosts _ ha] at houtside
    cases houtside

namespace Sample

/-- A node registers, and a service is created. -/
def nodeAndService : List Received :=
  [⟨0, .listed, .register "node-1" "node-1:7621" none 4 1024⟩,
    ⟨second, .listed, .applyService "web" 1 (template []) 80⟩]

/-- Whether the service's address is in the node's pod network. -/
def vipInPod (w : Worker) : Option Bool := do
  let record ← w.services.get "web"
  let podCidr ← w.registry.podCidr "node-1"
  return podCidr.contains record.vip

end Sample

open Sample in
theorem networksApart_sample : NetworksApart clusterCidr serviceCidr := by
  have hcluster : clusterCidr.network.toNat = 167772160 ∧ clusterCidr.size = 65536 := by
    decide +kernel
  have hservice : serviceCidr.network.toNat = 167837696 ∧ serviceCidr.size = 256 := by
    decide +kernel
  intro a ha
  rw [← Bool.not_eq_true]
  rw [Ipv4Net.contains_iff, hcluster.1, hcluster.2] at ha
  rw [Ipv4Net.contains_iff, hservice.1, hservice.2]
  omega

open Sample Agent.Sample in
theorem vips_outside_pods_sample :
    vipInPod ((Worker.spawn clusterCidr serviceCidr).afterAll nodeAndService) = some false := by
  obtain ⟨config, hconfig⟩ := isOk_iff_exists.1
    (show (parseArgsFrom (args "10.0.0.0/16" "10.1.0.0/24")).isOk = true by decide +kernel)
  have hread : ∀ config ∈ (parseArgsFrom (args "10.0.0.0/16" "10.1.0.0/24")).toOption,
      config.clusterCidr = some clusterCidr ∧ config.serviceCidr = some serviceCidr := by
    decide +kernel
  obtain ⟨hcluster, hservice⟩ := hread config (by rw [hconfig]; rfl)
  obtain ⟨clusterCidr', serviceCidr', hcluster', hservice', houtside⟩ := vips_outside_pods hconfig
  rw [hcluster] at hcluster'
  rw [hservice] at hservice'
  cases hcluster'
  cases hservice'
  obtain ⟨record, hrecord⟩ := Option.isSome_iff_exists.1
    (show (((Worker.spawn clusterCidr serviceCidr).afterAll nodeAndService).services.get
      "web").isSome = true by decide +kernel)
  obtain ⟨podCidr, hpod⟩ := Option.isSome_iff_exists.1
    (show (((Worker.spawn clusterCidr serviceCidr).afterAll nodeAndService).registry.podCidr
      "node-1").isSome = true by decide +kernel)
  have := (houtside networksApart_sample nodeAndService "web" record "node-1" podCidr hrecord hpod).1
  simp only [vipInPod, hrecord, hpod, bind, Option.bind, this]
  rfl

open Sample Agent.Sample in
/-- **A service network inside the cluster network is accepted**, and the
first service's address is in the first node's pod network. -/
theorem vip_inside_pod :
    ∃ config, parseArgsFrom (args "10.0.0.0/16" "10.0.131.0/24") = .ok config ∧
      ∀ clusterCidr ∈ config.clusterCidr, ∀ serviceCidr ∈ config.serviceCidr,
        vipInPod ((Worker.spawn clusterCidr serviceCidr).afterAll nodeAndService) = some true := by
  have hinside : ∀ config ∈ (parseArgsFrom (args "10.0.0.0/16" "10.0.131.0/24")).toOption,
      ∀ clusterCidr ∈ config.clusterCidr, ∀ serviceCidr ∈ config.serviceCidr,
        vipInPod ((Worker.spawn clusterCidr serviceCidr).afterAll nodeAndService) = some true := by
    decide +kernel
  obtain ⟨config, hconfig⟩ := isOk_iff_exists.1
    (show (parseArgsFrom (args "10.0.0.0/16" "10.0.131.0/24")).isOk = true by decide +kernel)
  exact ⟨config, hconfig, hinside config (by rw [hconfig]; rfl)⟩

end ControlPlane

end Keel
