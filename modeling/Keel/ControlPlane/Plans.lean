import Keel.ControlPlane.Subnets
import Keel.ControlPlane.Addresses
import Keel.ControlPlane.Helpers.Schedules
/-!
# What a pass plans

One reconcile pass over tables whose addresses are consistent, at any
time. Each schedule goes to a node that is alive, at an address of its pod
network that the plan gives nobody else, off the nodes that have a replica
of the service where there is one; a tear-down goes where the replica is;
no replica is named twice (`plan_sound`). The plan itself changes nothing:
the working copy of the addresses is the pass's own.
-/

namespace Keel

namespace ControlPlane

/-! ## Soundness -/

/-- **What is promised of a schedule**, after the actions `before`. -/
structure SoundSchedule (w : Worker) (now : Instant) (before : List ReplicaAction)
    (r nodeId : String) (template : JailTemplate) (address : Ipv4Addr)
    (standbyNodeId standbyAddr : Option String) : Prop where
  alive : w.Alive now nodeId
  inside : ∃ podCidr, w.registry.podCidr nodeId = some podCidr ∧ JailAddress podCidr address
  /-- A node that has a replica of the service is given another only if
  every alive node has one. -/
  spread : ∃ s record, w.services.get s = some record ∧ template = record.template ∧
    (replicaIndex s r).isSome = true ∧
    (nodeId ∈ w.occupied before s → ∀ n, w.Alive now n → n ∈ w.occupied before s)
  standby : ∀ m, standbyNodeId = some m → w.Alive now m ∧ m ≠ nodeId ∧
    ∃ addr, standbyAddr = some addr ∧ w.registry.replicateAddr m = some addr
  alone : standbyNodeId = none → standbyAddr = none
  stateless : template.volumes = [] → standbyNodeId = none

/-- **What is promised of a plan.** -/
structure SoundPlan (w : Worker) (now : Instant) (as : List ReplicaAction) : Prop where
  names : (as.map ReplicaAction.name).Nodup
  schedules : Stepwise (fun before a =>
    ∀ r nodeId nodeAddr template address prefixLen standbyNodeId standbyAddr,
      a = .schedule r nodeId nodeAddr template address prefixLen standbyNodeId standbyAddr →
        SoundSchedule w now before r nodeId template address standbyNodeId standbyAddr) as
  /-- No two schedules are at one address of one node. -/
  apart : ((slots as).map Prod.snd).Nodup
  /-- Nor is one at the address on record for another replica, unless that
  one is scheduled too. -/
  free : ∀ x ∈ slots as, ∀ r, r ≠ x.1 → w.usedAddresses.byJail.lookup r = some x.2 →
    ∃ y ∈ slots as, y.1 = r
  tearDowns : ∀ r nodeId nodeAddr, .tearDown r nodeId nodeAddr ∈ as →
    w.placements.lookup r = some nodeId ∧ w.Alive now nodeId

/-! ## Proof -/

variable {w : Worker} {now : Instant}

theorem Chosen.sound {before : List ReplicaAction} {s r nodeId : String} {template : JailTemplate}
    {address : Ipv4Addr} {standbyNodeId standbyAddr : Option String} {cidr : Ipv4Net}
    (h : Chosen w now before s r nodeId template address standbyNodeId standbyAddr)
    (hblocks : w.registry.Blocks cidr) :
    SoundSchedule w now before r nodeId template address standbyNodeId standbyAddr := by
  obtain ⟨record, hget, htemplate⟩ := h.service
  obtain ⟨podCidr, hpod, haddress⟩ := h.inside
  have hpaired := h.paired
  -- A standby there is has an address, and then both are the scheduler's.
  have hstandby : ∀ m, standbyNodeId = some m → ∃ addr, standbyAddr = some addr ∧
      template.volumes ≠ [] ∧ w.Alive now m ∧ m ≠ nodeId ∧
      w.registry.replicateAddr m = some addr := by
    rintro m rfl
    obtain ⟨addr, haddr⟩ := Option.isSome_iff_exists.1 hpaired.symm
    obtain ⟨hvolumes, hpreferred, hne, hreplicate⟩ := (h.standby m addr).1 ⟨rfl, haddr⟩
    exact ⟨addr, haddr, hvolumes, hpreferred.alive, hne, hreplicate⟩
  refine ⟨h.node.alive, ⟨podCidr, hpod, hblocks.jailAddress hpod haddress⟩,
    ⟨s, record, hget, htemplate, h.replica, h.node.spreads⟩, fun m hm => ?_, ?_, ?_⟩
  · obtain ⟨addr, haddr, -, halive, hne, hreplicate⟩ := hstandby m hm
    exact ⟨halive, hne, addr, haddr, hreplicate⟩
  · rintro rfl
    cases standbyAddr with
    | none => rfl
    | some addr => cases hpaired
  · intro hstateless
    by_contra hsome
    obtain ⟨m, hm⟩ := Option.ne_none_iff_exists'.1 hsome
    obtain ⟨addr, -, hvolumes, -⟩ := hstandby m hm
    exact hvolumes hstateless

/-- A plan that shares no address schedules no two jails at one. -/
theorem Assigned.nodup_slots {u : UsedAddresses} {as : List ReplicaAction} (h : Assigned u as) :
    ((slots as).map Prod.snd).Nodup := by
  induction h with
  | nil => exact List.nodup_nil
  | @snoc as a _ hname hslot hfree ih =>
    rw [slots_append, List.map_append]
    refine ih.append ?_ ?_
    · cases a with
      | schedule => exact List.nodup_singleton _
      | tearDown => exact List.nodup_nil
    · intro x hx hnew
      obtain ⟨y, hy, rfl⟩ := List.mem_map.1 hx
      obtain ⟨z, hz, heq⟩ := List.mem_map.1 hnew
      obtain ⟨b, hb, hz⟩ := List.mem_filterMap.1 hz
      rw [List.mem_singleton.1 hb] at hz
      exact hslot z hz y hy heq.symm

/-- What it takes from the table is taken from replicas it schedules. -/
theorem Assigned.freed {u : UsedAddresses} {as : List ReplicaAction} (h : Assigned u as) :
    ∀ x ∈ slots as, ∀ r, u.byJail.lookup r = some x.2 → ∃ y ∈ slots as, y.1 = r := by
  induction h with
  | nil => intro x hx; cases hx
  | @snoc as a _ hname hslot hfree ih =>
    intro x hx r hr
    rw [slots_append] at hx ⊢
    have hearlier : ∃ y ∈ slots as, y.1 = r := by
      rcases List.mem_append.1 hx with hx | hx
      · exact ih x hx r hr
      · obtain ⟨b, hb, hx⟩ := List.mem_filterMap.1 hx
        rw [List.mem_singleton.1 hb] at hx
        exact hfree x hx r hr
    obtain ⟨y, hy, heq⟩ := hearlier
    exact ⟨y, List.mem_append_left _ hy, heq⟩

/-- **A pass is sound**, whatever the services, the placements and the
nodes that are up: of every registry that registrations make, and every
consistent table of addresses. -/
theorem plan_sound {cidr : Ipv4Net} (w : Worker) (now : Instant) (ord : IterOrder)
    (hblocks : w.registry.Blocks cidr) (hused : w.usedAddresses.Consistent) :
    SoundPlan w now (w.handleCommand now ord .reconcileServices).1 ∧
      (w.handleCommand now ord .reconcileServices).2 = w := by
  have hassigned : Assigned w.usedAddresses (w.reconcileServices now) :=
    reconcileServices_assigned hused
  refine ⟨⟨nodup_reconcileServices, ?_, hassigned.nodup_slots, ?_, ?_⟩, rfl⟩
  · intro before a after heq r nodeId nodeAddr template address prefixLen standbyNodeId standbyAddr
      ha
    obtain ⟨s, hchosen⟩ := reconcileServices_chosen before a after heq _ _ _ _ _ _ _ _ ha
    exact hchosen.sound hblocks
  · exact fun x hx r _ hr => hassigned.freed x hx r hr
  · intro r nodeId nodeAddr ha
    obtain ⟨hplaced, hresolve⟩ := reconcileServices_planned _ ha
    exact ⟨hplaced, Worker.alive_of_resolve hresolve⟩

/-! ## The tables of a run -/

theorem blocks_moves {cidr : Ipv4Net} {request : Request} {w w' : World}
    (h : Moves request w w') (hw : w.worker.registry.Blocks cidr) :
    w'.worker.registry.Blocks cidr := by
  induction h with
  | refl => exact hw
  | tail _ hmove ih =>
    rcases hmove.registry with heq | ⟨_, call, -, heq⟩
    · rwa [heq]
    · rw [heq]
      exact ih.call call

theorem blocks_final {cidr : Ipv4Net} (script : Script) {w : Worker}
    (hw : w.registry.Blocks cidr) : (final w script).registry.Blocks cidr := by
  induction script generalizing w with
  | nil => exact hw
  | cons step rest ih =>
    obtain ⟨request, o⟩ := step
    exact ih (blocks_moves (serve_moves request o w) hw)

namespace Sample

/-- Two nodes, a stateless replica on one of them, and a stateful service
whose replicas no node took. -/
def refused : Script :=
  [(register "a", clock 0 200), (register "b", clock 0 200), (service "web" 1 [], clock 1 200),
    (service "db" 2 data, clock 2 500)]

end Sample

open Sample in
theorem plan_sound_sample :
    SoundPlan (final spawn refused) (3 * second)
        ((final spawn refused).reconcileServices (3 * second)) ∧
      ((final spawn refused).reconcileServices (3 * second)).length = 2 := by
  have hused : (final spawn refused).usedAddresses.Consistent :=
    consistent_final _ (by decide +kernel) .new
  have hsound := plan_sound (final spawn refused) (3 * second) .listed
    (blocks_final refused (.new clusterCidr)) hused
  exact ⟨hsound.1, by decide +kernel⟩

end ControlPlane

end Keel
