import Keel.ControlPlane.Helpers.Steps
/-!
# Leaked addresses

A jail with an address on record is to be a placed one, so that an
address is free again once its replica is gone. A tear-down releases the
address with the placement; an operator's `DELETE`, on either route,
removes the placement alone (`address_leaked`). That is the only way an
address leaks: in every run in which no operator deletes a jail that has
an address on record (`KeepsAddress`), none does (`addresses_placed`).
-/

namespace Keel

namespace ControlPlane

/-- Every jail with an address on record is placed. -/
def AddressesPlaced (w : Worker) : Prop :=
  ∀ r ∈ w.usedAddresses.byJail.keys, (w.placements.lookup r).isSome = true

/-- No operator's `DELETE` is accepted of a jail with an address on
record. -/
def Event.KeepsAddress : Event → Prop
  | .sent before f answer =>
    f.method = .delete → f.site.operator = true → accepted answer = true →
      ∀ r ∈ f.jail?, r ∉ before.usedAddresses.byJail.keys
  | _ => True

instance (w : Worker) : Decidable (AddressesPlaced w) := inferInstanceAs (Decidable (∀ _ ∈ _, _))

instance : DecidablePred Event.KeepsAddress
  | .sent .. => inferInstanceAs (Decidable (_ → _))
  | .planned .. => inferInstanceAs (Decidable True)
  | .applied .. => inferInstanceAs (Decidable True)

theorem addressesPlaced_iff {w : Worker} :
    AddressesPlaced w ↔ ∀ r, (w.usedAddresses.byJail.lookup r).isSome = true →
      (w.placements.lookup r).isSome = true := by
  refine forall_congr' fun r => ?_
  rw [← AList.mem_keys, AList.lookup_isSome, AList.lookup_isSome]

/-! ## The writes -/

section Writes

variable {w : Worker} (h : AddressesPlaced w)

include h

theorem AddressesPlaced.place (r n : String) :
    AddressesPlaced { w with placements := w.placements.insert r n } := by
  rw [addressesPlaced_iff] at h ⊢
  intro r' hr'
  rw [Table.lookup_insert_eq]
  split
  · rfl
  · exact h r' hr'

/-- A jail placed, and given an address. -/
theorem AddressesPlaced.record (r n : String) (a : Ipv4Addr) (standbys : Standbys)
    (pendingFences : PendingFences) :
    AddressesPlaced { w with
      placements := w.placements.insert r n
      usedAddresses := w.usedAddresses.record r n a
      standbys, pendingFences } := by
  rw [addressesPlaced_iff] at h ⊢
  intro r' hr'
  rw [Table.lookup_insert_eq]
  rw [UsedAddresses.byJail_record] at hr'
  split
  · rfl
  · rename_i hne
    rw [if_neg hne] at hr'
    exact h r' hr'

/-- A jail that loses its placement and its address. -/
theorem AddressesPlaced.release (r : String) :
    AddressesPlaced { w with
      placements := w.placements.erase r
      usedAddresses := w.usedAddresses.release r } := by
  rw [addressesPlaced_iff] at h ⊢
  intro r' hr'
  rw [UsedAddresses.byJail_release] at hr'
  rw [Table.lookup_erase_eq]
  split at hr'
  · cases hr'
  · rename_i hne
    rw [if_neg hne]
    exact h r' hr'

/-- A jail that has no address loses its placement. -/
theorem AddressesPlaced.drop {r : String} (hr : r ∉ w.usedAddresses.byJail.keys) :
    AddressesPlaced { w with placements := w.placements.erase r } := by
  intro r' hr'
  rw [Table.lookup_erase_eq, if_neg (by rintro rfl; exact hr hr')]
  exact h r' hr'

end Writes

/-! ## Every step, every run -/

theorem addressesPlaced_execute {w : World} {a : ReplicaAction} {answer : ForwardResult}
    (h : AddressesPlaced w.worker) : AddressesPlaced (w.execute a answer).worker := by
  rw [World.execute, World.answered_worker]
  split
  · cases a with
    | schedule name nodeId _ _ address => exact h.record name nodeId address _ _
    | tearDown name => exact h.release name
  · exact h

theorem addressesPlaced_step {w w' : World} (h : Step w w') (hkeeps : ∀ e ∈ w'.log, e.KeepsAddress)
    (hw : AddressesPlaced w.worker) : AddressesPlaced w'.worker := by
  cases h with
  | registry => exact hw
  | apply => exact hw
  | read => exact hw
  | reconcile now h =>
    exact h.invariant (C := fun _ => True) (I := fun w => AddressesPlaced w.worker)
      (fun _ _ => addressesPlaced_execute) (fun _ _ => trivial) hw
  | delete now ord hget h =>
    exact h.invariant (C := fun _ => True) (I := fun w => AddressesPlaced w.worker)
      (fun _ _ => addressesPlaced_execute) (fun _ _ => trivial) hw
  | @put f name answer =>
    rw [World.answered_worker]
    split
    · exact hw.place name f.nodeId
    · exact hw
  | @drop f name answer hpath hmethod hsite =>
    -- The placement goes alone, so there must be no address.
    have hsent := hkeeps _ List.mem_concat_self
    rw [World.answered_worker]
    split
    · rename_i hacc
      exact hw.drop (hsent hmethod hsite hacc name (by simp [Forward.jail?, hpath]))
    · exact hw
  | @promote name prep now answer hprep =>
    rw [World.answered_worker]
    split
    · exact hw.record name prep.standbyNodeId prep.address _ _
    · exact hw
  | fence addr answer =>
    rw [World.answered_worker]
    split <;> exact hw

/-- **No address leaks**, in every run in which no operator deletes a jail
with an address on record. -/
theorem addresses_placed (clusterCidr serviceCidr : Ipv4Net) (script : Script)
    (hkeeps : ∀ e ∈ events (Worker.spawn clusterCidr serviceCidr) script, e.KeepsAddress) :
    AddressesPlaced (final (Worker.spawn clusterCidr serviceCidr) script) := by
  have hsteps := run_steps (Worker.spawn clusterCidr serviceCidr) script []
  rw [List.nil_append] at hsteps
  have hstart : AddressesPlaced (Worker.spawn clusterCidr serviceCidr) := fun r hr => by cases hr
  exact hsteps.invariant (I := fun w => AddressesPlaced w.worker) addressesPlaced_step hkeeps hstart

open Sample in
/-- A service scaled down, deleted, and an operator's own jail deleted. -/
theorem addresses_placed_sample :
    AddressesPlaced (final spawn [(register "a", clock 0 200), (service "web" 2 [], clock 1 200),
      (service "web" 1 [], clock 2 200), (.putJail "cache" (.ok (jail "cache")), clock 3 200),
      (.deleteJail "cache", clock 4 200), (.deleteService "web", clock 5 200)]) :=
  addresses_placed _ _ _ (by decide +kernel)

open Sample in
/-- **An operator's `DELETE` leaks the address**, on either route, and the
address stays used when the service that had it is gone. -/
theorem address_leaked :
    (¬ AddressesPlaced (final spawn [(register "a", clock 0 200), (service "web" 1 [], clock 1 200),
      (.deleteJail "web-0", clock 2 200), (.deleteService "web", clock 3 200)])) ∧
    ¬ AddressesPlaced (final spawn [(register "a", clock 0 200), (service "web" 1 [], clock 1 200),
      (.deleteNodeJail "a" "web-0", clock 2 200), (.deleteService "web", clock 3 200)]) := by
  decide +kernel

end ControlPlane

end Keel
