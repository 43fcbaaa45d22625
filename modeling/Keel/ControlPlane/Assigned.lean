import Keel.ControlPlane.Helpers.Tables
/-!
# Addresses on the books

`UsedAddresses` under any sequence of its two calls, as long as no address
is recorded for a jail that another jail has. Then the table is a partial
injection of jails into the addresses of the nodes, and it says of every
jail what the last call about it said (`partial_injection`).
-/

namespace Keel

namespace ControlPlane

namespace UsedAddresses

/-! ## Calls -/

inductive Call
  | record (jailName nodeId : String) (addr : Ipv4Addr)
  | release (jailName : String)

namespace Call

/-- The jail a call is about. -/
def jail : Call → String
  | .record jailName _ _ => jailName
  | .release jailName => jailName

/-- What a call leaves its jail with. -/
def leaves : Call → Option (String × Ipv4Addr)
  | .record _ nodeId addr => some (nodeId, addr)
  | .release _ => none

end Call

def step (u : UsedAddresses) : Call → UsedAddresses
  | .record jailName nodeId addr => u.record jailName nodeId addr
  | .release jailName => u.release jailName

def run (calls : List Call) : UsedAddresses := calls.foldl step new

/-- An address is recorded that is not used on the node, or that the jail
has there already. -/
def Allows (u : UsedAddresses) : Call → Prop
  | .record jailName nodeId addr =>
    u.isUsed nodeId addr = false ∨ u.byJail.lookup jailName = some (nodeId, addr)
  | .release _ => True

/-- Every call is allowed where it is made. -/
def PermitsFrom (u : UsedAddresses) : List Call → Prop
  | [] => True
  | call :: calls => u.Allows call ∧ (u.step call).PermitsFrom calls

def Permitted (calls : List Call) : Prop := new.PermitsFrom calls

/-- The node and address of a jail's last record since its last release:
what the last call about it left it with. -/
def lastRecord (jailName : String) (calls : List Call) : Option (String × Ipv4Addr) :=
  (calls.reverse.find? fun call => call.jail = jailName).bind Call.leaves

variable {u : UsedAddresses} {call : Call} {calls : List Call} {j : String}

/-! ## A call -/

@[simp] theorem byJail_step : (u.step call).byJail.lookup j =
    if j = call.jail then call.leaves else u.byJail.lookup j := by
  cases call with
  | record jailName nodeId addr => exact byJail_record u jailName j nodeId addr
  | release jailName => exact byJail_release u jailName j

/-- A call that is allowed keeps the maps in step. -/
theorem Consistent.step (h : u.Consistent) (hallowed : u.Allows call) :
    (u.step call).Consistent := by
  cases call with
  | record jailName nodeId addr =>
    refine h.record fun j hj => ?_
    rcases hallowed with hfree | hown
    · exact absurd hj (h.byJail_ne_of_isUsed hfree)
    · exact h.distinct _ _ _ hj hown
  | release jailName => exact h.release jailName

/-- What a call about one jail leaves alone: the other jails' addresses,
on both maps, and every address that is neither the one the call takes
from its jail nor the one it gives it. -/
structure Spares (u u' : UsedAddresses) (call : Call) : Prop where
  byJail : ∀ j, j ≠ call.jail → u'.byJail.lookup j = u.byJail.lookup j
  addressOf : ∀ j, j ≠ call.jail → u'.addressOf j = u.addressOf j
  held : ∀ j n a, j ≠ call.jail → u.byJail.lookup j = some (n, a) → u'.isUsed n a = true
  isUsed : ∀ n a, u.byJail.lookup call.jail ≠ some (n, a) → call.leaves ≠ some (n, a) →
    u'.isUsed n a = u.isUsed n a

theorem isUsed_step (n : String) (a : Ipv4Addr)
    (hold : u.byJail.lookup call.jail ≠ some (n, a)) (hnew : call.leaves ≠ some (n, a)) :
    (u.step call).isUsed n a = u.isUsed n a := by
  rw [Bool.eq_iff_iff]
  cases call with
  | record jailName nodeId addr =>
    have hother : ¬ (n = nodeId ∧ a = addr) := by
      rintro ⟨rfl, rfl⟩
      exact hnew rfl
    rw [step, isUsed_record, or_iff_right hother, isUsed_release]
    exact and_iff_left hold
  | release jailName =>
    rw [step, isUsed_release]
    exact and_iff_left hold

theorem Consistent.spares (h : u.Consistent) (hallowed : u.Allows call) :
    Spares u (u.step call) call where
  byJail j hj := by rw [byJail_step, if_neg hj]
  addressOf j hj := by
    unfold UsedAddresses.addressOf
    rw [byJail_step, if_neg hj]
  held j n a hj hheld := by
    refine ((h.step hallowed).used_iff n a).2 ⟨j, ?_⟩
    rw [byJail_step, if_neg hj, hheld]
  isUsed := isUsed_step

/-! ## A sequence -/

theorem run_concat : run (calls ++ [call]) = (run calls).step call := by
  rw [run, run, List.foldl_append]
  rfl

theorem permitsFrom_concat (u : UsedAddresses) : u.PermitsFrom (calls ++ [call]) ↔
    u.PermitsFrom calls ∧ (calls.foldl step u).Allows call := by
  induction calls generalizing u with
  | nil => exact and_comm
  | cons c calls ih =>
    rw [List.cons_append, PermitsFrom, PermitsFrom, ih, and_assoc]
    rfl

theorem lastRecord_concat : lastRecord j (calls ++ [call]) =
    if j = call.jail then call.leaves else lastRecord j calls := by
  unfold lastRecord
  rw [List.reverse_concat, List.find?_cons]
  by_cases hj : j = call.jail
  · rw [if_pos hj, hj, decide_eq_true rfl]
    rfl
  · rw [if_neg hj, decide_eq_false (Ne.symm hj)]

/-- A run leaves every jail with what its last call left it with. -/
theorem byJail_run (j : String) : (run calls).byJail.lookup j = lastRecord j calls := by
  induction calls using List.reverseRecOn with
  | nil => rfl
  | append_singleton calls call ih => rw [run_concat, byJail_step, lastRecord_concat, ih]

theorem consistent_run (h : Permitted calls) : (run calls).Consistent := by
  induction calls using List.reverseRecOn with
  | nil => exact .new
  | append_singleton calls call ih =>
    obtain ⟨hcalls, hcall⟩ := (permitsFrom_concat new).1 h
    rw [run_concat]
    exact (ih hcalls).step hcall

/-- **The table is a partial injection.** After any calls, none of which
records an address that another jail has: no two jails have one address,
the addresses used are those jails have, and every jail has that of its
last record since its last release; and the next call changes nothing
about any other jail. -/
theorem partial_injection (calls : List Call) (h : Permitted calls) :
    (∀ j j' x, (run calls).byJail.lookup j = some x → (run calls).byJail.lookup j' = some x →
      j = j') ∧
    (∀ n a, (run calls).isUsed n a = true ↔ ∃ j, (run calls).byJail.lookup j = some (n, a)) ∧
    (∀ j, (run calls).addressOf j = (lastRecord j calls).map Prod.snd) ∧
    ∀ call, (run calls).Allows call → Spares (run calls) (run (calls ++ [call])) call := by
  have hconsistent := consistent_run h
  refine ⟨hconsistent.distinct, hconsistent.used_iff, fun j => ?_, fun call hcall => ?_⟩
  · rw [addressOf, byJail_run]
  · rw [run_concat]
    exact hconsistent.spares hcall

/-- A jail moves to another node, a second one takes its address, and it
goes. -/
def Sample.moves : List Call :=
  [.record "web-0" "node-1" (Ipv4Addr.ofOctets 10 0 60 2),
    .record "web-0" "node-2" (Ipv4Addr.ofOctets 10 0 61 2),
    .record "web-1" "node-1" (Ipv4Addr.ofOctets 10 0 60 2), .release "web-0"]

theorem partial_injection_sample :
    ((run Sample.moves).isUsed "node-1" (Ipv4Addr.ofOctets 10 0 60 2) = true ↔
      ∃ j, (run Sample.moves).byJail.lookup j = some ("node-1", Ipv4Addr.ofOctets 10 0 60 2)) ∧
    (run Sample.moves).addressOf "web-1" = some (Ipv4Addr.ofOctets 10 0 60 2) := by
  have hpermitted : Permitted Sample.moves :=
    ⟨Or.inl (by decide +kernel), Or.inl (by decide +kernel), Or.inl (by decide +kernel),
      trivial, trivial⟩
  obtain ⟨-, hused, haddress, -⟩ := partial_injection Sample.moves hpermitted
  exact ⟨hused "node-1" _, haddress "web-1"⟩

end UsedAddresses

end ControlPlane

end Keel
