import Keel.ControlPlane.Helpers.Steps
import Keel.ControlPlane.Helpers.Plan
/-!
# The table of used addresses

`UsedAddresses` is to hold no address of a node for two jails, and to
call used exactly the addresses it holds. A pass plans against a copy of
the table in which a replica it reschedules has already left its old
address, and may give that address to a later replica of the same pass;
the table itself is written action by action, as the nodes answer. If the
first replica's `Schedule` is then refused and the second's accepted, the
table holds one address for both (`address_shared`). That is the only way
the table goes wrong: in every run in which no pass does so
(`KeepsSlot`), it is consistent throughout (`usedAddresses_consistent`).
-/

namespace Keel

namespace ControlPlane

/-- The replica a `Schedule` is of, and where it puts it. -/
def Forward.slot? (f : Forward) : Option (String × String × Ipv4Addr) :=
  match f.path, f.site with
  | .jail r, .schedule address => some (r, f.nodeId, address)
  | _, _ => none

theorem slot?_forward (a : ReplicaAction) : a.forward.slot? = a.slot? := by
  cases a <;> rfl

namespace Event

/-- After the `Schedule` of a replica was refused, no other replica is
accepted at the address the table still holds for it. -/
def KeepsSlot : Event → Event → Prop
  | .sent before f answer, .sent _ f' answer' =>
    accepted answer = false → ∀ x ∈ f.slot?, ∀ y ∈ f'.slot?,
      before.usedAddresses.byJail.lookup x.1 = some y.2 → y.1 ≠ x.1 → accepted answer' = false
  | _, _ => True

/-- The `Schedule` of `r` was refused, with `r` recorded at `x`. -/
def Refused (r : String) (x : String × Ipv4Addr) : Event → Prop
  | .sent before f answer =>
    accepted answer = false ∧ (∃ y ∈ f.slot?, y.1 = r) ∧
      before.usedAddresses.byJail.lookup r = some x
  | _ => False

instance : DecidableRel KeepsSlot
  | .sent .., .sent .. => inferInstanceAs (Decidable (_ → _))
  | .sent .., .planned .. => inferInstanceAs (Decidable True)
  | .sent .., .applied .. => inferInstanceAs (Decidable True)
  | .planned .., _ => inferInstanceAs (Decidable True)
  | .applied .., _ => inferInstanceAs (Decidable True)

end Event

/-! ## A plan under way -/

theorem Assigned.snoc_inv {u : UsedAddresses} {as : List ReplicaAction} {a : ReplicaAction}
    (h : Assigned u (as ++ [a])) :
    Assigned u as ∧ (∀ x ∈ a.slot?, ∀ y ∈ slots as, y.2 ≠ x.2) ∧
      ∀ x ∈ a.slot?, ∀ r, u.byJail.lookup r = some x.2 → ∃ y ∈ slots as, y.1 = r := by
  generalize hbs : as ++ [a] = bs at h
  cases h with
  | nil => simp at hbs
  | snoc h hname hslot hfree =>
    obtain ⟨rfl, ha⟩ := List.append_inj' hbs rfl
    cases ha
    exact ⟨h, hslot, hfree⟩

/-- A plan of tear-downs alone assigns nothing. -/
theorem Assigned.of_slots_eq_nil {u : UsedAddresses} {as : List ReplicaAction}
    (h : ∀ a ∈ as, a.slot? = none) : Assigned u as := by
  induction as using List.reverseRecOn with
  | nil => exact .nil
  | append_singleton as a ih =>
    have ha : a.slot? = none := h a List.mem_concat_self
    refine .snoc (ih fun b hb => h b (List.mem_append_left _ hb)) ?_ ?_ ?_ <;>
      (intro x hx; rw [ha] at hx; cases hx)

/-- A deletion schedules nothing. -/
theorem deleteActions_assigned {w : Worker} {now : Instant} {u : UsedAddresses} (ord : IterOrder)
    (name : String) : Assigned u (w.deleteActions now ord name) := by
  refine .of_slots_eq_nil fun a ha => ?_
  obtain ⟨_, _, _, rfl, -⟩ := mem_deleteActions.1 ha
  rfl

/-- The table while a plan made against `u` is executed: consistent, and
what it holds for a jail was either scheduled by the plan or is still
what `u` has, every `Schedule` of the jail having been refused. -/
structure Underway (u : UsedAddresses) (as : List ReplicaAction) (w : World) : Prop where
  consistent : w.worker.usedAddresses.Consistent
  recorded : ∀ r x, w.worker.usedAddresses.byJail.lookup r = some x →
    (r, x) ∈ slots as ∨
      u.byJail.lookup r = some x ∧ ∀ y ∈ slots as, y.1 = r → ∃ e ∈ w.log, e.Refused r x

theorem Underway.refused {u : UsedAddresses} {as : List ReplicaAction} {w : World}
    {a : ReplicaAction} {answer : ForwardResult} (h : Underway u as w)
    (hans : accepted answer = false) : Underway u (as ++ [a]) (w.execute a answer) := by
  have hworker : (w.execute a answer).worker = w.worker := by
    rw [World.execute, World.answered_worker, hans]
    rfl
  refine ⟨by rw [hworker]; exact h.consistent, fun r x hr => ?_⟩
  rw [hworker] at hr
  rw [slots_append]
  rcases h.recorded r x hr with hmem | ⟨hu, hrefused⟩
  · exact Or.inl (List.mem_append_left _ hmem)
  · refine Or.inr ⟨hu, fun y hy hyr => ?_⟩
    rcases List.mem_append.1 hy with hy | hy
    · obtain ⟨e, he, hev⟩ := hrefused y hy hyr
      exact ⟨e, List.mem_append_left _ he, hev⟩
    · refine ⟨_, List.mem_concat_self, hans, ⟨y, ?_, hyr⟩, hr⟩
      rw [slot?_forward]
      simpa [slots] using hy

/-- Whoever has the address of a `Schedule` that is sent had its own
`Schedule` refused: when the plan was made the address was free, or that
replica's, who was scheduled earlier in the plan. -/
theorem Underway.refused_of_lookup {u : UsedAddresses} {as : List ReplicaAction} {w : World}
    {a : ReplicaAction} (h : Underway u as w) (hassigned : Assigned u (as ++ [a]))
    {x : String × String × Ipv4Addr} (hx : x ∈ a.slot?) {r : String}
    (hr : w.worker.usedAddresses.byJail.lookup r = some x.2) :
    ∃ e ∈ w.log, e.Refused r x.2 := by
  obtain ⟨-, hslot, hfree⟩ := hassigned.snoc_inv
  rcases h.recorded r _ hr with hmem | ⟨hu, hrefused⟩
  · exact absurd rfl (hslot x hx (r, x.2) hmem)
  · obtain ⟨y, hy, hyr⟩ := hfree x hx r hu
    exact hrefused y hy hyr

/-- **One action keeps the table consistent.** A `Schedule` is accepted at
an address nobody else has: whoever had it when the plan was made was
scheduled earlier in the plan, and was not refused. -/
theorem Underway.execute {u : UsedAddresses} {as : List ReplicaAction} {w : World}
    {a : ReplicaAction} {answer : ForwardResult} (h : Underway u as w)
    (hassigned : Assigned u (as ++ [a]))
    (hlog : (w.execute a answer).log.Pairwise Event.KeepsSlot) :
    Underway u (as ++ [a]) (w.execute a answer) := by
  cases hans : accepted answer with
  | false => exact h.refused hans
  | true =>
    have hworker : (w.execute a answer).worker = a.settle w.worker := by
      rw [World.execute, World.answered_worker, hans]
      rfl
    cases a with
    | tearDown name nodeId nodeAddr =>
      refine ⟨by rw [hworker]; exact h.consistent.release name, fun r x hr => ?_⟩
      rw [hworker] at hr
      simp only [ReplicaAction.settle, UsedAddresses.byJail_release] at hr
      split at hr
      · cases hr
      · have hslots : slots (as ++ [.tearDown name nodeId nodeAddr]) = slots as := by
          rw [slots_append]
          exact List.append_nil _
        rw [hslots]
        refine (h.recorded r x hr).imp id fun hrecorded => ⟨hrecorded.1, fun y hy hyr => ?_⟩
        obtain ⟨e, he, hev⟩ := hrecorded.2 y hy hyr
        exact ⟨e, List.mem_append_left _ he, hev⟩
    | schedule name nodeId nodeAddr template address prefixLen standbyId standbyAddr =>
      -- Whoever else has the address had its own `Schedule` refused, and the
      -- log keeps that slot free.
      have halone : ∀ r, w.worker.usedAddresses.byJail.lookup r = some (nodeId, address) →
          r = name := by
        intro r hr
        by_contra hne
        obtain ⟨e, he, hev⟩ := h.refused_of_lookup hassigned rfl hr
        have hkeeps := (List.pairwise_append.1 hlog).2.2 e he _ (List.mem_singleton.2 rfl)
        cases e with
        | planned => exact hev
        | applied => exact hev
        | sent before f answer' =>
          obtain ⟨hno, ⟨z, hz, rfl⟩, hz'⟩ := hev
          have hrefuse := hkeeps hno z hz _ rfl hz' (fun heq => hne heq.symm)
          rw [hans] at hrefuse
          cases hrefuse
      refine ⟨by rw [hworker]; exact h.consistent.record halone, fun r x hr => ?_⟩
      rw [hworker] at hr
      simp only [ReplicaAction.settle, UsedAddresses.byJail_record] at hr
      have hslots : slots (as ++ [.schedule name nodeId nodeAddr template address prefixLen
          standbyId standbyAddr]) = slots as ++ [(name, nodeId, address)] := by
        rw [slots_append]
        rfl
      rw [hslots]
      split at hr
      · rename_i heq
        cases hr
        exact Or.inl (List.mem_append_right _ (List.mem_singleton.2 (by rw [heq])))
      · rename_i hne
        rcases h.recorded r x hr with hmem | ⟨hu, hrefused⟩
        · exact Or.inl (List.mem_append_left _ hmem)
        · refine Or.inr ⟨hu, fun y hy hyr => ?_⟩
          rcases List.mem_append.1 hy with hy | hy
          · obtain ⟨e, he, hev⟩ := hrefused y hy hyr
            exact ⟨e, List.mem_append_left _ he, hev⟩
          · rw [List.mem_singleton.1 hy] at hyr
            exact absurd hyr.symm hne

/-- A plan that shares no address keeps the table consistent. -/
theorem underway_of_executed {w w' : World} {as : List ReplicaAction} (h : Executed w as w')
    (hassigned : Assigned w.worker.usedAddresses as)
    (hlog : w'.log.Pairwise Event.KeepsSlot) (hw : w.worker.usedAddresses.Consistent) :
    Underway w.worker.usedAddresses as w' := by
  induction h with
  | nil => exact ⟨hw, fun r x hr => Or.inr ⟨hr, by simp [slots]⟩⟩
  | snoc a answer _ ih =>
    have hbefore := List.Pairwise.sublist (List.sublist_append_left _ _) hlog
    exact (ih hassigned.snoc_inv.1 hbefore).execute hassigned hlog

theorem consistent_of_executed {w w' : World} {as : List ReplicaAction} (h : Executed w as w')
    (hassigned : Assigned w.worker.usedAddresses as)
    (hlog : w'.log.Pairwise Event.KeepsSlot) (hw : w.worker.usedAddresses.Consistent) :
    w'.worker.usedAddresses.Consistent :=
  (underway_of_executed h hassigned hlog hw).consistent

/-! ## Every step, every run -/

/-- **A step keeps the table consistent.** -/
theorem consistent_step {w w' : World} (h : Step w w') (hlog : w'.log.Pairwise Event.KeepsSlot)
    (hw : w.worker.usedAddresses.Consistent) : w'.worker.usedAddresses.Consistent := by
  cases h with
  | registry => exact hw
  | apply => exact hw
  | read => exact hw
  | reconcile now h => exact consistent_of_executed h (reconcileServices_assigned hw) hlog hw
  | delete now ord hget h =>
    exact consistent_of_executed h (deleteActions_assigned ord _) hlog hw
  | put answer =>
    rw [World.answered_worker]
    split <;> exact hw
  | drop answer =>
    rw [World.answered_worker]
    split <;> exact hw
  | @promote name prep now answer hprep =>
    rw [World.answered_worker]
    split
    · -- The address was free when the promotion was prepared, and still is.
      refine hw.record fun r hr => ?_
      exact absurd hr (hw.byJail_ne_of_isUsed (prepareForceRepin_ok hprep).free)
    · exact hw
  | fence addr answer =>
    rw [World.answered_worker]
    split <;> exact hw

theorem consistent_serve (request : Request) (o : ℕ → Choice) {w : Worker}
    (hlog : (serve request o w).log.Pairwise Event.KeepsSlot) (hw : w.usedAddresses.Consistent) :
    (serve request o w).after.usedAddresses.Consistent :=
  (serve_steps request o w).invariant_log (fun l => l.Pairwise Event.KeepsSlot)
    (I := fun w => w.worker.usedAddresses.Consistent)
    (fun hpre hlog => hlog.sublist hpre.sublist) consistent_step hlog hw

theorem consistent_final (script : Script) {w : Worker}
    (hlog : ∀ s ∈ history w script, s.log.Pairwise Event.KeepsSlot)
    (hw : w.usedAddresses.Consistent) : (final w script).usedAddresses.Consistent := by
  induction script generalizing w with
  | nil => exact hw
  | cons step rest ih =>
    obtain ⟨request, o⟩ := step
    refine ih (fun s hs => hlog s (List.mem_cons_of_mem _ hs)) ?_
    exact consistent_serve request o (hlog _ List.mem_cons_self) hw

/-- **The table is consistent after every run** in which no pass, having
had the `Schedule` of a replica refused, has another replica accepted at
the address the table holds for the first. -/
theorem usedAddresses_consistent (clusterCidr serviceCidr : Ipv4Net) (script : Script)
    (hlog : ∀ s ∈ history (Worker.spawn clusterCidr serviceCidr) script,
      s.log.Pairwise Event.KeepsSlot) :
    (final (Worker.spawn clusterCidr serviceCidr) script).usedAddresses.Consistent :=
  consistent_final script hlog .new

namespace Sample

/-- At `secs`, every node answering `200`, but `500` to step `i` of the
request. -/
def clockBut (secs i : ℕ) : ℕ → Choice := fun j =>
  ⟨secs * second, .listed, .ok (if j = i then 500 else 200, "")⟩

/-- `web-0` is deleted behind the service's back, and its address kept;
the next pass moves `web-0` off it and gives it to `web-1`. -/
def addressGiven : Script :=
  [(register "a", clock 0 200), (service "web" 1 [], clock 1 200), (.deleteJail "web-0", clock 2 200)]

end Sample

open Sample in
theorem usedAddresses_consistent_sample :
    (final spawn (addressGiven ++ [(service "web" 2 [], clock 3 200),
      (heartbeat "a", clock 4 200)])).usedAddresses.Consistent :=
  usedAddresses_consistent _ _ _ (by decide +kernel)

open Sample in
/-- **A refused `Schedule` leaves its address to two.** The pass has
`web-0` refused and `web-1` accepted at the address `web-0` still has. -/
theorem address_shared :
    ¬ (final spawn (addressGiven ++
      [(service "web" 2 [], clockBut 3 2)])).usedAddresses.Consistent := by
  intro h
  have hweb0 : (final spawn (addressGiven ++ [(service "web" 2 [], clockBut 3 2)])
      ).usedAddresses.byJail.lookup "web-0" =
        (final spawn (addressGiven ++ [(service "web" 2 [], clockBut 3 2)])
      ).usedAddresses.byJail.lookup "web-1" := by decide +kernel
  have hsome : ((final spawn (addressGiven ++ [(service "web" 2 [], clockBut 3 2)])
      ).usedAddresses.byJail.lookup "web-1").isSome := by decide +kernel
  obtain ⟨x, hx⟩ := Option.isSome_iff_exists.1 hsome
  exact absurd (h.distinct "web-0" "web-1" x (hweb0.trans hx) hx) (by decide)

end ControlPlane

end Keel
