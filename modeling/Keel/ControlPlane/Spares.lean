import Keel.ControlPlane.Helpers.Promotions
import Keel.ControlPlane.Helpers.Schedules
import Keel.ControlPlane.Model.Run
/-!
# Whether a standby is found

A replica with volumes is given a standby when it is scheduled, and a
fresh one when it is promoted. Both are the one node the scheduler
prefers, looked at afterwards: if that is the replica's own node, or
advertises no address to replicate to, there is no standby, however many
other nodes could be one. So a standby is found wherever there is one to
find exactly if the preferred node always is one
(`standbysComplete_iff`).
-/

namespace Keel

namespace ControlPlane

variable {w : Worker} {now : Instant}

/-! ## What is promised, and when -/

/-- An alive node of `P` advertises an address to replicate to. -/
def Worker.Advertised (w : Worker) (now : Instant) (P : Set String) : Prop :=
  ∃ m ∈ P, w.Alive now m ∧ (w.registry.replicateAddr m).isSome = true

/-- **What is promised of standbys.** A replica with volumes is scheduled
with one if any other node advertises, and a promotion is refused for want
of one only if no node but the two it is about does. -/
structure StandbysComplete (w : Worker) (now : Instant) : Prop where
  schedules : ∀ r nodeId nodeAddr template address prefixLen standbyNodeId standbyAddr,
    .schedule r nodeId nodeAddr template address prefixLen standbyNodeId standbyAddr ∈
      w.reconcileServices now →
    template.volumes ≠ [] → w.Advertised now {nodeId}ᶜ →
      standbyNodeId.isSome = true ∧ standbyAddr.isSome = true
  promotions : ∀ r old standby, w.placements.lookup r = some old →
    w.standbys.lookup r = some standby →
    w.prepareForceRepin now r = .error .noFreshStandby → ¬ w.Advertised now {old, standby}ᶜ

/-- **The preferred node will do.** Wherever a node advertises: once a
replica of `s` is put on `nodeId`, the node preferred off those that have
a replica of `s` is another one, and advertises; and in a promotion the
foremost node but the two it is about advertises. -/
structure PreferredAdvertises (w : Worker) (now : Instant) : Prop where
  schedules : ∀ before after r nodeId nodeAddr template address prefixLen standbyNodeId
      standbyAddr s,
    w.reconcileServices now = before ++ .schedule r nodeId nodeAddr template address prefixLen
      standbyNodeId standbyAddr :: after →
    (replicaIndex s r).isSome = true → template.volumes ≠ [] → w.Advertised now {nodeId}ᶜ →
      ∃ m, w.Preferred now (insert nodeId (w.occupied before s)) m ∧ m ≠ nodeId ∧
        (w.registry.replicateAddr m).isSome = true
  promotions : ∀ r old standby standbyAddr record,
    Promotable w now r old standby standbyAddr record → w.Advertised now {old, standby}ᶜ →
      ∃ m, w.Foremost now {old, standby}ᶜ m ∧ (w.registry.replicateAddr m).isSome = true

/-! ## A schedule -/

/-- **A schedule has a standby** exactly if the node preferred once its own
is counted in is another, and advertises. -/
theorem Chosen.isSome_standby_iff {before : List ReplicaAction} {s r nodeId : String}
    {template : JailTemplate} {address : Ipv4Addr} {standbyNodeId standbyAddr : Option String}
    (h : Chosen w now before s r nodeId template address standbyNodeId standbyAddr)
    (hvolumes : template.volumes ≠ []) :
    (standbyNodeId.isSome = true ∧ standbyAddr.isSome = true) ↔
      ∃ m, w.Preferred now (insert nodeId (w.occupied before s)) m ∧ m ≠ nodeId ∧
        (w.registry.replicateAddr m).isSome = true := by
  constructor
  · rintro ⟨hid, haddr⟩
    obtain ⟨m, hm⟩ := Option.isSome_iff_exists.1 hid
    obtain ⟨addr, haddr⟩ := Option.isSome_iff_exists.1 haddr
    obtain ⟨-, hpreferred, hne, hreplicate⟩ := (h.standby m addr).1 ⟨hm, haddr⟩
    exact ⟨m, hpreferred, hne, by rw [hreplicate]; rfl⟩
  · rintro ⟨m, hpreferred, hne, hreplicate⟩
    obtain ⟨addr, haddr⟩ := Option.isSome_iff_exists.1 hreplicate
    obtain ⟨hm, hn⟩ := (h.standby m addr).2 ⟨hvolumes, hpreferred, hne, haddr⟩
    rw [hm, hn]
    exact ⟨rfl, rfl⟩

/-! ## A promotion -/

/-- Past the checks, a promotion is refused for want of a fresh standby
exactly if the foremost node but the two does not advertise. -/
theorem Promotable.noFreshStandby_iff {r old standby standbyAddr : String}
    {record : ServiceRecord} (h : Promotable w now r old standby standbyAddr record) :
    w.prepareForceRepin now r = .error .noFreshStandby ↔
      ¬ ∃ m, w.Foremost now {old, standby}ᶜ m ∧ (w.registry.replicateAddr m).isSome = true := by
  rcases h.prepareForceRepin_cases with
    ⟨hrefused, hmute⟩ | ⟨fresh, freshAddr, hfresh, hreplicate, h⟩
  · refine iff_of_true hrefused ?_
    rintro ⟨m, hm, hsome⟩
    rw [hmute m hm] at hsome
    cases hsome
  · refine iff_of_false ?_ (not_not.2 ⟨fresh, hfresh, by rw [hreplicate]; rfl⟩)
    rcases h with h | ⟨podCidr, address, -, -, h⟩
    · rw [h]
      simp
    · rw [h]
      simp

/-- **Standbys are complete** exactly where the preferred node will do. -/
theorem standbysComplete_iff (w : Worker) (now : Instant) :
    StandbysComplete w now ↔ PreferredAdvertises w now := by
  constructor
  · intro h
    refine ⟨?_, fun r old standby standbyAddr record hprom hadvertised => ?_⟩
    · intro before after r nodeId nodeAddr template address prefixLen standbyNodeId standbyAddr s
        hplan hs hvolumes hadvertised
      obtain ⟨s', hchosen⟩ := reconcileServices_chosen before _ after hplan _ _ _ _ _ _ _ _ rfl
      obtain rfl := service_unique hs hchosen.replica
      refine (hchosen.isSome_standby_iff hvolumes).1 (h.schedules r nodeId nodeAddr template address
        prefixLen standbyNodeId standbyAddr ?_ hvolumes hadvertised)
      rw [hplan]
      exact List.mem_append_right _ List.mem_cons_self
    · by_contra hnone
      exact h.promotions r old standby hprom.placed hprom.paired
        (hprom.noFreshStandby_iff.2 hnone) hadvertised
  · intro h
    refine ⟨?_, fun r old standby hplaced hpaired hrefused hadvertised => ?_⟩
    · intro r nodeId nodeAddr template address prefixLen standbyNodeId standbyAddr hmem hvolumes
        hadvertised
      obtain ⟨before, after, hplan⟩ := List.append_of_mem hmem
      obtain ⟨s, hchosen⟩ := reconcileServices_chosen before _ after hplan _ _ _ _ _ _ _ _ rfl
      exact (hchosen.isSome_standby_iff hvolumes).2 (h.schedules before after r nodeId nodeAddr
        template address prefixLen standbyNodeId standbyAddr s hplan hchosen.replica hvolumes
        hadvertised)
    · rcases prepareForceRepin_cases w now r with
        ⟨e, he, hne⟩ | ⟨old', standby', standbyAddr, record, hprom⟩
      · rw [hrefused] at he
        cases he
        exact hne rfl
      · rw [hprom.placed] at hplaced
        rw [hprom.paired] at hpaired
        cases hplaced
        cases hpaired
        exact hprom.noFreshStandby_iff.1 hrefused
          (h.promotions r old standby standbyAddr record hprom hadvertised)

namespace Sample

/-- Three replicas with volumes for two nodes, which refuse them so far. -/
def threeOnTwo : Script :=
  [(register "a", clock 0 200), (register "b", clock 0 200), (service "db" 3 data, clock 1 500)]

/-- A node that advertises no address to replicate to. -/
def mute (id : String) : Request := .register (.ok ⟨id, id ++ ":7621", none, 4, 1024⟩)

/-- `db-0` is on `a`, which falls silent, with its standby on `b`; of the
two nodes left, `c` is mute. -/
def muteFirst : Script :=
  [(register "a", clock 0 200), (register "b", clock 0 200), (service "db" 1 data, clock 1 200),
    (mute "c", clock 2 200), (register "d", clock 2 200), (heartbeat "b", clock 20 200),
    (heartbeat "c", clock 20 200), (heartbeat "d", clock 20 200)]

/-- A schedule of a replica with volumes on `nodeId`, without a standby. -/
def aloneOn (nodeId : String) : ReplicaAction → Bool
  | .schedule _ n _ template _ _ none _ => n == nodeId && !template.volumes.isEmpty
  | _ => false

end Sample

theorem Worker.advertised_of {P : Set String} {m : String} (hm : m ∈ P)
    (halive : (w.registry.resolve m now).isOk = true)
    (hreplicate : (w.registry.replicateAddr m).isSome = true) : w.Advertised now P :=
  ⟨m, hm, Worker.alive_iff_resolve.2 halive, hreplicate⟩

open Sample in
/-- **A standby is missed.** With both nodes busy the scheduler prefers `a`
for `db-2` and for its standby, though `b` could be one; and `db-0` is not
promoted, as `c` is preferred to `d`, which could have been its fresh
standby. -/
theorem standby_missed :
    ¬ StandbysComplete (final spawn threeOnTwo) (2 * second) ∧
      ¬ StandbysComplete (final spawn muteFirst) (21 * second) := by
  refine ⟨fun h => ?_, fun h => ?_⟩
  · have halone : ((final spawn threeOnTwo).reconcileServices (2 * second)).any (aloneOn "a") =
        true := by decide +kernel
    obtain ⟨a, hmem, ha⟩ := List.any_eq_true.1 halone
    cases a with
    | tearDown => cases ha
    | schedule r nodeId nodeAddr template address prefixLen standbyNodeId standbyAddr =>
      cases standbyNodeId with
      | some m => cases ha
      | none =>
        simp only [aloneOn, Bool.and_eq_true, beq_iff_eq, Bool.not_eq_true',
          List.isEmpty_eq_false_iff] at ha
        obtain ⟨rfl, hvolumes⟩ := ha
        have hother : (final spawn threeOnTwo).Advertised (2 * second) {"a"}ᶜ :=
          Worker.advertised_of (m := "b") (by decide) (by decide +kernel) (by decide +kernel)
        obtain ⟨hsome, -⟩ := h.schedules _ _ _ _ _ _ _ _ hmem hvolumes hother
        cases hsome
  · have hother : (final spawn muteFirst).Advertised (21 * second) {"a", "b"}ᶜ :=
      Worker.advertised_of (m := "d") (by decide) (by decide +kernel) (by decide +kernel)
    exact h.promotions "db-0" "a" "b" (by decide +kernel) (by decide +kernel) (by decide +kernel)
      hother

end ControlPlane

end Keel
