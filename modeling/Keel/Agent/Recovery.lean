import Keel.Agent.Model.Pair
import Keel.Agent.Helpers.Replication
/-!
# Recovery from a rejected base

A standby that does not have the base of a stream answers `NEED_FULL`,
and the loop drops its base: the next tick sends a full stream. The
standby takes that stream only if it has recorded no snapshot at all,
since it asks for the same base it has, and a full stream has none. So
the two recover exactly if the standby that rejected the base had nothing
recorded (`recovers_iff`).
-/

namespace Keel

namespace Agent

/-- Nothing goes wrong that would keep a tick from being answered, sent
and received. -/
structure Faults.Clean (f : Faults) : Prop where
  snapshots : f.snapshots = true
  connects : f.connects = true
  saves : f.saves = true
  acks : f.acks = true
  sends : f.sends = true
  arrives : f.arrives = true
  receives : f.receives = true

namespace Pair

/-- The tick is told to proceed, and leaves the two of one mind. -/
def Recovers (p : Pair) (f : Faults) : Prop :=
  (p.tick f).1 = some .proceed ∧
    (p.tick f).2.standby.targets.last p.loop.replicaName = (p.tick f).2.loop.lastConfirmedSent

/-- Something that drives the two no further apart: of a tick that the
standby tells to proceed neither end has a stream, and a tick to another
standby is not confirmed. -/
def Steady (p : Pair) : Happening → Prop
  | .tick f =>
    match p.replicateTo with
    | none => True
    | some addr =>
      if addr = p.standbyAddr then
        f.connects = true → f.saves = true → f.acks = true →
          p.loop.lastConfirmedSent = p.standby.targets.last p.loop.replicaName →
          f.sends = false ∧ (f.arrives && f.receives) = false
      else f.elsewhere ≠ .ok
  | _ => True

/-- One steady thing after another. -/
def SteadyAlong (p : Pair) : List Happening → Prop
  | [] => True
  | h :: hs => p.Steady h ∧ (p.step h).SteadyAlong hs

/-- The loop has no base to send on, and the standby has recorded `x`. -/
structure Baseless (x : Option String) (p : Pair) : Prop where
  base : p.loop.lastConfirmedSent = none
  last : p.standby.targets.last p.loop.replicaName = x
  saved : p.standby.targets.savedLast p.loop.replicaName = x
  dataset : p.loop.dataset ∈ p.zfs.datasets

end Pair

/-! ## One exchange -/

section Exchange

variable {f : Faults} {loop : ReplicationLoop} {zfs : FakeZfsManager} {standby : Listener}

/-- An answer leaves the standby what it had recorded, and saves it. -/
theorem savedLast_answer {x : Option String} (loop : ReplicationLoop) (saved : Bool) (addr : String)
    (hlast : standby.targets.last loop.replicaName = x)
    (hsaved : standby.targets.savedLast loop.replicaName = x) :
    (standby.answer saved loop.header addr).2.targets.savedLast loop.replicaName = x := by
  rw [Listener.answer_targets, ReplicaTargetRegistry.savedLast_ensure]
  split
  · exact hlast
  · exact hsaved

/-- **What an exchange can come to.** -/
theorem exchange_cases (f : Faults) (loop : ReplicationLoop) (zfs : FakeZfsManager)
    (standby : Listener) :
    exchange f loop zfs standby = (none, .io, standby) ∧ f.connects = false ∨
      exchange f loop zfs standby =
          (none, .io, (standby.answer f.saves loop.header f.peerAddr).2) ∧
        ¬ (f.saves = true ∧ f.acks = true) ∨
      (f.connects = true ∧ f.saves = true ∧ f.acks = true) ∧
        (loop.lastConfirmedSent ≠ standby.targets.last loop.replicaName ∧
            exchange f loop zfs standby =
              (some .needFull, .needFull, (standby.answer true loop.header f.peerAddr).2) ∨
          loop.lastConfirmedSent = standby.targets.last loop.replicaName ∧
            (loop.stream zfs = none ∧
                exchange f loop zfs standby =
                  (some .proceed, .io, (standby.answer true loop.header f.peerAddr).2) ∨
              ∃ stream, loop.stream zfs = some stream ∧
                exchange f loop zfs standby =
                  (some .proceed, if f.sends then .ok else .io,
                    ((standby.answer true loop.header f.peerAddr).2.take f loop.header stream).2))) := by
  cases hconnects : f.connects with
  | false =>
    left
    simp [exchange, hconnects]
  | true =>
    right
    -- The ack is sent only if the store was saved, and says whether the
    -- base of the header is the one on record.
    have hack := standby.answer_ack f.saves loop.header f.peerAddr
    cases hsaves : f.saves with
    | false =>
      left
      rw [hsaves] at hack
      rcases hans : standby.answer false loop.header f.peerAddr with ⟨_ | ack, l⟩
      · simp only [exchange, hconnects, hsaves, hans]
        simp
      · rw [hans] at hack
        cases hack
    | true =>
      rw [hsaves] at hack
      rcases hans : standby.answer true loop.header f.peerAddr with ⟨_ | ack, l⟩
      · rw [hans] at hack
        cases hack
      rw [hans] at hack
      cases hacks : f.acks with
      | false =>
        left
        simp only [exchange, hconnects, hsaves, hans, hacks]
        simp
      | true =>
        right
        refine ⟨⟨rfl, rfl, rfl⟩, ?_⟩
        by_cases hbase : loop.header.baseSnapshotId = standby.targets.last loop.header.replicaName
        · right
          refine ⟨hbase, ?_⟩
          have hproceed : ack = .proceed := by
            rw [if_pos rfl, if_pos hbase] at hack
            exact Option.some.inj hack
          subst hproceed
          cases hstream : loop.stream zfs with
          | none =>
            left
            simp only [exchange, hconnects, hsaves, hans, hacks, hstream]
            simp
          | some stream =>
            right
            refine ⟨stream, rfl, ?_⟩
            simp only [exchange, hconnects, hsaves, hans, hacks, hstream, if_true]
        · left
          refine ⟨hbase, ?_⟩
          have hneed : ack = .needFull := by
            rw [if_pos rfl, if_neg hbase] at hack
            exact Option.some.inj hack
          subst hneed
          simp only [exchange, hconnects, hsaves, hans, hacks]
          simp

/-- A stream neither end has leaves the standby as it was. -/
theorem Listener.take_of_not_received (l : Listener) (header : Header) (stream : SendStream)
    (h : (f.arrives && f.receives) = false) : l.take f header stream = (false, l) := by
  have hnone : l.receive f.receives header (if f.arrives then some stream else none) =
      (false, l) := by
    rw [Listener.receive]
    cases harrives : f.arrives with
    | false => split <;> rfl
    | true =>
      rw [harrives, Bool.true_and] at h
      rw [h]
      rfl
  rw [Listener.take, hnone]

/-- A whole stream with no base is taken and recorded. -/
theorem Listener.last_take (l : Listener) {header : Header} {stream : SendStream}
    (hknown : header.replicaName ∈ l.targets.byName) (harrives : f.arrives = true)
    (hreceives : f.receives = true) (hbase : stream.base = none) :
    (l.take f header stream).2.targets.last header.replicaName = some header.snapshotId := by
  have hreceive : l.receive true header (some stream) =
      (true, { l with zfs := l.zfs.store (l.dataset header.replicaName) stream }) := by
    refine l.receive_of_base header ?_
    rw [hbase]
    rintro _ ⟨⟩
  rw [Listener.take, harrives, hreceives, if_pos rfl, hreceive]
  exact (Listener.record_last _ f.records header _ hknown).trans (if_pos rfl)

end Exchange

/-! ## The turns of the loop -/

namespace Pair

variable {p : Pair} {f : Faults} {x : Option String}

/-- The loop, as a tick finds it. -/
def bumped (p : Pair) : ReplicationLoop := { p.loop with tick := p.loop.tick + 1 }

/-- A tick to the standby, once the snapshot is taken. -/
theorem tick_of_snapshot {zfs : FakeZfsManager} (hto : p.replicateTo = some p.standbyAddr)
    (hsnap : p.bumped.takeSnapshot f.snapshots p.fresh p.zfs = (true, zfs)) :
    p.tick f =
      ((exchange f p.bumped zfs p.standby).1,
        { p with
          loop := (p.bumped.conclude f.prunes (exchange f p.bumped zfs p.standby).2.1 zfs).1
          zfs := (p.bumped.conclude f.prunes (exchange f p.bumped zfs p.standby).2.1 zfs).2
          standby := (exchange f p.bumped zfs p.standby).2.2
          fresh := p.fresh + 1 }) := by
  simp only [bumped] at hsnap
  simp only [tick, hto, hsnap, if_true, bumped]

/-- **A tick comes to one of four things**: there is no one to send to,
there is no snapshot, it goes to another standby, it goes to this one. -/
theorem tick_cases (p : Pair) (f : Faults) :
    p.replicateTo = none ∧ p.tick f = (none, { p with loop := p.bumped }) ∨
      (p.bumped.takeSnapshot f.snapshots p.fresh p.zfs).1 = false ∧
        p.tick f = (none, { p with
          loop := p.bumped
          zfs := (p.bumped.takeSnapshot f.snapshots p.fresh p.zfs).2 }) ∨
      ∃ addr zfs, p.replicateTo = some addr ∧
        p.bumped.takeSnapshot f.snapshots p.fresh p.zfs = (true, zfs) ∧
        (addr ≠ p.standbyAddr ∧
            p.tick f = (none, { p with
              loop := (p.bumped.conclude f.prunes f.elsewhere zfs).1
              zfs := (p.bumped.conclude f.prunes f.elsewhere zfs).2
              fresh := p.fresh + 1 }) ∨
          addr = p.standbyAddr) := by
  cases hto : p.replicateTo with
  | none =>
    left
    simp only [tick, hto, bumped, true_and]
  | some addr =>
    right
    rcases hsnap : p.bumped.takeSnapshot f.snapshots p.fresh p.zfs with ⟨_ | _, zfs⟩
    · left
      simp only [bumped] at hsnap
      simp only [tick, hto, hsnap, bumped, true_and]
    · right
      refine ⟨addr, zfs, rfl, rfl, ?_⟩
      by_cases haddr : addr = p.standbyAddr
      · exact Or.inr haddr
      · left
        simp only [bumped] at hsnap
        simp only [tick, hto, hsnap, bumped, if_neg haddr]
        exact ⟨haddr, trivial⟩

/-- A rejection leaves the loop with no base, and the standby with what it
had recorded, on disk as well. -/
theorem baseless_of_needFull (h : (p.tick f).1 = some .needFull) :
    (p.tick f).2.Baseless (p.standby.targets.last p.loop.replicaName) := by
  rcases p.tick_cases f with ⟨-, htick⟩ | ⟨-, htick⟩ | ⟨addr, zfs, hto, hsnap, ⟨-, htick⟩ | rfl⟩
  · rw [htick] at h
    cases h
  · rw [htick] at h
    cases h
  · rw [htick] at h
    cases h
  rw [tick_of_snapshot hto hsnap] at h ⊢
  obtain ⟨hdataset, hdatasets, -⟩ := ReplicationLoop.takeSnapshot_true hsnap
  rcases exchange_cases f p.bumped zfs p.standby with
    ⟨hex, -⟩ | ⟨hex, -⟩ | ⟨-, ⟨-, hex⟩ | ⟨-, ⟨-, hex⟩ | ⟨stream, -, hex⟩⟩⟩
  · rw [hex] at h
    cases h
  · rw [hex] at h
    cases h
  · rw [hex]
    refine ⟨rfl, Listener.answer_last .., ?_, ?_⟩
    · exact (ReplicaTargetRegistry.savedLast_ensure ..).trans (if_pos ⟨rfl, rfl⟩)
    · exact hdatasets ▸ hdataset
  · rw [hex] at h
    cases h
  · rw [hex] at h
    cases h

/-- A conclusion other than a confirmation leaves a loop with no base as
it was. -/
theorem conclude_of_base {loop : ReplicationLoop} {result : SendOnce} (pruned : Bool)
    (zfs : FakeZfsManager) (hbase : loop.lastConfirmedSent = none) (hresult : result ≠ .ok) :
    loop.conclude pruned result zfs = (loop, zfs) := by
  cases result with
  | ok => exact absurd rfl hresult
  | needFull => rw [ReplicationLoop.conclude, ← hbase]
  | io => rfl

/-- **A steady tick** leaves the two as far apart as they were. -/
theorem Baseless.tick (hp : p.Baseless x) (hs : p.Steady (.tick f)) :
    (p.tick f).2.Baseless x := by
  obtain ⟨hbase, hlast, hsaved, hdataset⟩ := hp
  have hbumped : p.bumped.lastConfirmedSent = none := hbase
  have hsnaps : p.loop.dataset ∈
      (p.bumped.takeSnapshot f.snapshots p.fresh p.zfs).2.datasets := by
    rw [ReplicationLoop.takeSnapshot_datasets]
    exact hdataset
  rcases p.tick_cases f with ⟨-, htick⟩ | ⟨-, htick⟩ | ⟨addr, zfs, hto, hsnap, ⟨hne, htick⟩ | rfl⟩
  · rw [htick]
    exact ⟨hbase, hlast, hsaved, hdataset⟩
  · rw [htick]
    exact ⟨hbase, hlast, hsaved, hsnaps⟩
  · have helse : f.elsewhere ≠ .ok := by
      simpa only [Steady, hto, if_neg hne] using hs
    rw [htick, conclude_of_base f.prunes zfs hbumped helse]
    rw [hsnap] at hsnaps
    exact ⟨hbase, hlast, hsaved, hsnaps⟩
  rw [hsnap] at hsnaps
  rw [tick_of_snapshot hto hsnap]
  have hquiet : f.connects = true → f.saves = true → f.acks = true →
      p.loop.lastConfirmedSent = p.standby.targets.last p.loop.replicaName →
      f.sends = false ∧ (f.arrives && f.receives) = false := by
    simpa only [Steady, hto, if_true] using hs
  have hanswer : ∀ saved, (p.standby.answer saved p.bumped.header f.peerAddr).2.targets.savedLast
      p.loop.replicaName = x := fun saved =>
    savedLast_answer p.bumped saved f.peerAddr hlast hsaved
  -- Whichever way it goes, the loop confirms nothing and the standby records nothing.
  rcases exchange_cases f p.bumped zfs p.standby with
    ⟨hex, -⟩ | ⟨hex, -⟩ | ⟨hanswered, ⟨-, hex⟩ | ⟨hmatch, ⟨-, hex⟩ | ⟨stream, -, hex⟩⟩⟩
  · rw [hex, conclude_of_base _ _ hbumped (by rintro ⟨⟩)]
    exact ⟨hbase, hlast, hsaved, hsnaps⟩
  · rw [hex, conclude_of_base _ _ hbumped (by rintro ⟨⟩)]
    exact ⟨hbase, (Listener.answer_last ..).trans hlast, hanswer _, hsnaps⟩
  · rw [hex, conclude_of_base _ _ hbumped (by rintro ⟨⟩)]
    exact ⟨hbase, (Listener.answer_last ..).trans hlast, hanswer _, hsnaps⟩
  · rw [hex, conclude_of_base _ _ hbumped (by rintro ⟨⟩)]
    exact ⟨hbase, (Listener.answer_last ..).trans hlast, hanswer _, hsnaps⟩
  · obtain ⟨hsends, hreceived⟩ := hquiet hanswered.1 hanswered.2.1 hanswered.2.2 hmatch
    rw [hex, hsends, Listener.take_of_not_received _ _ _ hreceived,
      conclude_of_base _ _ hbumped (by rintro ⟨⟩)]
    exact ⟨hbase, (Listener.answer_last ..).trans hlast, hanswer _, hsnaps⟩

theorem Baseless.step {h : Happening} (hp : p.Baseless x) (hs : p.Steady h) :
    (p.step h).Baseless x := by
  cases h with
  | tick f => exact hp.tick hs
  | restartPrimary => exact ⟨rfl, hp.last, hp.saved, hp.dataset⟩
  | restartStandby => exact ⟨hp.base, hp.saved, hp.saved, hp.dataset⟩
  | retarget replicateTo => exact ⟨hp.base, hp.last, hp.saved, hp.dataset⟩

theorem Baseless.run {hs : List Happening} (hp : p.Baseless x) (hsteady : p.SteadyAlong hs) :
    (p.run hs).Baseless x := by
  induction hs generalizing p with
  | nil => exact hp
  | cons h hs ih => exact ih (hp.step hsteady.1) hsteady.2

/-- A clean tick of a loop with no base is taken by a standby that has
recorded nothing, and by no other. -/
theorem Baseless.recovers (hp : p.Baseless x) (hto : p.replicateTo = some p.standbyAddr)
    (hf : f.Clean) : p.Recovers f ↔ x = none := by
  obtain ⟨hbase, hlast, -, hdataset⟩ := hp
  have hbumped : p.bumped.lastConfirmedSent = none := hbase
  have hsnap : ∃ zfs, p.bumped.takeSnapshot f.snapshots p.fresh p.zfs = (true, zfs) := by
    rw [hf.snapshots]
    exact ReplicationLoop.takeSnapshot_of_dataset hdataset
  obtain ⟨zfs, hsnap⟩ := hsnap
  have hholds := (ReplicationLoop.takeSnapshot_true hsnap).2.2
  -- Of what the exchange can come to, a clean one leaves two: the header,
  -- with no base, is rejected, or a full stream is sent and taken.
  rw [Recovers, tick_of_snapshot hto hsnap]
  rcases exchange_cases f p.bumped zfs p.standby with
    ⟨-, hno⟩ | ⟨-, hno⟩ | ⟨-, ⟨hmismatch, hex⟩ | ⟨hmatch, ⟨hstream, -⟩ | ⟨stream, hstream, hex⟩⟩⟩
  · rw [hf.connects] at hno
    cases hno
  · exact absurd ⟨hf.saves, hf.acks⟩ hno
  · rw [hex]
    constructor
    · rintro ⟨⟨⟩, -⟩
    · intro hx
      exact absurd (hbase.trans (hx.symm.trans hlast.symm)) hmismatch
  · obtain ⟨stream, hsome, -⟩ := ReplicationLoop.stream_of_base hbumped hholds
    rw [hstream] at hsome
    cases hsome
  · obtain ⟨stream', hsome, hfull⟩ := ReplicationLoop.stream_of_base hbumped hholds
    have heq : stream' = stream := Option.some.inj (hsome.symm.trans hstream)
    subst heq
    rw [hex, hf.sends]
    refine ⟨fun _ => ?_, fun _ => ⟨rfl, ?_⟩⟩
    · exact hlast.symm.trans (hmatch.symm.trans hbase)
    · exact Listener.last_take _ (Listener.answer_mem ..) hf.arrives hf.receives hfull

end Pair

/-- **Replication recovers from a rejected base** exactly if the standby
that rejected it had recorded nothing. Between the rejection and the next
clean tick to the standby anything steady may happen. -/
theorem recovers_iff (p : Pair) (rejected : Faults) (between : List Happening) (next : Faults)
    (hrejected : (p.tick rejected).1 = some .needFull)
    (hsteady : (p.tick rejected).2.SteadyAlong between)
    (hto : ((p.tick rejected).2.run between).replicateTo =
      some ((p.tick rejected).2.run between).standbyAddr)
    (hnext : next.Clean) :
    ((p.tick rejected).2.run between).Recovers next ↔
      p.standby.targets.last p.loop.replicaName = none :=
  ((Pair.baseless_of_needFull hrejected).run hsteady).recovers hto hnext

/-! ## Two pairs -/

namespace Sample

/-- Nothing goes wrong. -/
def clean : Faults := ⟨true, true, true, true, true, true, true, true, true, .io, "a:4434"⟩

/-- A primary with its volume, and a standby that has nothing. -/
def pair : Pair where
  loop := .spawn "db-0" "db-0-data" "zroot"
  zfs := FakeZfsManager.new.createVolume volume
  replicateTo := some "b:4434"
  standbyAddr := "b:4434"
  standby := ⟨"zroot", .new, .load ∅⟩
  fresh := 0

end Sample

open Sample in
/-- A base confirmed by another standby is rejected by one that has
nothing; the two recover. -/
theorem recovers_iff_sample :
    ((Sample.pair.run [.retarget (some "c:4434"), .tick { clean with elsewhere := .ok },
        .retarget (some "b:4434")]).tick clean).1 = some .needFull ∧
      (((Sample.pair.run [.retarget (some "c:4434"), .tick { clean with elsewhere := .ok },
        .retarget (some "b:4434")]).tick clean).2.run [.restartStandby]).Recovers clean := by
  have hrejected : ((Sample.pair.run [.retarget (some "c:4434"),
      .tick { clean with elsewhere := .ok }, .retarget (some "b:4434")]).tick clean).1 =
        some .needFull := by decide +kernel
  refine ⟨hrejected, ?_⟩
  exact (recovers_iff _ clean [.restartStandby] clean hrejected ⟨trivial, trivial⟩
    (by decide +kernel) ⟨rfl, rfl, rfl, rfl, rfl, rfl, rfl⟩).2 (by decide +kernel)

open Sample in
/-- The primary restarts once its standby has a snapshot: its full stream
is rejected, and so is the next one, though nothing goes wrong. -/
theorem full_stream_rejected :
    ((Sample.pair.run [.tick clean, .restartPrimary]).tick clean).1 = some .needFull ∧
      clean.Clean ∧
      ((Sample.pair.run [.tick clean, .restartPrimary, .tick clean]).tick clean).1 =
        some .needFull ∧
      ¬ (Sample.pair.run [.tick clean, .restartPrimary, .tick clean]).Recovers clean := by
  have hagain : ((Sample.pair.run [.tick clean, .restartPrimary, .tick clean]).tick clean).1 =
      some .needFull := by decide +kernel
  refine ⟨by decide +kernel, ⟨rfl, rfl, rfl, rfl, rfl, rfl, rfl⟩, hagain, fun h => ?_⟩
  rw [Pair.Recovers, hagain] at h
  cases h.1

end Agent

end Keel
