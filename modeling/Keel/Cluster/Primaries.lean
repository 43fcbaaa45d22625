import Mathlib.Data.Fintype.Basic
import Keel.Cluster.Helpers
/-!
# Primaries and the streams they are sent

An agent with a record of a replica is its primary, and is not to take a
stream of it. Its listener does not look at its records: it answers by
the snapshot it last recorded of the replica, and keeps that over a
promotion. So a standby that is promoted while the old primary's loop
stands on the very snapshot it recorded will take the old primary's next
stream; and one that is promoted while it has a stream to receive will
receive it over the volume it then serves (`primary_overwritten`).

Whether it can be so is settled when records are given out. In every run
in which an agent is given a record of a replica, or is pointed to by
one, only while what it has recorded of the replica keeps it from taking
what the pointing agent's loop sends, now and after a restart, and while
nothing it may yet take is on its way or with its listener (`KeepsOff`),
no primary answers `PROCEED`, and none has a stream to receive, or
receives one (`primary_refuses`).
-/

namespace Keel

open Agent

namespace Cluster

variable {N : Type} (net : Net N) (c : Cluster N)

/-- The agent has a record of the replica. -/
def Holds (m : N) (r : String) : Prop := r ∈ (c.agents m).reconciler.records

/-- The agent a record has its replica replicated to. -/
def pointsTo (n : N) (r : String) : Option N :=
  (((c.agents n).reconciler.records.lookup r).bind fun record =>
    record.spec.spec.replicateTo).bind net.replication

/-- An agent that has a record of the replica is pointed to. -/
def Aims (n : N) (r : String) (m : N) : Prop := c.pointsTo net n r = some m ∧ c.Holds m r

/-- The base is not what the agent has recorded of the replica, in memory
or on disk. -/
def Differs (m : N) (r : String) (base : Option String) : Prop :=
  base ≠ c.last m r ∧ base ≠ c.savedLast m r

/-- **Nothing is on its way** that the agent may take: no header that
stands on what it has recorded, no stream it said yes to, and none that
its listener is not done with. -/
def Clear (m : N) (r : String) : Prop :=
  (∀ n, ∀ t ∈ (c.agents n).threads, t.loop.replicaName = r →
    ∀ addr ∈ t.addr?, net.replication addr = some m →
      t.ack? ≠ some .proceed ∧ (t.ack? = none → c.Differs m r t.loop.lastConfirmedSent)) ∧
  (∀ o ∈ c.orphans, o.dst = m → o.header.replicaName = r →
    c.Differs m r o.header.baseSnapshotId) ∧
  ∀ x ∈ c.receives, x.dst = m → x.header.replicaName = r → x.arrival = .cut

/-- **An agent's loop will not get through** to another: the other has
recorded a snapshot, which is not the one the loop stands on, nor one that
the loop is about to stand on by a tick elsewhere. -/
def Aside (n : N) (r : String) (m : N) : Prop :=
  c.Differs m r none ∧
  ∀ t ∈ (c.agents n).threads, t.loop.replicaName = r → t.GoesOn →
    c.Differs m r t.loop.lastConfirmedSent ∧
      ∀ addr ∈ t.addr?, net.replication addr = some m ∨
        c.Differs m r (some (snapshotId t.loop.tick))

end Cluster

namespace Cluster

variable {N : Type} [DecidableEq N] (net : Net N)

/-- Records are given out so that primaries are kept apart: an agent gets
one of a replica only when nothing it may take is on its way, and is
pointed to by one only when the pointing agent's loop will not get
through. -/
def KeepsOff [Ipnet] (c : Cluster N) (label : Label N) : Prop :=
  ∀ m, ∀ r ∈ ((c.step net label).agents m).reconciler.records.keys,
    (¬ c.Holds m r → c.Clear net m r) ∧
      ∀ n, (c.step net label).pointsTo net n r = some m → ¬ c.Aims net n r m → c.Aside net n r m

/-- No primary says yes to a header of its replica, has a stream of it to
receive, or receives one. -/
def Refuses (c : Cluster N) (label : Label N) : Prop :=
  (∀ x ∈ c.acknowledged net label, x.2 = .proceed → ¬ c.Holds x.1.dst x.1.header.replicaName) ∧
    (∀ x ∈ c.receives, x.arrival ≠ .cut → ¬ c.Holds x.dst x.header.replicaName) ∧
    ∀ x ∈ c.stores label, ¬ c.Holds x.dst x.header.replicaName

/-! ## Decidable -/

section Decidable

variable (c : Cluster N)

instance (m : N) (r : String) : Decidable (c.Holds m r) := inferInstanceAs (Decidable (_ ∈ _))

instance (n : N) (r : String) (m : N) : Decidable (c.Aims net n r m) :=
  inferInstanceAs (Decidable (_ ∧ _))

instance (m : N) (r : String) (base : Option String) : Decidable (c.Differs m r base) :=
  inferInstanceAs (Decidable (_ ∧ _))

instance (n : N) (r : String) (m : N) : Decidable (c.Aside net n r m) :=
  inferInstanceAs (Decidable (_ ∧ _))

variable [Fintype N]

instance (m : N) (r : String) : Decidable (c.Clear net m r) :=
  inferInstanceAs (Decidable (_ ∧ _))

variable [Ipnet]

instance (label : Label N) : Decidable (c.KeepsOff net label) :=
  inferInstanceAs (Decidable (∀ _, ∀ _ ∈ _, _))

instance (label : Label N) : Decidable (c.Refuses net label) :=
  inferInstanceAs (Decidable (_ ∧ _))

end Decidable

/-! ## Kept apart -/

/-- **The invariant.** -/
structure Apart (c : Cluster N) : Prop where
  clear : ∀ m r, c.Holds m r → c.Clear net m r
  aside : ∀ n r m, c.Aims net n r m → c.Aside net n r m

/-- A thread that may be at an agent, given what is recorded of its
replica (`c`) and where its records are (`c'`). -/
structure Fits (c c' : Cluster N) (n : N) (t : Thread) : Prop where
  clear : ∀ m, c'.Holds m t.loop.replicaName → ∀ addr ∈ t.addr?, net.replication addr = some m →
    t.ack? ≠ some .proceed ∧
      (t.ack? = none → c.Differs m t.loop.replicaName t.loop.lastConfirmedSent)
  aside : ∀ m, c'.Aims net n t.loop.replicaName m → t.GoesOn →
    c.Differs m t.loop.replicaName t.loop.lastConfirmedSent ∧
      ∀ addr ∈ t.addr?, net.replication addr = some m ∨
        c.Differs m t.loop.replicaName (some (snapshotId t.loop.tick))

variable {net} {c c' : Cluster N}

omit [DecidableEq N] in
theorem Apart.fits (h : Apart net c) {n : N} {t : Thread} (ht : t ∈ (c.agents n).threads) :
    Fits net c c n t where
  clear m hm := (h.clear m _ hm).1 n t ht rfl
  aside m hm := (h.aside n _ m hm).2 t ht rfl

omit [DecidableEq N] in
/-- **What a step has to see to**, thread by thread and header by header. -/
theorem Apart.of_step (hclear : ∀ m r, c'.Holds m r → c.Clear net m r)
    (haside : ∀ n r m, c'.Aims net n r m → c.Aside net n r m)
    (hdiffers : ∀ m r base, c'.Holds m r → c.Differs m r base → c'.Differs m r base)
    (hthreads : ∀ n, ∀ t ∈ (c'.agents n).threads, t ∈ (c.agents n).threads ∨ Fits net c c' n t)
    (horphans : ∀ o ∈ c'.orphans, o ∈ c.orphans ∨ (c'.Holds o.dst o.header.replicaName →
      c.Differs o.dst o.header.replicaName o.header.baseSnapshotId))
    (hreceives : ∀ x ∈ c'.receives, x ∈ c.receives ∨
      (c'.Holds x.dst x.header.replicaName → x.arrival = .cut)) :
    Apart net c' where
  clear m r hm := by
    refine ⟨fun n t ht hr addr haddr hdst => ?_, fun o ho hdst hr => hdiffers m r _ hm ?_,
      fun x hx hdst hr => ?_⟩
    · -- Either way what was known of the thread before the step carries over,
      -- as what differs before differs after.
      have hfit : t.ack? ≠ some .proceed ∧
          (t.ack? = none → c.Differs m r t.loop.lastConfirmedSent) := by
        subst hr
        rcases hthreads n t ht with ht | ht
        · exact (hclear m _ hm).1 n t ht rfl addr haddr hdst
        · exact ht.clear m hm addr haddr hdst
      exact hfit.imp_right fun hdiff hack => hdiffers m r _ hm (hdiff hack)
    · subst hdst hr
      rcases horphans o ho with ho | ho
      · exact (hclear _ _ hm).2.1 o ho rfl rfl
      · exact ho hm
    · subst hdst hr
      rcases hreceives x hx with hx | hx
      · exact (hclear _ _ hm).2.2 x hx rfl rfl
      · exact hx hm
  aside n r m hm := by
    refine ⟨hdiffers m r _ hm.2 (haside n r m hm).1, fun t ht hr hgoes => ?_⟩
    have hfit : c.Differs m r t.loop.lastConfirmedSent ∧
        ∀ addr ∈ t.addr?, net.replication addr = some m ∨
          c.Differs m r (some (snapshotId t.loop.tick)) := by
      subst hr
      rcases hthreads n t ht with ht | ht
      · exact (haside n _ m hm).2 t ht rfl hgoes
      · exact ht.aside m hm hgoes
    exact ⟨hdiffers m r _ hm.2 hfit.1, fun addr haddr =>
      (hfit.2 addr haddr).imp_right (hdiffers m r _ hm.2)⟩

omit [DecidableEq N] in
/-- A step that leaves the records alone. -/
theorem Apart.of_loops (h : Apart net c)
    (hrecords : ∀ m, (c'.agents m).reconciler = (c.agents m).reconciler)
    (hdiffers : ∀ m r base, c.Holds m r → c.Differs m r base → c'.Differs m r base)
    (hthreads : ∀ n, ∀ t ∈ (c'.agents n).threads, t ∈ (c.agents n).threads ∨ Fits net c c n t)
    (horphans : ∀ o ∈ c'.orphans, o ∈ c.orphans ∨ (c.Holds o.dst o.header.replicaName →
      c.Differs o.dst o.header.replicaName o.header.baseSnapshotId))
    (hreceives : ∀ x ∈ c'.receives, x ∈ c.receives ∨
      (c.Holds x.dst x.header.replicaName → x.arrival = .cut)) :
    Apart net c' := by
  have hholds : ∀ m r, c'.Holds m r → c.Holds m r := by
    intro m r hm
    rwa [Holds, hrecords] at hm
  have haims : ∀ n r m, c'.Aims net n r m → c.Aims net n r m := by
    intro n r m hm
    rwa [Aims, pointsTo, Holds, hrecords, hrecords] at hm
  refine .of_step (fun m r hm => h.clear m r (hholds m r hm))
    (fun n r m hm => h.aside n r m (haims n r m hm))
    (fun m r base hm => hdiffers m r base (hholds m r hm)) (fun n t ht => ?_) (fun o ho => ?_)
    fun x hx => ?_
  · refine (hthreads n t ht).imp_right fun hfit => ?_
    exact ⟨fun m hm => hfit.clear m (hholds m _ hm), fun m hm => hfit.aside m (haims n _ m hm)⟩
  · exact (horphans o ho).imp_right fun hdiff hm => hdiff (hholds _ _ hm)
  · exact (hreceives x hx).imp_right fun hcut hm => hcut (hholds _ _ hm)

/-- An answer saves what is in memory, and no more; and a yes is no
primary's, or comes to nothing. -/
theorem Apart.listen (h : Apart net c) (o : Orphan N) (arrival : Arrival) (saves : Bool)
    (peerAddr : String) (hyes : c.Holds o.dst o.header.replicaName →
      (c.listen o arrival saves peerAddr).1 = some .proceed → arrival = .cut) :
    Apart net (c.listen o arrival saves peerAddr).2 := by
  refine h.of_loops (fun m => listen_reconciler ..) (fun m r base hm hdiff => ?_)
    (fun n t ht => Or.inl ?_) (fun o ho => Or.inl ?_) fun x hx => ?_
  · refine ⟨?_, ?_⟩
    · rw [listen_last]
      exact hdiff.1
    · rw [listen_savedLast]
      split
      · exact hdiff.1
      · exact hdiff.2
  · rwa [listen_threads] at ht
  · rwa [listen_orphans] at ho
  · refine (mem_listen _ _ _ _ hx).imp_right ?_
    rintro ⟨rfl, hack⟩ hm
    exact hyes hm hack

theorem Apart.turn (h : Apart net c) {n : N} {t : Thread} (i : ℕ) (zfs : FakeZfsManager)
    (hfit : Fits net c c n t) : Apart net (c.turn n i t zfs) := by
  refine h.of_loops (fun m => turn_reconciler ..) (fun m r base hm hdiff => ?_)
    (fun m x hx => ?_) (fun _ => Or.inl) fun _ => Or.inl
  · rwa [Differs, last, savedLast, turn_targets]
  · refine (mem_turn n m i t zfs hx).imp_right ?_
    rintro ⟨rfl, rfl⟩
    exact hfit

omit [DecidableEq N] in
/-- What a primary has under way comes to nothing. -/
theorem Apart.not_holds (h : Apart net c) {x : Receive N} (hx : x ∈ c.receives)
    (hcut : x.arrival ≠ .cut) : ¬ c.Holds x.dst x.header.replicaName :=
  fun hm => hcut ((h.clear _ _ hm).2.2 x hx rfl rfl)

/-- A stream sent to an agent with no record of its replica. -/
theorem Apart.settle (h : Apart net c) (n : N) (i : ℕ) (arrival : Arrival) :
    Apart net (c.settle n i arrival) := by
  refine h.of_loops (fun _ => rfl) (fun _ _ _ _ => id) (fun _ _ => Or.inl) (fun _ => Or.inl)
    fun x hx => ?_
  rcases mem_settle hx with ⟨hx, -⟩ | ⟨y, hy, -, hawaited, rfl⟩
  · exact Or.inl hx
  · have hnot : ¬ c.Holds y.dst y.header.replicaName := h.not_holds hy (by simp [hawaited])
    exact Or.inr fun hm => absurd hm hnot

/-- One received by it. -/
theorem Apart.stored (h : Apart net c) {k : ℕ} {x : Receive N} {stream : SendStream}
    (hk : c.receives[k]? = some x) (hx : x.arrival = .arrived stream) :
    Apart net (c.stored k x stream) := by
  refine h.of_loops (fun m => (stored_keeps ..).1) (fun m r base _ hdiff => ?_)
    (fun n t ht => Or.inl ?_) (fun _ => Or.inl) fun y hy => ?_
  · rwa [Differs, last, savedLast, (stored_keeps ..).2.2]
  · rwa [(stored_keeps ..).2.1] at ht
  · have hnot : ¬ c.Holds x.dst x.header.replicaName :=
      h.not_holds (List.mem_of_getElem? hk) (by simp [hx])
    refine (mem_stored hy).imp_right ?_
    rintro rfl hm
    exact absurd hm hnot

/-- And one recorded. -/
theorem Apart.record (h : Apart net c) (k : ℕ) (saves : Bool) : Apart net (c.record k saves) := by
  -- What is recorded is of no primary's replica.
  have hnot : ∀ x, c.receives[k]? = some x → x.arrival = .stored →
      ¬ c.Holds x.dst x.header.replicaName :=
    fun x hk hx => h.not_holds (List.mem_of_getElem? hk) (by simp [hx])
  refine h.of_loops (fun m => (record_keeps ..).1) (fun m r base hm hdiff => ⟨?_, ?_⟩)
    (fun n t ht => Or.inl ?_) (fun o ho => Or.inl ?_) fun x hx => Or.inl (mem_record hx)
  · rcases c.record_last_cases k saves m r with heq | ⟨x, hk, hx, rfl, rfl, -⟩
    · rw [heq]
      exact hdiff.1
    · exact absurd hm (hnot x hk hx)
  · rcases c.record_savedLast_cases k saves m r with heq | ⟨x, hk, hx, rfl, rfl, -⟩
    · rw [heq]
      exact hdiff.2
    · exact absurd hm (hnot x hk hx)
  · rwa [(record_keeps ..).2.1] at ht
  · rcases c.record_cases k saves with heq | ⟨x, -, -, heq⟩
    · rwa [heq] at ho
    · rw [heq] at ho
      exact ho

omit [DecidableEq N] in
/-- A loop waiting for an answer leaves a header no primary takes. -/
theorem Clear.waiting {n : N} {t : Thread} {o : Orphan N}
    (h : c.Clear net o.dst o.header.replicaName) (ht : t ∈ (c.agents n).threads)
    (ho : Cluster.waiting net n t = some o) :
    c.Differs o.dst o.header.replicaName o.header.baseSnapshotId := by
  obtain ⟨addr, hphase, hdst, heq⟩ := mem_waiting ho
  rw [heq] at h ⊢
  refine (h.1 n t ht rfl addr ?_ hdst).2 ?_
  · simp [Thread.addr?, hphase]
  · simp [Thread.ack?, hphase]

/-! ## The turns of a loop -/

omit [DecidableEq N] in
/-- A thread that is not sending. -/
theorem Fits.of_addr {n : N} {t : Thread} (haddr : t.addr? = none)
    (hbase : ∀ m, c'.Aims net n t.loop.replicaName m → t.GoesOn →
      c.Differs m t.loop.replicaName t.loop.lastConfirmedSent) : Fits net c c' n t where
  clear m _ addr h := by
    rw [haddr] at h
    cases h
  aside m hm hgoes := ⟨hbase m hm hgoes, fun addr h => by
    rw [haddr] at h
    cases h⟩

theorem Apart.wake (h : Apart net c) (n : N) (i : ℕ) (snapshots connects : Bool) :
    Apart net (c.setAgent n ((c.agents n).wake i snapshots connects c.fresh)) := by
  rcases (c.agents n).wake_cases i snapshots connects c.fresh with
    heq | ⟨loop, zfs, phase, hi, heq, -, hphase⟩
  · rw [heq, setAgent, Function.update_eq_self]
    exact h
  · rw [heq]
    have hfit := h.fits (List.mem_of_getElem? hi)
    have hbase : ∀ m, c.Aims net n loop.replicaName m →
        c.Differs m loop.replicaName loop.lastConfirmedSent :=
      fun m hm => (hfit.aside m hm .sleeping).1
    refine h.turn i zfs ?_
    rcases hphase with rfl | rfl | ⟨addr, rfl, record, hrecord, haddr⟩
    · exact .of_addr rfl fun m hm _ => hbase m hm
    · exact .of_addr rfl fun m hm _ => hbase m hm
    · -- It sends to where its record points.
      have hpoints : c.pointsTo net n loop.replicaName = net.replication addr := by
        rw [pointsTo, hrecord, Option.bind_some, haddr, Option.bind_some]
      refine ⟨?_, ?_⟩
      · rintro m hm _ ⟨⟩ hdst
        exact ⟨by simp, fun _ => hbase m ⟨hpoints.trans hdst, hm⟩⟩
      · rintro m hm -
        refine ⟨hbase m hm, ?_⟩
        rintro _ ⟨⟩
        exact Or.inl (hpoints ▸ hm.1)

theorem Apart.answer (h : Apart net c) (n : N) (i : ℕ) (saves : Bool) (peerAddr : String) :
    Apart net (c.answer net n i saves peerAddr) := by
  rcases c.answer_cases net n i saves peerAddr with
    heq | ⟨loop, addr, d, hi, hd, phase, heq, hphase⟩
  · rw [heq]
    exact h
  · rw [heq]
    -- A yes would mean that the primary has recorded the loop's base.
    have hno : c.Holds d loop.replicaName →
        (c.listen ⟨n, d, loop.header⟩ (.awaited i) saves peerAddr).1 ≠ some .proceed := by
      intro hm hyes
      have hdiff := ((h.fits (List.mem_of_getElem? hi)).clear d hm addr rfl hd).2 rfl
      exact hdiff.1 (listen_proceed _ _ _ _ hyes)
    have hlisten := h.listen ⟨n, d, loop.header⟩ (.awaited i) saves peerAddr
      fun hm hyes => absurd hyes (hno hm)
    have hfit : Fits net (c.listen ⟨n, d, loop.header⟩ (.awaited i) saves peerAddr).2
        (c.listen ⟨n, d, loop.header⟩ (.awaited i) saves peerAddr).2 n
          ⟨loop, .sending addr none⟩ :=
      hlisten.fits (by rw [listen_threads]; exact List.mem_of_getElem? hi)
    refine hlisten.turn i _ ?_
    rcases hphase with ⟨rfl, -⟩ | ⟨ack, hack, rfl⟩
    · exact .of_addr rfl fun m hm _ => (hfit.aside m hm .sending).1
    · refine ⟨?_, fun m hm _ => hfit.aside m hm .sending⟩
      rintro m hm _ ⟨⟩ hdst
      obtain rfl : d = m := Option.some.inj (hd.symm.trans hdst)
      refine ⟨?_, nofun⟩
      rintro ⟨⟩
      rw [Holds, listen_reconciler] at hm
      exact hno hm hack

theorem Apart.abandon (h : Apart net c) (n : N) (i : ℕ) : Apart net (c.abandon net n i) := by
  rcases c.abandon_cases net n i with heq | ⟨loop, addr, ack, hi, heq⟩
  · rw [heq]
    exact h
  · rw [heq]
    have ht := List.mem_of_getElem? hi
    have horphaned : Apart net { c.settle n i .cut with
        orphans := c.orphans ++ (Cluster.waiting net n ⟨loop, .sending addr ack⟩).toList } := by
      refine (h.settle n i .cut).of_loops (fun _ => rfl) (fun _ _ _ _ => id) (fun _ _ => Or.inl)
        (fun o ho => ?_) fun _ => Or.inl
      refine (List.mem_append.1 ho).imp_right fun ho hm => ?_
      exact (h.clear _ _ hm).waiting ht (Option.mem_toList.1 ho)
    exact horphaned.turn i _ (.of_addr rfl fun m hm _ =>
      ((horphaned.fits ht).aside m hm .sending).1)

theorem Apart.send (h : Apart net c) (n : N) (i : ℕ) (sends arrives prunes : Bool) :
    Apart net (c.send n i sends arrives prunes) := by
  rcases c.send_cases n i sends arrives prunes with
    heq | ⟨loop, addr, ack, hi, ⟨-, heq⟩ | ⟨rfl, heq | ⟨stream, arrival, -, -, heq⟩⟩⟩
  · rw [heq]
    exact h
  · rw [heq]
    exact h.turn i _ (.of_addr rfl fun m hm _ => (h.aside n _ m hm).1)
  · rw [heq]
    have hsettled := h.settle n i .cut
    exact hsettled.turn i _ (.of_addr rfl fun m hm _ =>
      ((h.fits (List.mem_of_getElem? hi)).aside m hm .sending).1)
  · have hfit := h.fits (List.mem_of_getElem? hi)
    have hsettled := h.settle n i arrival
    have hi' : ((c.settle n i arrival).agents n).threads[i]? =
        some ⟨loop, .sending addr (some .proceed)⟩ := hi
    rw [heq, conclude_turn n i hi']
    split
    · -- Where it has sent the stream is no primary, so its record's other
      -- end is elsewhere.
      refine hsettled.turn i _ (.of_addr rfl fun m hm _ => ?_)
      refine ((hfit.aside m hm .sending).2 addr rfl).resolve_left fun hdst => ?_
      exact (hfit.clear m hm.2 addr rfl hdst).1 rfl
    · exact hsettled.turn i _ (.of_addr rfl fun m hm _ => (hfit.aside m hm .sending).1)

theorem Apart.answerOrphan (h : Apart net c) (k : ℕ) (saves : Bool) (peerAddr : String) :
    Apart net (c.answerOrphan k saves peerAddr) := by
  rw [Cluster.answerOrphan]
  split
  · rename_i o _
    refine (h.listen o .cut saves peerAddr fun _ _ => rfl).of_loops (fun _ => rfl)
      (fun _ _ _ _ => id) (fun _ _ => Or.inl) (fun o' ho' => Or.inl ?_) fun _ => Or.inl
    rw [listen_orphans]
    exact List.mem_of_mem_eraseIdx ho'
  · exact h

theorem Apart.receive (h : Apart net c) (k : ℕ) (works : Bool) :
    Apart net (c.receive k works) := by
  rcases c.receive_cases k works with heq | heq | ⟨x, stream, hk, hx, -, heq⟩
  · rw [heq]
    exact h
  · rw [heq]
    exact h.of_loops (fun _ => rfl) (fun _ _ _ _ => id) (fun _ _ => Or.inl) (fun _ => Or.inl)
      fun x hx => Or.inl (mem_close hx)
  · rw [heq]
    exact h.stored hk hx

/-! ## Every run -/

variable [Ipnet]

theorem Apart.step (h : Apart net c) {label : Label N} (hkeeps : c.KeepsOff net label) :
    Apart net (c.step net label) := by
  have hclear : ∀ m r, (c.step net label).Holds m r → c.Clear net m r := by
    intro m r hm
    by_cases hold : c.Holds m r
    · exact h.clear m r hold
    · exact (hkeeps m r hm).1 hold
  have haside : ∀ n r m, (c.step net label).Aims net n r m → c.Aside net n r m := by
    intro n r m hm
    by_cases hold : c.Aims net n r m
    · exact h.aside n r m hold
    · exact (hkeeps m r hm.2).2 n hm.1 hold
  -- Loops just spawned have no base.
  have hspawned : ∀ n name, Fits net c (c.step net label) n (.spawned (c.agents n).pool name) :=
    fun n name => .of_addr rfl fun m hm _ => (haside n _ m hm).1
  have hcommanded : Commanded c (c.step net label) → Apart net (c.step net label) := by
    intro hcommanded
    refine .of_step hclear haside (fun m r base _ hdiff => ?_) (fun n t ht => ?_)
      (fun o ho => Or.inl (hcommanded.orphans ▸ ho)) fun x hx => Or.inl (hcommanded.receives ▸ hx)
    · rwa [Differs, last, savedLast, (hcommanded.agents m).targets]
    · refine ((hcommanded.agents n).threads t ht).imp_right ?_
      rintro ⟨name, rfl⟩
      exact hspawned n name
  cases label with
  | serve request => exact hcommanded ⟨fun _ => .refl, rfl, rfl⟩
  | advance i o m delivery => exact hcommanded (commanded_advance ..)
  | ask n m request => exact hcommanded (commanded_setAgent (.handle m request _))
  | timer n m => exact hcommanded (commanded_setAgent (.handleCommand m .tick _))
  | assign n podCidr => exact hcommanded (commanded_assign n podCidr)
  | wake n i snapshots connects =>
    exact (h.wake n i snapshots connects).of_loops (fun _ => rfl) (fun _ _ _ _ => id)
      (fun _ _ => Or.inl) (fun _ => Or.inl) fun _ => Or.inl
  | exit n i =>
    rcases (c.agents n).exit_cases i with heq | ⟨loop, hi, heq⟩
    · rw [Cluster.step, heq, setAgent, Function.update_eq_self]
      exact h
    · rw [Cluster.step, heq]
      exact h.turn i (c.agents n).zfs (.of_addr rfl fun m _ hgoes => absurd rfl hgoes.2)
  | answer n i saves peerAddr => exact h.answer n i saves peerAddr
  | abandon n i => exact h.abandon n i
  | send n i sends arrives prunes => exact h.send n i sends arrives prunes
  | answerOrphan k saves peerAddr => exact h.answerOrphan k saves peerAddr
  | receive k works => exact h.receive k works
  | record k saves => exact h.record k saves
  | restart n =>
    refine .of_step hclear haside (fun m r base _ hdiff => ⟨?_, ?_⟩) (fun m t ht => ?_)
      (fun o ho => ?_) fun x hx => ?_
    · rw [Cluster.step, restart_last]
      split
      · exact hdiff.2
      · exact hdiff.1
    · rw [Cluster.step, restart_savedLast]
      exact hdiff.2
    · refine (mem_restart ht).imp_right ?_
      rintro ⟨name, rfl⟩
      exact hspawned m name
    · refine (mem_orphans_restart ho).imp_right ?_
      rintro ⟨t, ht, hwaiting⟩ hm
      exact (hclear _ _ hm).waiting ht hwaiting
    · exact (mem_receives_restart hx).2.imp And.left fun hcut _ => hcut

omit [Ipnet] in
/-- Primaries that are kept apart refuse. -/
theorem Apart.refuses (h : Apart net c) (label : Label N) : c.Refuses net label := by
  refine ⟨fun x hx hproceed hm => ?_, fun x hx => h.not_holds hx, fun x hx => ?_⟩
  · obtain ⟨hheader, arrival, saves, peerAddr, hack⟩ := mem_acknowledged hx
    rw [hproceed] at hack
    have hclear := h.clear _ _ hm
    have hdiff : c.Differs x.1.dst x.1.header.replicaName x.1.header.baseSnapshotId := by
      rcases hheader with ⟨n, t, ht, hwaiting⟩ | horphan
      · exact hclear.waiting ht hwaiting
      · exact hclear.2.1 _ horphan rfl rfl
    exact hdiff.1 (listen_proceed _ _ _ _ hack)
  · obtain ⟨hmem, hcut⟩ := mem_stores hx
    exact h.not_holds hmem hcut

end Cluster

end Keel
