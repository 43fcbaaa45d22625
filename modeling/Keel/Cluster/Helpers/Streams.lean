import Keel.Cluster.Helpers.Names
/-!
# Streams, and the names they tell

The steps that tell an agent a name, or take a snapshot away: a stream
that arrives tells its standby the name, and its sender has the snapshot;
a loop that is done with a tick moves on to the name it sent, and may
prune the one it stood on; a stream that is received is stored. Each
carries the invariant of names (`Identified`) over.
-/

namespace Keel

open Agent

namespace Cluster

variable {N : Type} [DecidableEq N] {net : Net N} {c c' : Cluster N}

/-! ## A stream, and its end -/

section Sent

variable {n : N} {i : ℕ} {loop : ReplicationLoop} {addr : String}

omit [DecidableEq N] in
/-- A loop stands on nothing it has yet to send. -/
theorem Identified.base_ne (h : Identified net c) {ack : Option Ack}
    (hi : (c.agents n).threads[i]? = some ⟨loop, .sending addr ack⟩) :
    loop.lastConfirmedSent ≠ some (snapshotId loop.tick) := by
  intro hbase
  obtain ⟨k, hk, -, hlt⟩ := (h.ticking n).earlier _ (List.mem_of_getElem? hi) _ hbase
  exact absurd (snapshotId_inj hk) (Nat.ne_of_gt (hlt rfl))

omit [DecidableEq N] in
/-- What a loop that was told to proceed shares with the standby that told
it so, if no one else sends to it: all the standby knows but what the loop
is past. -/
theorem Identified.proceeding (h : Identified net c)
    (hi : (c.agents n).threads[i]? = some ⟨loop, .sending addr (some .proceed)⟩) {m : N}
    (hm : net.replication addr = some m) :
    c.Agrees n m ⟨loop, .sending addr (some .proceed)⟩ ∧
      (c.last m loop.replicaName = none →
        ∀ name ∈ loop.lastConfirmedSent, ¬ c.Knows m loop.replicaName name) ∧
      ∀ k, c.Addresses net k m loop.replicaName → k = n := by
  have ht := List.mem_of_getElem? hi
  obtain ⟨hagrees, hnone⟩ := (h.stands n _ ht .sending).told addr rfl m hm rfl
  refine ⟨hagrees, hnone, fun k hk => h.sole k n m _ hk ?_⟩
  exact Addresses.thread (t := ⟨loop, .sending addr (some .proceed)⟩) ht rfl hm

omit [DecidableEq N] in
/-- An agent has one loop of a name. -/
theorem Identified.thread_eq (h : Identified net c) {t t' : Thread}
    (ht : t ∈ (c.agents n).threads) (ht' : t' ∈ (c.agents n).threads)
    (hname : t'.loop.replicaName = t.loop.replicaName) : t' = t :=
  List.inj_on_of_nodup_map (h.ticking n).nodup ht' ht hname

omit [DecidableEq N] in
/-- What a loop sends is the snapshot its agent has. -/
theorem Identified.stream_stamp (h : Identified net c) {phase : ThreadPhase} {stream : SendStream}
    (hi : (c.agents n).threads[i]? = some ⟨loop, phase⟩)
    (hstream : loop.stream (c.agents n).zfs = some stream) :
    (c.agents n).stamp loop.replicaName (snapshotId loop.tick) = some stream.stamp := by
  rw [Agentd.stamp_eq, ← (h.ticking n).dataset _ (List.mem_of_getElem? hi)]
  exact loop.stream_stamp hstream

section Arrive

variable {stream : SendStream} {k m : N} {r name : String}

/-- What is new when a stream arrives is on the connection of its loop. -/
theorem mem_arrive (hlinked : Linked net c)
    (hi : (c.agents n).threads[i]? = some ⟨loop, .sending addr (some .proceed)⟩) {x : Receive N}
    (hx : x ∈ (c.settle n i (.arrived stream)).receives) :
    x ∈ c.receives ∨ net.replication addr = some x.dst ∧ x.header = loop.header ∧
      x.arrival = .arrived stream ∧ c.Addresses net x.src x.dst x.header.replicaName := by
  rcases mem_settle hx with ⟨hx, -⟩ | ⟨y, hy, hsrc, hawaited, rfl⟩
  · exact Or.inl hx
  · obtain ⟨loop', addr', hthread, hdst, hheader⟩ := hlinked.awaited y hy i hawaited
    rw [hsrc, hi] at hthread
    cases hthread
    have hold : c.Addresses net y.src y.dst y.header.replicaName :=
      .receive hy (by simp [hawaited])
    exact Or.inr ⟨hdst, hheader.symm, rfl, hold⟩

theorem Keeps.of_arrive (hlinked : Linked net c)
    (hi : (c.agents n).threads[i]? = some ⟨loop, .sending addr (some .proceed)⟩)
    (h : (c.settle n i (.arrived stream)).Keeps m r name) : c.Keeps m r name := by
  rcases h with hlast | hsaved | ⟨x, hx, hdst, hr, hname, harrival⟩
  · exact Or.inl hlast
  · exact Or.inr (Or.inl hsaved)
  · rcases mem_arrive hlinked hi hx with hx | ⟨-, -, harrived, -⟩
    · exact Or.inr (Or.inr ⟨x, hx, hdst, hr, hname, harrival⟩)
    · exact absurd (harrived.symm.trans harrival) nofun

/-- The name is the loop's, and told to where it sends. -/
theorem Knows.of_arrive (hlinked : Linked net c)
    (hi : (c.agents n).threads[i]? = some ⟨loop, .sending addr (some .proceed)⟩)
    (h : (c.settle n i (.arrived stream)).Knows m r name) :
    c.Knows m r name ∨
      net.replication addr = some m ∧ r = loop.replicaName ∧ name = snapshotId loop.tick := by
  rcases h with hkept | ⟨x, hx, rfl, rfl, rfl, hcome⟩
  · exact Or.inl (Or.inl (hkept.of_arrive hlinked hi))
  · rcases mem_arrive hlinked hi hx with hx | ⟨hdst, hheader, -, -⟩
    · exact Or.inl (Or.inr ⟨x, hx, rfl, rfl, rfl, hcome⟩)
    · rw [hheader]
      exact Or.inr ⟨hdst, rfl, rfl⟩

theorem Addresses.of_arrive (hlinked : Linked net c)
    (hi : (c.agents n).threads[i]? = some ⟨loop, .sending addr (some .proceed)⟩)
    (h : (c.settle n i (.arrived stream)).Addresses net k m r) : c.Addresses net k m r := by
  rcases h with hpoint | hthread | horphan | ⟨x, hx, rfl, rfl, rfl, hcut⟩
  · exact Or.inl hpoint
  · exact Or.inr (Or.inl hthread)
  · exact Or.inr (Or.inr (Or.inl horphan))
  · rcases mem_arrive hlinked hi hx with hx | ⟨-, -, -, haddresses⟩
    · exact .receive hx hcut
    · exact haddresses

/-- What is shared stays shared, what has arrived being the sender's own. -/
theorem Shared.arrive (h : Identified net c) (hlinked : Linked net c)
    (hi : (c.agents n).threads[i]? = some ⟨loop, .sending addr (some .proceed)⟩)
    (hstream : loop.stream (c.agents n).zfs = some stream) (hk : c.Addresses net k m r)
    (hshared : c.Shared k m r name) : (c.settle n i (.arrived stream)).Shared k m r name := by
  obtain ⟨s, hs, hkept, hcome⟩ := hshared
  refine ⟨s, hs, fun hm => hkept (hm.of_arrive hlinked hi),
    fun x hx hdst hr hname stream' h' => ?_⟩
  rcases mem_arrive hlinked hi hx with hx | ⟨hto, hheader, harrived, -⟩
  · exact hcome x hx hdst hr hname stream' h'
  · subst hdst hr hname
    rw [hheader] at hk hs
    rw [(h.proceeding hi hto).2.2 k hk] at hs
    rw [harrived] at h'
    cases h'
    exact Option.some.inj ((h.stream_stamp hi hstream).symm.trans hs)

/-- And so is the name just told. -/
theorem Identified.shared_arrive (h : Identified net c) (hlinked : Linked net c)
    (hi : (c.agents n).threads[i]? = some ⟨loop, .sending addr (some .proceed)⟩)
    (hstream : loop.stream (c.agents n).zfs = some stream) (hto : net.replication addr = some m) :
    (c.settle n i (.arrived stream)).Shared n m loop.replicaName (snapshotId loop.tick) := by
  by_cases hknown : c.Knows m loop.replicaName (snapshotId loop.tick)
  · have hn : c.Addresses net n m loop.replicaName := Addresses.thread
      (t := ⟨loop, .sending addr (some .proceed)⟩) (List.mem_of_getElem? hi) rfl hto
    refine Shared.arrive h hlinked hi hstream hn
      (((h.proceeding hi hto).1 _ hknown).resolve_left ?_)
    rintro ⟨-, j, hj, -, hlt⟩
    exact absurd (snapshotId_inj hj) (Nat.ne_of_gt (hlt rfl))
  · refine ⟨stream.stamp, h.stream_stamp hi hstream,
      fun hkept => absurd (Or.inl (hkept.of_arrive hlinked hi)) hknown,
      fun x hx hdst hr hname stream' h' => ?_⟩
    rcases mem_arrive hlinked hi hx with hx | ⟨-, -, harrived, -⟩
    · refine absurd (Or.inr ⟨x, hx, hdst, hr, hname, ?_⟩) hknown
      rw [h']
      rfl
    · rw [harrived] at h'
      cases h'
      rfl

theorem Agrees.arrive (h : Identified net c) (hlinked : Linked net c)
    (hi : (c.agents n).threads[i]? = some ⟨loop, .sending addr (some .proceed)⟩)
    (hstream : loop.stream (c.agents n).zfs = some stream) {t : Thread}
    (hk : c.Addresses net k m t.loop.replicaName) (hagrees : c.Agrees k m t) :
    (c.settle n i (.arrived stream)).Agrees k m t := by
  intro name hname
  rcases hname.of_arrive hlinked hi with hname | ⟨hto, hr, rfl⟩
  · exact (hagrees name hname).imp_right (Shared.arrive h hlinked hi hstream hk)
  · rw [hr] at hk ⊢
    rw [(h.proceeding hi hto).2.2 k hk]
    exact Or.inr (h.shared_arrive hlinked hi hstream hto)

/-- Of the loops that send to where the stream arrives, there is only its
own. -/
theorem Identified.knows_arrive (h : Identified net c) (hlinked : Linked net c)
    (hi : (c.agents n).threads[i]? = some ⟨loop, .sending addr (some .proceed)⟩) {t : Thread}
    (ht : t ∈ (c.agents k).threads) (hk : c.Addresses net k m t.loop.replicaName)
    (hname : (c.settle n i (.arrived stream)).Knows m t.loop.replicaName name) :
    c.Knows m t.loop.replicaName name ∨ net.replication addr = some m ∧ k = n ∧
      t = ⟨loop, .sending addr (some .proceed)⟩ ∧ name = snapshotId loop.tick := by
  refine (hname.of_arrive hlinked hi).imp_right ?_
  rintro ⟨hto, hr, rfl⟩
  rw [hr] at hk
  obtain rfl := (h.proceeding hi hto).2.2 k hk
  exact ⟨hto, rfl, h.thread_eq (List.mem_of_getElem? hi) ht hr, rfl⟩

theorem Off.arrive (h : Identified net c) (hlinked : Linked net c)
    (hi : (c.agents n).threads[i]? = some ⟨loop, .sending addr (some .proceed)⟩)
    (hstream : loop.stream (c.agents n).zfs = some stream) {t : Thread}
    (ht : t ∈ (c.agents k).threads) (hk : c.Addresses net k m t.loop.replicaName)
    (hoff : c.Off m t) : (c.settle n i (.arrived stream)).Agrees k m t ∨
      (c.settle n i (.arrived stream)).Off m t := by
  by_cases htold : net.replication addr = some m ∧ k = n ∧
      t = ⟨loop, .sending addr (some .proceed)⟩
  · -- The very loop that was told to proceed agrees with where it sends.
    obtain ⟨hto, rfl, rfl⟩ := htold
    exact Or.inl (.arrive h hlinked hi hstream hk (h.proceeding hi hto).1)
  · refine Or.inr ⟨hoff.1, fun name hname hknown => ?_⟩
    rcases h.knows_arrive hlinked hi ht hk hknown with hknown | ⟨hto, hkn, heq, -⟩
    · exact hoff.2 name hname hknown
    · exact htold ⟨hto, hkn, heq⟩

theorem Stands.arrive (h : Identified net c) (hlinked : Linked net c)
    (hi : (c.agents n).threads[i]? = some ⟨loop, .sending addr (some .proceed)⟩)
    (hstream : loop.stream (c.agents n).zfs = some stream) {t : Thread}
    (ht : t ∈ (c.agents k).threads)
    (hstands : Stands net c (c.pointsTo net k t.loop.replicaName) k t) :
    Stands net (c.settle n i (.arrived stream)) (c.pointsTo net k t.loop.replicaName) k t where
  aims m hm := by
    rcases hstands.aims m hm with hagrees | ⟨hoff, hlast⟩
    · exact Or.inl (.arrive h hlinked hi hstream (Or.inl hm) hagrees)
    · exact (Off.arrive h hlinked hi hstream ht (Or.inl hm) hoff).imp_right fun hoff =>
        ⟨hoff, hlast⟩
  elsewhere m hm addr' ha hne := by
    obtain ⟨hbase, htick⟩ := hstands.elsewhere m hm addr' ha hne
    have hold : ∀ name, (c.settle n i (.arrived stream)).Knows m t.loop.replicaName name →
        c.Knows m t.loop.replicaName name := by
      intro name hname
      refine (h.knows_arrive hlinked hi ht (Or.inl hm) hname).resolve_right ?_
      rintro ⟨hto, -, rfl, -⟩
      cases ha
      exact hne hto
    exact ⟨fun name hname hknown => hbase name hname (hold name hknown),
      fun hknown => htick (hold _ hknown)⟩
  waits addr' ha m hm hack := by
    rcases hstands.waits addr' ha m hm hack with hagrees | hoff
    · exact Or.inl (.arrive h hlinked hi hstream (.thread ht ha hm) hagrees)
    · exact Off.arrive h hlinked hi hstream ht (.thread ht ha hm) hoff
  told addr' ha m hm hack := by
    obtain ⟨hagrees, hnone⟩ := hstands.told addr' ha m hm hack
    refine ⟨.arrive h hlinked hi hstream (.thread ht ha hm) hagrees,
      fun hlast name hname hknown => ?_⟩
    rcases h.knows_arrive hlinked hi ht (.thread ht ha hm) hknown with hknown | ⟨-, -, rfl, rfl⟩
    · exact hnone hlast name hname hknown
    · exact h.base_ne hi hname

/-- **A stream that arrives** tells its standby a name, and its sender has
the snapshot of it. -/
theorem Identified.arrive (h : Identified net c) (hlinked : Linked net c)
    (hi : (c.agents n).threads[i]? = some ⟨loop, .sending addr (some .proceed)⟩)
    (hstream : loop.stream (c.agents n).zfs = some stream) :
    Identified net (c.settle n i (.arrived stream)) where
  ticking := h.ticking
  memory := h.memory
  sole k k' m r hk hk' := h.sole k k' m r (hk.of_arrive hlinked hi) (hk'.of_arrive hlinked hi)
  first k m r hpoint hlast name hname := by
    rcases hname.of_arrive hlinked hi with hname | ⟨hto, rfl, rfl⟩
    · exact .arrive h hlinked hi hstream (Or.inl hpoint) (h.first k m r hpoint hlast name hname)
    · rw [(h.proceeding hi hto).2.2 k (Or.inl hpoint)]
      exact h.shared_arrive hlinked hi hstream hto
  stands k t ht hgoes := Stands.arrive h hlinked hi hstream ht (h.stands k t ht hgoes)
  orphans o ho name hname hknown := by
    rcases hknown.of_arrive hlinked hi with hknown | ⟨hto, hr, rfl⟩
    · exact .arrive h hlinked hi hstream (.orphan ho) (h.orphans o ho name hname hknown)
    · have hsrc : c.Addresses net o.src o.dst o.header.replicaName := .orphan ho
      rw [hr] at hsrc ⊢
      rw [(h.proceeding hi hto).2.2 _ hsrc]
      exact h.shared_arrive hlinked hi hstream hto

end Arrive

/-! ### A tick that is done -/

/-- A loop that is done with a tick keeps every snapshot but its base. -/
theorem conclude_stamp (h : Identified net c) {ack : Option Ack} {prunes : Bool}
    (hi : (c.agents n).threads[i]? = some ⟨loop, .sending addr ack⟩) (m : N) (r name : String) :
    ((c.conclude n i prunes .ok).agents m).stamp r name =
      if m = n ∧ r = loop.replicaName ∧ prunes = true ∧ loop.lastConfirmedSent = some name then none
      else (c.agents m).stamp r name := by
  have hdataset := (h.ticking n).dataset _ (List.mem_of_getElem? hi)
  rw [conclude_turn n i hi, turn_stamp]
  by_cases hm : m = n
  · subst hm
    simp only [if_true, true_and, ReplicationLoop.conclude]
    cases hbase : loop.lastConfirmedSent with
    | none =>
      simp only [reduceCtorEq, and_false, if_false, Agentd.stamp_eq]
    | some previous =>
      cases prunes with
      | false =>
        simp only [Bool.false_eq_true, false_and, and_false, if_false, Agentd.stamp_eq]
      | true =>
        simp only [if_true, FakeZfsManager.lookup_destroySnapshot, Option.some.injEq, true_and,
          Agentd.stamp_eq]
        rw [hdataset]
        refine if_congr ⟨fun hkey => ?_, ?_⟩ rfl rfl
        · exact ⟨Listener.dataset_inj (Prod.mk.inj hkey).1, (Prod.mk.inj hkey).2.symm⟩
        · rintro ⟨rfl, rfl⟩
          rfl
  · simp only [hm, false_and, if_false]

section Confirm

variable {prunes : Bool} {k m : N} {r name : String}

/-- The loop as it then is. -/
abbrev confirmed (loop : ReplicationLoop) : Thread :=
  ⟨{ loop with lastConfirmedSent := some (snapshotId loop.tick) }, .sleeping⟩

theorem confirm_targets {ack : Option Ack}
    (hi : (c.agents n).threads[i]? = some ⟨loop, .sending addr ack⟩) :
    (c.conclude n i prunes .ok).last m r = c.last m r ∧
      (c.conclude n i prunes .ok).savedLast m r = c.savedLast m r := by
  rw [conclude_turn n i hi, last, savedLast, turn_targets]
  exact ⟨rfl, rfl⟩

theorem confirm_knows {ack : Option Ack}
    (hi : (c.agents n).threads[i]? = some ⟨loop, .sending addr ack⟩) :
    (c.conclude n i prunes .ok).Knows m r name ↔ c.Knows m r name := by
  rw [Knows, Keeps, (confirm_targets hi).1, (confirm_targets hi).2]
  rfl

theorem confirm_pointsTo {ack : Option Ack}
    (hi : (c.agents n).threads[i]? = some ⟨loop, .sending addr ack⟩) :
    (c.conclude n i prunes .ok).pointsTo net k r = c.pointsTo net k r := by
  rw [conclude_turn n i hi, pointsTo, turn_reconciler, pointsTo]

theorem Identified.ticking_confirm (h : Identified net c) {ack : Option Ack}
    (hi : (c.agents n).threads[i]? = some ⟨loop, .sending addr ack⟩) (prunes : Bool) (m : N) :
    ((c.conclude n i prunes .ok).agents m).Ticking := by
  rw [conclude_turn n i hi, Cluster.turn, agents_setAgent]
  split
  · refine (h.ticking n).setThread _ hi rfl rfl ?_
    rintro _ ⟨⟩
    exact ⟨loop.tick, rfl, le_rfl, by simp⟩
  · exact h.ticking m

/-- A thread of the loop's name is the loop's, and every other was there
before. -/
theorem Identified.mem_confirm (h : Identified net c) {ack : Option Ack}
    (hi : (c.agents n).threads[i]? = some ⟨loop, .sending addr ack⟩) {t : Thread}
    (ht : t ∈ ((c.conclude n i prunes .ok).agents k).threads) :
    k = n ∧ t = confirmed loop ∨
      t ∈ (c.agents k).threads ∧ ¬ (k = n ∧ t.loop.replicaName = loop.replicaName) := by
  have hticking := h.ticking_confirm hi prunes k
  rw [conclude_turn n i hi] at ht hticking
  by_cases hloop : k = n ∧ t.loop.replicaName = loop.replicaName
  · obtain ⟨rfl, hr⟩ := hloop
    refine Or.inl ⟨rfl, List.inj_on_of_nodup_map hticking.nodup ht ?_ hr⟩
    rw [Cluster.turn, agents_setAgent, if_pos rfl]
    exact List.mem_of_getElem? (i := i)
      (List.getElem?_set_self (List.getElem?_eq_some_iff.1 hi).1)
  · refine Or.inr ⟨(mem_turn n k i _ _ ht).resolve_right ?_, hloop⟩
    rintro ⟨rfl, rfl⟩
    exact hloop ⟨rfl, rfl⟩

omit [DecidableEq N] in
/-- It is past its old base, and past what it was past before. -/
theorem Identified.past_confirm (h : Identified net c) {ack : Option Ack}
    (hi : (c.agents n).threads[i]? = some ⟨loop, .sending addr ack⟩)
    (hname : Past ⟨loop, .sending addr ack⟩ name ∨ loop.lastConfirmedSent = some name) :
    Past (confirmed loop) name := by
  have hlt : ∃ j, name = snapshotId j ∧ j < loop.tick := by
    rcases hname with ⟨-, j, hj, -, hlt⟩ | hbase
    · exact ⟨j, hj, hlt rfl⟩
    · obtain ⟨k, hk, -, hlt⟩ := (h.ticking n).earlier _ (List.mem_of_getElem? hi) name hbase
      exact ⟨k, hk, hlt rfl⟩
  obtain ⟨j, rfl, hlt⟩ := hlt
  refine ⟨fun hsame => ?_, j, rfl, hlt.le, nofun⟩
  exact absurd (snapshotId_inj (Option.some.inj hsame)) (Nat.ne_of_gt hlt)

/-- What is shared stays shared, unless it is what is pruned. -/
theorem Shared.confirm (h : Identified net c) {ack : Option Ack}
    (hi : (c.agents n).threads[i]? = some ⟨loop, .sending addr ack⟩) (hshared : c.Shared k m r name)
    (hk : k = n → r = loop.replicaName → prunes = true → loop.lastConfirmedSent ≠ some name)
    (hm : m = n → r = loop.replicaName → prunes = true → loop.lastConfirmedSent ≠ some name) :
    (c.conclude n i prunes .ok).Shared k m r name := by
  obtain ⟨s, hs, hkept, hcome⟩ := hshared
  refine ⟨s, ?_, fun hm' => ?_, hcome⟩
  · rw [conclude_stamp h hi, if_neg fun hgone => hk hgone.1 hgone.2.1 hgone.2.2.1 hgone.2.2.2]
    exact hs
  · rw [conclude_stamp h hi, if_neg fun hgone => hm hgone.1 hgone.2.1 hgone.2.2.1 hgone.2.2.2]
    refine hkept ?_
    rwa [Keeps, (confirm_targets hi).1, (confirm_targets hi).2] at hm'

/-- A standby with nothing recorded shares all it knows. -/
theorem Identified.first_confirm (h : Identified net c)
    (hi : (c.agents n).threads[i]? = some ⟨loop, .sending addr (some .proceed)⟩)
    (hprune : prunes = true → c.Unused net n loop) (hpoint : c.pointsTo net k r = some m)
    (hlast : c.last m r = none) (hname : c.Knows m r name) :
    (c.conclude n i prunes .ok).Shared k m r name := by
  refine .confirm h hi (h.first k m r hpoint hlast name hname) ?_ ?_
  · -- It does not know the base the loop is about to leave.
    rintro rfl rfl - hbase
    by_cases hto : net.replication addr = some m
    · exact (h.proceeding hi hto).2.1 hlast name hbase hname
    · have hstands := h.stands k _ (List.mem_of_getElem? hi) .sending
      exact (hstands.elsewhere m hpoint addr rfl hto).1 name hbase hname
  · rintro rfl rfl hprunes hbase
    exact (((hprune hprunes name hbase).2 hname).2 k hpoint).1.1 hlast.symm

/-- **The loop moves on** to a name that where its record points agrees
with, or does not know. -/
theorem Identified.stands_confirm (h : Identified net c)
    (hi : (c.agents n).threads[i]? = some ⟨loop, .sending addr (some .proceed)⟩)
    (hprune : prunes = true → c.Unused net n loop) :
    Stands net (c.conclude n i prunes .ok) (c.pointsTo net n loop.replicaName) n
      (confirmed loop) := by
  refine .idle rfl fun m hm => ?_
  by_cases hto : net.replication addr = some m
  · refine Or.inl fun name hname => ?_
    rcases (h.proceeding hi hto).1 name ((confirm_knows hi).1 hname) with hpast | hshared
    · exact Or.inl (h.past_confirm hi (Or.inl hpast))
    · by_cases hbase : loop.lastConfirmedSent = some name
      · exact Or.inl (h.past_confirm hi (Or.inr hbase))
      · exact Or.inr (.confirm h hi hshared (fun _ _ _ => hbase) fun _ _ _ => hbase)
  · have hstands := h.stands n _ (List.mem_of_getElem? hi) .sending
    have htick := (hstands.elsewhere m hm addr rfl hto).2
    by_cases hlast : c.last m loop.replicaName = none
    · exact Or.inl fun name hname =>
        Or.inr (h.first_confirm hi hprune hm hlast ((confirm_knows hi).1 hname))
    · refine Or.inr ⟨⟨fun hsame => ?_, ?_⟩, ?_⟩
      · rw [(confirm_targets hi).1] at hsame
        exact htick (Or.inl (Or.inl hsame.symm))
      · rintro _ ⟨⟩ hknown
        exact htick ((confirm_knows hi).1 hknown)
      · rw [(confirm_targets hi).1]
        exact hlast

/-- Another loop agrees with its standby still, or no one gets through to
that. -/
theorem Agrees.confirm (h : Identified net c) {ack : Option Ack}
    (hi : (c.agents n).threads[i]? = some ⟨loop, .sending addr ack⟩)
    (hprune : prunes = true → c.Unused net n loop) {t : Thread}
    (hother : ¬ (k = n ∧ t.loop.replicaName = loop.replicaName)) (hagrees : c.Agrees k m t) :
    (c.conclude n i prunes .ok).Agrees k m t ∨ c.KeptOff net m t.loop.replicaName := by
  by_cases hlost : m = n ∧ t.loop.replicaName = loop.replicaName ∧ prunes = true ∧
      ∃ name, loop.lastConfirmedSent = some name ∧ c.Knows n loop.replicaName name
  · obtain ⟨rfl, hr, hprunes, name, hbase, hknown⟩ := hlost
    rw [hr]
    exact Or.inr ((hprune hprunes name hbase).2 hknown)
  · refine Or.inl fun name hname => ?_
    have hname := (confirm_knows hi).1 hname
    refine (hagrees name hname).imp_right fun hshared => .confirm h hi hshared
      (fun hk hr => absurd ⟨hk, hr⟩ hother) fun hm hr hprunes hbase => ?_
    refine hlost ⟨hm, hr, hprunes, name, hbase, ?_⟩
    rwa [hm, hr] at hname

omit [DecidableEq N] in
/-- A loop whose base is not what an agent that is kept off has recorded
is off there. -/
theorem KeptOff.off {t : Thread} (h : c.KeptOff net m t.loop.replicaName)
    (hdiffers : c.Differs m t.loop.replicaName t.loop.lastConfirmedSent) : c.Off m t :=
  ⟨hdiffers.1, fun _ hname => Differs.not_knows (hname ▸ hdiffers) h.1.2.2⟩

theorem Off.confirm {ack : Option Ack}
    (hi : (c.agents n).threads[i]? = some ⟨loop, .sending addr ack⟩) {t : Thread}
    (h : c.Off m t) : (c.conclude n i prunes .ok).Off m t := by
  refine ⟨?_, fun name hname hknown => h.2 name hname ((confirm_knows hi).1 hknown)⟩
  rw [(confirm_targets hi).1]
  exact h.1

theorem Stands.confirm (h : Identified net c) {ack : Option Ack}
    (hi : (c.agents n).threads[i]? = some ⟨loop, .sending addr ack⟩)
    (hprune : prunes = true → c.Unused net n loop) {t : Thread} (ht : t ∈ (c.agents k).threads)
    (hgoes : t.GoesOn) (hother : ¬ (k = n ∧ t.loop.replicaName = loop.replicaName)) :
    Stands net (c.conclude n i prunes .ok) (c.pointsTo net k t.loop.replicaName) k t where
  aims m hm := by
    rw [(confirm_targets hi).1]
    rcases (h.stands k t ht hgoes).aims m hm with hagrees | ⟨hoff, hlast⟩
    · refine (hagrees.confirm h hi hprune hother).imp_right fun hkept => ?_
      have haside := hkept.2 k hm
      exact ⟨(hkept.off (haside.2 t ht rfl hgoes).1).confirm hi, haside.1.1.symm⟩
    · exact Or.inr ⟨hoff.confirm hi, hlast⟩
  elsewhere m hm addr' ha hne := by
    obtain ⟨hbase, htick⟩ := (h.stands k t ht hgoes).elsewhere m hm addr' ha hne
    exact ⟨fun name hname hknown => hbase name hname ((confirm_knows hi).1 hknown),
      fun hknown => htick ((confirm_knows hi).1 hknown)⟩
  waits addr' ha m hm hack := by
    rcases (h.stands k t ht hgoes).waits addr' ha m hm hack with hagrees | hoff
    · refine (hagrees.confirm h hi hprune hother).imp_right fun hkept => ?_
      exact (hkept.off ((hkept.1.1 k t ht rfl addr' ha hm).2 hack)).confirm hi
    · exact Or.inr (hoff.confirm hi)
  told addr' ha m hm hack := by
    obtain ⟨hagrees, hnone⟩ := (h.stands k t ht hgoes).told addr' ha m hm hack
    refine ⟨(hagrees.confirm h hi hprune hother).resolve_right fun hkept => ?_,
      fun hlast name hname hknown => ?_⟩
    · exact (hkept.1.1 k t ht rfl addr' ha hm).1 hack
    · rw [(confirm_targets hi).1] at hlast
      exact hnone hlast name hname ((confirm_knows hi).1 hknown)

theorem Addresses.of_confirm {ack : Option Ack}
    (hi : (c.agents n).threads[i]? = some ⟨loop, .sending addr ack⟩)
    (h : (c.conclude n i prunes .ok).Addresses net k m r) : c.Addresses net k m r := by
  refine (h.of_step (c := c) (fun t ht addr' ha m hm => ?_)
    (fun o (ho : o ∈ c.orphans) => .orphan ho)
    fun x (hx : x ∈ c.receives) => .receive hx).elim id fun hpoint => Or.inl ?_
  · rw [conclude_turn n i hi] at ht
    rcases mem_turn n k i _ _ ht with ht | ⟨-, rfl⟩
    · exact .thread ht ha hm
    · cases ha
  · rwa [confirm_pointsTo hi] at hpoint

/-- **A tick that is done.** Its loop moves on to a name it shares with
the standby, and what it prunes no one goes by. -/
theorem Identified.confirm (h : Identified net c)
    (hi : (c.agents n).threads[i]? = some ⟨loop, .sending addr (some .proceed)⟩)
    (hprune : prunes = true → c.Unused net n loop) :
    Identified net (c.conclude n i prunes .ok) where
  ticking := h.ticking_confirm hi prunes
  memory m r := by
    rw [(confirm_targets hi).1, (confirm_targets hi).2]
    exact h.memory m r
  sole k k' m r hk hk' := h.sole k k' m r (hk.of_confirm hi) (hk'.of_confirm hi)
  first k m r hpoint hlast name hname := by
    rw [confirm_pointsTo hi] at hpoint
    rw [(confirm_targets hi).1] at hlast
    exact h.first_confirm hi hprune hpoint hlast ((confirm_knows hi).1 hname)
  stands k t ht hgoes := by
    rw [confirm_pointsTo hi]
    rcases h.mem_confirm hi ht with ⟨rfl, rfl⟩ | ⟨ht, hother⟩
    · have hstands := h.stands_confirm hi hprune
      exact hstands
    · exact .confirm h hi hprune ht hgoes hother
  orphans o ho name hname hknown := by
    have hknown := (confirm_knows hi).1 hknown
    refine .confirm h hi (h.orphans o ho name hname hknown) ?_ ?_
    · intro hsrc hr hprunes hbase
      exact (hprune hprunes name hbase).1 o ho hsrc hr hname
    · intro hdst hr hprunes hbase
      rw [hdst, hr] at hknown
      have hkept := (hprune hprunes name hbase).2 hknown
      have hdiffers := hkept.1.2.1 o ho hdst hr
      rw [hname] at hdiffers
      exact hdiffers.not_knows hkept.1.2.2 hknown

end Confirm

end Sent

/-- An agent that is kept off is so after a stream is sent: it was none to
it. -/
theorem KeptOff.settle {n m : N} {i : ℕ} {arrival : Arrival} {r : String}
    (h : c.KeptOff net m r) : (c.settle n i arrival).KeptOff net m r := by
  refine ⟨⟨h.1.1, h.1.2.1, fun x hx hdst hr => ?_⟩, h.2⟩
  rcases mem_settle hx with ⟨hx, -⟩ | ⟨y, hy, -, hawaited, rfl⟩
  · exact h.1.2.2 x hx hdst hr
  · exact absurd ((h.1.2.2 y hy hdst hr).symm.trans hawaited) nofun

/-- What comes to nothing tells nothing. -/
theorem Knows.of_cut {n m : N} {i : ℕ} {r name : String} (h : (c.settle n i .cut).Knows m r name) :
    c.Knows m r name := by
  rcases h with (hlast | hsaved | ⟨x, hx, hdst, hr, hname, harrival⟩) |
    ⟨x, hx, hdst, hr, hname, hcome⟩
  · exact Or.inl (Or.inl hlast)
  · exact Or.inl (Or.inr (Or.inl hsaved))
  · rcases mem_settle hx with ⟨hx, -⟩ | ⟨y, -, -, -, rfl⟩
    · exact Or.inl (Or.inr (Or.inr ⟨x, hx, hdst, hr, hname, harrival⟩))
    · cases harrival
  · rcases mem_settle hx with ⟨hx, -⟩ | ⟨y, -, -, -, rfl⟩
    · exact Or.inr ⟨x, hx, hdst, hr, hname, hcome⟩
    · cases hcome

theorem Identified.send (h : Identified net c) (hlinked : Linked net c) {n : N} {i : ℕ}
    {sends arrives prunes : Bool}
    (hprune : ∀ x ∈ c.prunes (.send n i sends arrives prunes), c.Unused net x.1 x.2) :
    Identified net (c.send n i sends arrives prunes) := by
  rcases c.send_cases n i sends arrives prunes with
    heq | ⟨loop, addr, ack, hi, hsend⟩
  · rw [heq]
    exact h
  have ht := List.mem_of_getElem? hi
  rcases hsend with ⟨rfl, heq⟩ | ⟨rfl, heq | ⟨stream, arrival, hstream, harrival, heq⟩⟩
  · rw [heq]
    exact h.turn hi rfl rfl (by simp) (by simp) (fun _ => (h.stands n _ ht .sending).drop)
      fun _ _ => id
  · rw [heq]
    exact (h.cut n i).sleep hi
  · have hsettled : Identified net (c.settle n i arrival) := by
      rcases harrival with rfl | rfl
      · exact h.arrive hlinked hi hstream
      · exact h.cut n i
    have hi' : ((c.settle n i arrival).agents n).threads[i]? =
        some ⟨loop, .sending addr (some .proceed)⟩ := hi
    rw [heq]
    cases sends with
    | false =>
      rw [conclude_turn n i hi']
      exact hsettled.sleep hi'
    | true =>
      refine hsettled.confirm hi' ?_
      rintro rfl base hbase
      have hunused : c.Unused net n loop := hprune (n, loop) (by simp [Cluster.prunes, hi])
      refine ⟨(hunused base hbase).1, fun hknown => ((hunused base hbase).2 ?_).settle⟩
      rcases harrival with rfl | rfl
      · refine (hknown.of_arrive hlinked hi).resolve_right fun htold => h.base_ne hi ?_
        exact hbase.trans (congrArg some htold.2.2)
      · exact hknown.of_cut

/-! ## What a listener makes of it -/

/-- **A stream received** by an agent that sends the replica to no one. -/
theorem Identified.stored (h : Identified net c) (hlinked : Linked net c) {k : ℕ} {x : Receive N}
    {stream : SendStream} (hk : c.receives[k]? = some x) (hx : x.arrival = .arrived stream)
    (hnot : ∀ m, ¬ c.Addresses net x.dst m x.header.replicaName) :
    Identified net (c.stored k x stream) := by
  have hmem := List.mem_of_getElem? hk
  have hsnapshot := (hlinked.arrived x hmem stream hx).1
  have hstamp : ∀ m r name, ((c.stored k x stream).agents m).stamp r name =
      if m = x.dst ∧ r = x.header.replicaName ∧ name = x.header.snapshotId then some stream.stamp
      else (c.agents m).stamp r name := by
    intro m r name
    have hpool : ((c.stored k x stream).agents m).pool = (c.agents m).pool := by
      rw [Agentd.pool, (stored_keeps ..).1, Agentd.pool]
    rw [Agentd.stamp_eq, Agentd.dataset_congr hpool, Agentd.stamp_eq, stored_agents]
    by_cases hm : m = x.dst
    · subst hm
      simp only [if_true, true_and, FakeZfsManager.store]
      by_cases hkey : r = x.header.replicaName ∧ name = x.header.snapshotId
      · rw [if_pos hkey, hkey.1, hkey.2, hsnapshot]
        exact AList.lookup_insert _
      · rw [if_neg hkey]
        refine AList.lookup_insert_ne fun heq => hkey ?_
        exact ⟨Listener.dataset_inj (Prod.mk.inj heq).1, (Prod.mk.inj heq).2.trans hsnapshot⟩
    · simp only [hm, false_and, if_false]
  have htargets : ∀ m r, (c.stored k x stream).last m r = c.last m r ∧
      (c.stored k x stream).savedLast m r = c.savedLast m r := by
    intro m r
    rw [last, savedLast, (stored_keeps ..).2.2]
    exact ⟨rfl, rfl⟩
  have hkeeps : ∀ m r name, (c.stored k x stream).Keeps m r name → c.Keeps m r name ∨
      m = x.dst ∧ r = x.header.replicaName ∧ name = x.header.snapshotId := by
    intro m r name hm
    rw [Keeps, (htargets m r).1, (htargets m r).2] at hm
    rcases hm with hlast | hsaved | ⟨y, hy, hdst, hr, hname, harrival⟩
    · exact Or.inl (Or.inl hlast)
    · exact Or.inl (Or.inr (Or.inl hsaved))
    · rcases mem_stored hy with hy | rfl
      · exact Or.inl (Or.inr (Or.inr ⟨y, hy, hdst, hr, hname, harrival⟩))
      · exact Or.inr ⟨hdst.symm, hr.symm, hname.symm⟩
  have haddresses : ∀ n m r, (c.stored k x stream).Addresses net n m r →
      c.Addresses net n m r := by
    intro n m r hn
    refine (hn.of_step (c := c) (fun t ht addr haddr m hm => ?_)
      (fun o (ho : o ∈ c.orphans) => .orphan ho) fun y hy hcut => ?_).elim id
        fun hpoint => Or.inl ?_
    · rw [(stored_keeps ..).2.1] at ht
      exact .thread ht haddr hm
    · rcases mem_stored hy with hy | rfl
      · exact .receive hy hcut
      · have hold : c.Addresses net x.src x.dst x.header.replicaName :=
          .receive hmem (by simp [hx])
        exact hold
    · rwa [pointsTo, (stored_keeps ..).1] at hpoint
  have hfades : Fades net c (c.stored k x stream) := by
    refine ⟨fun m r name hm => ?_, fun m r => Or.inl (htargets m r).1, ?_⟩
    · rcases hm with hkept | ⟨y, hy, hdst, hr, hname, hcome⟩
      · rcases hkeeps m r name hkept with hkept | ⟨rfl, rfl, rfl⟩
        · exact Or.inl hkept
        · exact Or.inr ⟨x, hmem, rfl, rfl, rfl, by rw [hx]; rfl⟩
      · rcases mem_stored hy with hy | rfl
        · exact Or.inr ⟨y, hy, hdst, hr, hname, hcome⟩
        · cases hcome
    · rintro n m r name hn ⟨s, hs, hkept, hcome⟩
      -- The sender is not the agent that received.
      have hsender : ¬ (n = x.dst ∧ r = x.header.replicaName ∧ name = x.header.snapshotId) := by
        rintro ⟨rfl, rfl, -⟩
        exact hnot m (haddresses _ m _ hn)
      refine ⟨s, by rw [hstamp, if_neg hsender]; exact hs, fun hm => ?_,
        fun y hy hdst hr hname stream' h' => ?_⟩
      · rw [hstamp]
        split
        · rename_i hreceived
          obtain ⟨rfl, rfl, rfl⟩ := hreceived
          rw [hcome x hmem rfl rfl rfl stream hx]
        · rename_i hother
          exact hkept ((hkeeps m r name hm).resolve_right hother)
      · rcases mem_stored hy with hy | rfl
        · exact hcome y hy hdst hr hname stream' h'
        · cases h'
  refine h.of_loops hfades (fun m => ?_) (fun m r => ?_) (fun m => (stored_keeps ..).1) haddresses
    (fun n t ht _ => Or.inl ?_) fun _ => Or.inl
  · rw [stored_agents]
    split
    · rename_i hm
      subst hm
      exact ⟨⟨(h.ticking x.dst).nodup, (h.ticking x.dst).known⟩, (h.ticking x.dst).dataset,
        (h.ticking x.dst).earlier⟩
    · exact h.ticking m
  · rw [(htargets m r).1, (htargets m r).2]
    exact h.memory m r
  · rwa [(stored_keeps ..).2.1] at ht

theorem Identified.receive (h : Identified net c) (hlinked : Linked net c) {k : ℕ} {works : Bool}
    (hnot : ∀ x ∈ c.stores (.receive k works), ∀ m,
      ¬ c.Addresses net x.dst m x.header.replicaName) : Identified net (c.receive k works) := by
  rcases c.receive_cases k works with heq | heq | ⟨x, stream, hk, hx, hstores, heq⟩
  · rw [heq]
    exact h
  · rw [heq]
    exact h.of_receives rfl (fun _ => Or.inl) fun x hx => Or.inl (mem_close hx)
  · rw [heq]
    exact h.stored hlinked hk hx (hnot x hstores)

/-- What is recorded the agent was about to record. -/
theorem Identified.record (h : Identified net c) (k : ℕ) (saves : Bool) :
    Identified net (c.record k saves) := by
  have hkeeps : ∀ m r name, (c.record k saves).Keeps m r name → c.Keeps m r name := by
    rintro m r name (hlast | hsaved | ⟨x, hx, hdst, hr, hname, harrival⟩)
    · rcases c.record_last_cases k saves m r with heq | ⟨x, hk, hx, hdst, hr, heq⟩
      · exact Or.inl (heq ▸ hlast)
      · exact Or.inr (Or.inr ⟨x, List.mem_of_getElem? hk, hdst, hr,
          Option.some.inj (heq.symm.trans hlast), hx⟩)
    · rcases c.record_savedLast_cases k saves m r with heq | ⟨x, hk, hx, hdst, hr, heq, -⟩
      · exact Or.inr (Or.inl (heq ▸ hsaved))
      · exact Or.inr (Or.inr ⟨x, List.mem_of_getElem? hk, hdst, hr,
          Option.some.inj (heq.symm.trans hsaved), hx⟩)
    · exact Or.inr (Or.inr ⟨x, mem_record hx, hdst, hr, hname, harrival⟩)
  have horphans : (c.record k saves).orphans = c.orphans := by
    rcases c.record_cases k saves with heq | ⟨x, -, -, heq⟩
    · rw [heq]
    · rw [heq]
      rfl
  have hfades : Fades net c (c.record k saves) := by
    refine .of_stamps hkeeps (fun x hx _ _ => mem_record hx) (fun m r => ?_)
      fun n r name s hs => ?_
    · refine (c.record_last_cases k saves m r).imp_right ?_
      rintro ⟨x, hk, hx, hdst, hr, heq⟩
      exact Or.inl ⟨_, heq, Or.inl (Or.inr (Or.inr
        ⟨x, List.mem_of_getElem? hk, hdst, hr, rfl, hx⟩))⟩
    · rwa [Agentd.stamp_congr (a := c.agents n)]
      · rw [Agentd.pool, (record_keeps ..).1, Agentd.pool]
      · rw [(record_keeps ..).2.2]
  refine h.of_loops hfades (fun m => ?_) (fun m r hlast => ?_) (fun m => (record_keeps ..).1)
    (fun n m r hn => ?_) (fun n t ht _ => Or.inl ?_) fun o ho => Or.inl (horphans ▸ ho)
  · rcases c.record_cases k saves with heq | ⟨x, -, -, heq⟩
    · rw [heq]
      exact h.ticking m
    · rw [heq, close, agents_setAgent]
      split
      · exact (h.ticking x.dst).setListener _
      · exact h.ticking m
  · rcases c.record_savedLast_cases k saves m r with heq | ⟨x, -, -, -, -, -, heq⟩
    · rw [heq]
      refine h.memory m r ?_
      rcases c.record_last_cases k saves m r with heq | ⟨x, -, -, -, -, heq⟩
      · rwa [heq] at hlast
      · exact absurd (heq.symm.trans hlast) (by simp)
    · exact absurd (heq.symm.trans hlast) (by simp)
  · refine (hn.of_step (c := c) (fun t ht addr haddr m hm => ?_) (fun o ho => ?_)
      fun x hx => .receive (mem_record hx)).elim id fun hpoint => Or.inl ?_
    · rw [(record_keeps ..).2.1] at ht
      exact .thread ht haddr hm
    · exact .orphan (horphans ▸ ho)
    · rwa [pointsTo, (record_keeps ..).1] at hpoint
  · rwa [(record_keeps ..).2.1] at ht

end Cluster

end Keel
