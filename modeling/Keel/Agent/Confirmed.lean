import Keel.Agent.Model.Link
import Keel.Agent.Helpers.Replication
/-!
# What a confirmed snapshot says of the standby

The loop calls a snapshot confirmed once it has written the stream out.
The standby has yet to receive and to record it, and can fail at both, or
lose the rest of the connection, and tells no one: the loop goes on from
a snapshot the standby does not have (`confirmed_not_received`).

A confirmed snapshot is one the standby has recorded and holds, whenever
no connection is in flight, in every run in which the two sides do not
part ways (`confirmed_received`): a stream is confirmed exactly if it
arrives whole, is then received, and is not overtaken by another one; the
standby forgets nothing the loop relies on; and the loop is not sent to
another standby with what this one confirmed (`Orderly`).
-/

namespace Keel

namespace Agent

namespace Conn

/-- The handler has a whole stream, received or still to receive, and has
not recorded it. -/
def Whole (c : Conn) : Prop :=
  c.handler = .recording ∨ c.handler = .receiving ∧ ∃ stream ∈ c.input.join, True

instance (c : Conn) : Decidable c.Whole :=
  decidable_of_iff (c.handler = .recording ∨ c.handler = .receiving ∧ c.input.join.isSome) <| by
    simp [Whole, Option.isSome_iff_exists]

end Conn

namespace Phase

/-- The connection the loop is on. -/
def conn? : Phase → Option ℕ
  | .idle => none
  | .waiting i | .sending i => some i

/-- The connection the loop is to send on. -/
def sending? : Phase → Option ℕ
  | .sending i => some i
  | _ => none

end Phase

namespace Link

/-- No stream is on its way to be recorded at the standby. -/
def NoneWhole (l : Link) (addr : String) : Prop :=
  ∀ j < l.opened, (l.conns j).Whole → (l.conns j).addr ≠ addr

instance (l : Link) (addr : String) : Decidable (l.NoneWhole addr) :=
  inferInstanceAs (Decidable (∀ _ < _, _))

/-- What the standby has recorded for the loop's replica. -/
def last (l : Link) (addr : String) : Option String :=
  (l.standbys addr).targets.last l.loop.replicaName

/-- The standby's volume has the snapshot. -/
def Held (l : Link) (addr s : String) : Prop :=
  (l.standbys addr).zfs.Holds ((l.standbys addr).dataset l.loop.replicaName) s

instance (l : Link) (addr s : String) : Decidable (l.Held addr s) :=
  inferInstanceAs (Decidable (FakeZfsManager.Holds ..))

/-- **The two sides do not part ways.** -/
def Orderly (l : Link) : Label → Prop
  -- No stream is let through while another is still to be recorded.
  | .answer i _ _ =>
    (l.conns i).header.baseSnapshotId = l.last (l.conns i).addr → l.NoneWhole (l.conns i).addr
  -- The loop confirms what arrives, and only that, and to the standby it
  -- is to send to; what it does not confirm may arrive if it had no base.
  | .send sends arrives _ =>
    ∀ i ∈ l.phase.sending?,
      (sends = true → arrives = true ∧ (l.conns i).handler = .receiving ∧
        ∀ a ∈ l.replicateTo, a = (l.conns i).addr) ∧
      (arrives = true → (l.conns i).handler = .receiving →
        sends = true ∨ l.loop.lastConfirmedSent = none)
  | .receive i works =>
    (l.conns i).Whole → l.confirmedBy = some (l.conns i).addr → works = true
  -- A standby relied on restarts with all it got on disk.
  | .restartStandby addr =>
    l.confirmedBy = some addr → l.NoneWhole addr ∧
      (l.standbys addr).targets.savedLast l.loop.replicaName = l.last addr
  | .retarget replicateTo => ∀ a ∈ replicateTo, ∀ b ∈ l.confirmedBy, b = a
  | _ => True

def OrderlyAlong (l : Link) : List Label → Prop
  | [] => True
  | label :: labels => l.Orderly label ∧ (l.step label).OrderlyAlong labels

/-- No connection is in flight. -/
def Quiet (l : Link) : Prop := l.phase = .idle ∧ ∀ i < l.opened, (l.conns i).handler = .over

/-- The standby the loop is to send to has what the loop believes it
has. -/
def Confirmed (l : Link) : Prop :=
  ∀ a ∈ l.replicateTo, ∀ s ∈ l.loop.lastConfirmedSent, l.Held a s ∧ l.last a = some s

instance (l : Link) : DecidablePred l.Orderly
  | .tick .. | .readAck | .abort | .record .. | .restartSender => inferInstanceAs (Decidable True)
  | .answer .. => inferInstanceAs (Decidable (_ → _))
  | .send .. => inferInstanceAs (Decidable (∀ _ ∈ _, _))
  | .receive .. => inferInstanceAs (Decidable (_ → _))
  | .restartStandby .. => inferInstanceAs (Decidable (_ → _))
  | .retarget .. => inferInstanceAs (Decidable (∀ _ ∈ _, _))

instance decidableOrderlyAlong : ∀ (l : Link) (labels : List Label),
    Decidable (l.OrderlyAlong labels)
  | _, [] => inferInstanceAs (Decidable True)
  | l, label :: labels =>
    have := decidableOrderlyAlong (l.step label) labels
    inferInstanceAs (Decidable (_ ∧ _))

instance (l : Link) : Decidable l.Quiet := inferInstanceAs (Decidable (_ ∧ _))

instance (l : Link) : Decidable l.Confirmed := inferInstanceAs (Decidable (∀ _ ∈ _, _))

end Link

/-! ## What the standby's side keeps -/

/-- What a standby had of a replica, it has. -/
structure Listener.Grows (r : String) (s s' : Listener) : Prop where
  pool : s'.pool = s.pool
  known : r ∈ s.targets.byName → r ∈ s'.targets.byName
  holds : ∀ d x, s.zfs.Holds d x → s'.zfs.Holds d x

namespace Listener

variable {s : Listener} {r : String}

theorem Grows.refl : s.Grows r s := ⟨rfl, id, fun _ _ => id⟩

theorem Grows.answer (saves : Bool) (header : Header) (addr : String) :
    s.Grows r (s.answer saves header addr).2 where
  pool := by simp
  known h := by
    rw [answer_targets]
    exact ReplicaTargetRegistry.mem_ensure_of_mem _ _ _ _ _ _ h
  holds _ _ h := by rwa [answer_zfs]

theorem Grows.receive (works : Bool) (header : Header) (input : Option SendStream) :
    s.Grows r (s.receive works header input).2 where
  pool := by simp
  known h := by rwa [receive_targets]
  holds d x h := by
    cases hreceived : (s.receive works header input).1 with
    | false => rwa [receive_zfs_of_false _ _ _ _ hreceived]
    | true =>
      obtain ⟨stream, -, hzfs⟩ := receive_eq_true _ _ _ _ hreceived
      rw [hzfs]
      exact FakeZfsManager.holds_store_of_holds _ h

theorem Grows.record (saves : Bool) (header : Header) : s.Grows r (s.record saves header) where
  pool := rfl
  known h := ReplicaTargetRegistry.mem_recordSnapshot_of_mem _ _ _ _ _ h
  holds _ _ h := h

/-- The standby holds what it has recorded for the replica, in memory or
on disk. -/
def Sound (s : Listener) (r : String) : Prop :=
  ∀ x, s.targets.last r = some x ∨ s.targets.savedLast r = some x → s.zfs.Holds (s.dataset r) x

theorem Grows.dataset {s' : Listener} (h : s.Grows r s') : s'.dataset r = s.dataset r := by
  rw [Listener.dataset, h.pool, Listener.dataset]

theorem Sound.answer (h : s.Sound r) (saves : Bool) (header : Header) (addr : String) :
    (s.answer saves header addr).2.Sound r := by
  intro x hx
  rw [Grows.dataset (Grows.answer saves header addr), answer_zfs]
  refine h x ?_
  rw [answer_last, answer_targets, ReplicaTargetRegistry.savedLast_ensure] at hx
  split at hx
  · rename_i hr
    rw [hr.2] at hx ⊢
    exact Or.inl (or_self_iff.1 hx)
  · exact hx

theorem Sound.receive (h : s.Sound r) (works : Bool) (header : Header)
    (input : Option SendStream) : (s.receive works header input).2.Sound r := by
  intro x hx
  rw [receive_targets] at hx
  rw [Grows.dataset (Grows.receive works header input)]
  exact (Grows.receive (r := r) works header input).holds _ _ (h x hx)

/-- What is recorded is to be held already. -/
theorem Sound.record {header : Header} (h : s.Sound r) (saves : Bool)
    (hname : header.replicaName = r) (hknown : r ∈ s.targets.byName)
    (hheld : s.zfs.Holds (s.dataset r) header.snapshotId) : (s.record saves header).Sound r := by
  subst hname
  intro x hx
  rw [record_last _ _ _ _ hknown, record_savedLast _ _ _ _ hknown, if_pos rfl] at hx
  change s.zfs.Holds (s.dataset _) x
  rcases hx with hx | hx
  · exact Option.some.inj hx ▸ hheld
  · split at hx
    · exact Option.some.inj hx ▸ hheld
    · exact h x (Or.inr hx)

end Listener

/-- A connection of the replica `r`, and what its handler can count on. -/
structure Conn.Fits (c : Conn) (r : String) (s : Listener) : Prop where
  named : c.handler ≠ .over → c.header.replicaName = r
  unread : c.handler = .reading → c.ack = none ∧ c.input.join = none
  known : c.handler = .receiving ∨ c.handler = .recording → r ∈ s.targets.byName
  whole : ∀ stream, c.handler = .receiving → c.input = some (some stream) →
    stream.snapshot = c.header.snapshotId ∧ ∀ b ∈ stream.base, s.zfs.Holds (s.dataset r) b
  held : c.handler = .recording → s.zfs.Holds (s.dataset r) c.header.snapshotId

namespace Conn.Fits

variable {c : Conn} {r : String} {s s' : Listener}

theorem grows (h : c.Fits r s) (hs : s.Grows r s') : c.Fits r s' where
  named := h.named
  unread := h.unread
  known hc := hs.known (h.known hc)
  whole stream hc hinput := by
    obtain ⟨hsnapshot, hbase⟩ := h.whole stream hc hinput
    exact ⟨hsnapshot, fun b hb => hs.dataset ▸ hs.holds _ _ (hbase b hb)⟩
  held hc := hs.dataset ▸ hs.holds _ _ (h.held hc)

theorem of_over (hc : c.handler = .over) : c.Fits r s where
  named h := absurd hc h
  unread h := by simp [hc] at h
  known h := by simp [hc] at h
  whole _ h := by simp [hc] at h
  held h := by simp [hc] at h

/-- A stream cut short is no stream to fit. -/
theorem cut (h : c.Fits r s) :
    ({ c with input := c.input.or (some none) } : Conn).Fits r s where
  named := h.named
  unread hc := by
    obtain ⟨hack, hinput⟩ := h.unread hc
    refine ⟨hack, ?_⟩
    cases hc : c.input <;> simp_all
  known := h.known
  whole stream hc hinput := by
    refine h.whole stream hc ?_
    cases hc : c.input <;> simp_all
  held := h.held

end Conn.Fits

/-! ## The invariant -/

namespace Link

/-- The standby has recorded `s`, or has a whole stream of it that it has
yet to record. -/
def Backed (l : Link) (addr s : String) : Prop :=
  (∀ i, (l.conns i).Whole → (l.conns i).addr = addr → (l.conns i).header.snapshotId = s) ∧
    ((∃ i, (l.conns i).Whole ∧ (l.conns i).addr = addr) ∨ l.last addr = some s)

/-- What holds of the standbys and the streams they have. -/
structure Streams (l : Link) : Prop where
  unopened : ∀ i, l.opened ≤ i → (l.conns i).handler = .over
  fits : ∀ i, (l.conns i).Fits l.loop.replicaName (l.standbys (l.conns i).addr)
  sound : ∀ addr, (l.standbys addr).Sound l.loop.replicaName
  single : ∀ i j, (l.conns i).Whole → (l.conns j).Whole → (l.conns i).addr = (l.conns j).addr → i = j

/-- And between them and what the loop has confirmed. -/
structure Backs (l : Link) : Prop extends Streams l where
  backed : ∀ s ∈ l.loop.lastConfirmedSent, ∃ addr ∈ l.confirmedBy, l.Backed addr s
  unconfirmed : l.loop.lastConfirmedSent = none → l.confirmedBy = none
  target : ∀ a ∈ l.replicateTo, ∀ b ∈ l.confirmedBy, b = a

/-- And with the connection the loop is on: if its handler is ready for a
stream, the standby is where the loop takes it to be. -/
structure Consistent (l : Link) : Prop extends Backs l where
  current : ∀ i ∈ l.phase.conn?,
    i < l.opened ∧ (l.conns i).header = l.loop.header ∧ (l.conns i).input = none
  ready : ∀ i ∈ l.phase.conn?, (l.conns i).handler = .receiving →
    l.last (l.conns i).addr = l.loop.lastConfirmedSent ∧
      ∀ j, (l.conns j).Whole → (l.conns j).addr ≠ (l.conns i).addr
  answered : ∀ i ∈ l.phase.sending?, (l.conns i).handler ≠ .reading

variable {l : Link}

theorem Streams.noneWhole (h : l.Streams) {addr : String} (hnone : l.NoneWhole addr) (j : ℕ)
    (hwhole : (l.conns j).Whole) : (l.conns j).addr ≠ addr := by
  by_cases hj : j < l.opened
  · exact hnone j hj hwhole
  · have hover := h.unopened j (not_lt.1 hj)
    simp [Conn.Whole, hover] at hwhole

theorem Backs.consistent (h : l.Backs) (hphase : l.phase = .idle) : l.Consistent where
  toBacks := h
  current i hi := by simp [hphase, Phase.conn?] at hi
  ready i hi := by simp [hphase, Phase.conn?] at hi
  answered i hi := by simp [hphase, Phase.sending?] at hi

/-! ## The handler's steps -/

section Handler

variable {i : ℕ} {handler : Handler} {ack : Option Ack} {s : Listener}

theorem handled_conns (j : ℕ) :
    (l.handled i handler ack s).conns j =
      if j = i then { l.conns i with handler, ack } else l.conns j := by
  simp [handled, setConn, Function.update_apply]

theorem handled_standbys (addr : String) :
    (l.handled i handler ack s).standbys addr =
      if addr = (l.conns i).addr then s else l.standbys addr := by
  simp [handled, setConn, Function.update_apply]

@[simp] theorem handled_addr (j : ℕ) :
    ((l.handled i handler ack s).conns j).addr = (l.conns j).addr := by
  rw [handled_conns]
  split
  · rename_i h
    rw [h]
  · rfl

@[simp] theorem handled_header (j : ℕ) :
    ((l.handled i handler ack s).conns j).header = (l.conns j).header := by
  rw [handled_conns]
  split
  · rename_i h
    rw [h]
  · rfl

@[simp] theorem handled_input (j : ℕ) :
    ((l.handled i handler ack s).conns j).input = (l.conns j).input := by
  rw [handled_conns]
  split
  · rename_i h
    rw [h]
  · rfl

/-- **A step of a handler**, told by what it does to the stream it may
have: it gets none, and it gives one up only if it records it or no one
relies on it. -/
theorem Consistent.handled (h : l.Consistent) (hopen : (l.conns i).handler ≠ .over)
    (hmoved : handler ≠ .reading)
    (hgrows : (l.standbys (l.conns i).addr).Grows l.loop.replicaName s)
    (hsound : s.Sound l.loop.replicaName)
    (hfits : ({ l.conns i with handler, ack } : Conn).Fits l.loop.replicaName s)
    (hwhole : ({ l.conns i with handler, ack } : Conn).Whole → (l.conns i).Whole)
    (hkept : (l.conns i).Whole → l.confirmedBy = some (l.conns i).addr →
      ({ l.conns i with handler, ack } : Conn).Whole ∨
        s.targets.last l.loop.replicaName = some (l.conns i).header.snapshotId)
    (hlast : s.targets.last l.loop.replicaName = l.last (l.conns i).addr ∨
      (l.conns i).Whole ∧
        s.targets.last l.loop.replicaName = some (l.conns i).header.snapshotId)
    (hready : i ∈ l.phase.conn? → handler = .receiving →
      l.last (l.conns i).addr = l.loop.lastConfirmedSent ∧
        ∀ j, (l.conns j).Whole → (l.conns j).addr ≠ (l.conns i).addr) :
    (l.handled i handler ack s).Consistent := by
  have hgrow : ∀ addr, (l.standbys addr).Grows l.loop.replicaName
      ((l.handled i handler ack s).standbys addr) := by
    intro addr
    rw [handled_standbys]
    split
    · rename_i haddr
      exact haddr ▸ hgrows
    · exact .refl
  have hfewer : ∀ j, ((l.handled i handler ack s).conns j).Whole → (l.conns j).Whole := by
    intro j hj
    rw [handled_conns] at hj
    split at hj
    · rename_i hji
      exact hji ▸ hwhole hj
    · exact hj
  -- A standby nobody has a stream for records nothing new.
  have hlasts : ∀ addr, (∀ j, (l.conns j).Whole → (l.conns j).addr ≠ addr) →
      (l.handled i handler ack s).last addr = l.last addr := by
    intro addr hnone
    rw [last, handled_standbys]
    split
    · rename_i haddr
      rcases hlast with hlast | ⟨hw, -⟩
      · rw [haddr]
        exact hlast
      · exact absurd haddr.symm (hnone i hw)
    · rfl
  refine ⟨⟨⟨?_, ?_, ?_, ?_⟩, ?_, h.unconfirmed, h.target⟩, ?_, ?_, ?_⟩
  · intro j hj
    rw [handled_conns]
    split
    · rename_i hji
      exact absurd (h.unopened i (hji ▸ hj)) hopen
    · exact h.unopened j hj
  · intro j
    rw [handled_addr, handled_standbys, handled_conns]
    by_cases hji : j = i
    · rw [if_pos hji, if_pos (by rw [hji])]
      exact hfits
    · have hgrows := hgrow (l.conns j).addr
      rw [handled_standbys] at hgrows
      rw [if_neg hji]
      exact (h.fits j).grows hgrows
  · intro addr
    rw [handled_standbys]
    split
    · exact hsound
    · exact h.sound addr
  · intro j k hj hk haddr
    rw [handled_addr, handled_addr] at haddr
    exact h.single j k (hfewer j hj) (hfewer k hk) haddr
  · -- The base is backed by a stream or by a record. The step may give the
    -- stream up, which then is on record, and may record another one, which
    -- then is of the same snapshot.
    intro x hx
    obtain ⟨addr, haddr, hsame, hback⟩ := h.backed x hx
    refine ⟨addr, haddr, fun j hj hja => ?_, ?_⟩
    · rw [handled_addr] at hja
      rw [handled_header]
      exact hsame j (hfewer j hj) hja
    · rw [last, handled_standbys]
      rcases hback with ⟨j, hj, rfl⟩ | hback
      · by_cases hji : j = i
        · subst hji
          rcases hkept hj haddr with hw | hl
          · refine Or.inl ⟨j, ?_, handled_addr j⟩
            rwa [handled_conns, if_pos rfl]
          · rw [if_pos rfl, ← hsame j hj rfl]
            exact Or.inr hl
        · refine Or.inl ⟨j, ?_, handled_addr j⟩
          rwa [handled_conns, if_neg hji]
      · right
        split
        · rename_i ha
          rcases hlast with hl | ⟨hw, hl⟩
          · rw [ha] at hback
            exact hl.trans hback
          · rw [← hsame i hw ha.symm]
            exact hl
        · exact hback
  · intro j hj
    rw [handled_header, handled_input]
    exact h.current j hj
  · intro j hj hreceiving
    rw [handled_addr]
    -- Being ready is for this handler or was before; no whole stream is
    -- there to change the record.
    have hold : l.last (l.conns j).addr = l.loop.lastConfirmedSent ∧
        ∀ k, (l.conns k).Whole → (l.conns k).addr ≠ (l.conns j).addr := by
      rw [handled_conns] at hreceiving
      split at hreceiving
      · rename_i hji
        subst hji
        exact hready hj hreceiving
      · exact h.ready j hj hreceiving
    refine ⟨(hlasts _ hold.2).trans hold.1, fun k hk => ?_⟩
    rw [handled_addr]
    exact hold.2 k (hfewer k hk)
  · intro j hj
    rw [handled_conns]
    split
    · exact hmoved
    · exact h.answered j hj

/-- A handler that ends gives up its connection. -/
theorem Consistent.over (h : l.Consistent) (hopen : (l.conns i).handler ≠ .over)
    (hgrows : (l.standbys (l.conns i).addr).Grows l.loop.replicaName s)
    (hsound : s.Sound l.loop.replicaName)
    (hkept : (l.conns i).Whole → l.confirmedBy = some (l.conns i).addr →
      s.targets.last l.loop.replicaName = some (l.conns i).header.snapshotId)
    (hlast : s.targets.last l.loop.replicaName = l.last (l.conns i).addr ∨
      (l.conns i).Whole ∧
        s.targets.last l.loop.replicaName = some (l.conns i).header.snapshotId) :
    (l.handled i .over ack s).Consistent :=
  h.handled hopen nofun hgrows hsound (.of_over rfl) (by simp [Conn.Whole])
    (fun hw hc => Or.inr (hkept hw hc)) hlast nofun

theorem Consistent.answer (h : l.Consistent) (saves : Bool) (peerAddr : String)
    (horderly : l.Orderly (.answer i saves peerAddr)) (hreading : (l.conns i).handler = .reading) :
    (l.answer i saves peerAddr).Consistent := by
  have hopen : (l.conns i).handler ≠ .over := by simp [hreading]
  have hnot : ¬ (l.conns i).Whole := by simp [Conn.Whole, hreading]
  have hname := (h.fits i).named hopen
  have hgrows := Listener.Grows.answer (s := l.standbys (l.conns i).addr)
    (r := l.loop.replicaName) saves (l.conns i).header peerAddr
  have hsound := (h.sound (l.conns i).addr).answer saves (l.conns i).header peerAddr
  have hlast := (l.standbys (l.conns i).addr).answer_last saves (l.conns i).header peerAddr
    l.loop.replicaName
  have hack := (l.standbys (l.conns i).addr).answer_ack saves (l.conns i).header peerAddr
  have hmem := (l.standbys (l.conns i).addr).answer_mem saves (l.conns i).header peerAddr
  rw [Link.answer]
  split
  · rename_i s hs
    rw [hs] at hgrows hsound hlast
    exact h.over hopen hgrows hsound (fun hw => absurd hw hnot) (Or.inl hlast)
  · rename_i s hs
    rw [hs] at hgrows hsound hlast
    exact h.over hopen hgrows hsound (fun hw => absurd hw hnot) (Or.inl hlast)
  · rename_i s hs
    rw [hs] at hgrows hsound hlast hack hmem
    -- The base is the one last recorded: the standby is where the loop takes it to be.
    have hbase : (l.conns i).header.baseSnapshotId = l.last (l.conns i).addr := by
      rw [last, ← hname]
      by_contra hne
      cases saves with
      | false => cases hack
      | true =>
        rw [if_pos rfl, if_neg hne] at hack
        cases hack
    have hnone := h.noneWhole (horderly hbase)
    have hinput := ((h.fits i).unread hreading).2
    refine h.handled hopen nofun hgrows hsound ?_ ?_ (fun hw => absurd hw hnot) (Or.inl hlast) ?_
    · refine ⟨fun _ => hname, nofun, fun _ => hname ▸ hmem, fun stream _ hstream => ?_, nofun⟩
      have hsome : (l.conns i).input = some (some stream) := hstream
      simp [hsome] at hinput
    · simp [Conn.Whole, hinput]
    · intro hi _
      have hheader := (h.current i hi).2.1
      rw [hheader] at hbase
      exact ⟨hbase.symm, hnone⟩

theorem Consistent.receive (h : l.Consistent) {works : Bool} {input : Option SendStream}
    (horderly : l.Orderly (.receive i works)) (hreceiving : (l.conns i).handler = .receiving)
    (hinput : (l.conns i).input = some input) : (l.receive i works input).Consistent := by
  have hopen : (l.conns i).handler ≠ .over := by simp [hreceiving]
  have hname := (h.fits i).named hopen
  have hgrows := Listener.Grows.receive (s := l.standbys (l.conns i).addr)
    (r := l.loop.replicaName) works (l.conns i).header input
  have hsound := (h.sound (l.conns i).addr).receive works (l.conns i).header input
  have hlast : ((l.standbys (l.conns i).addr).receive works (l.conns i).header input).2.targets.last
      l.loop.replicaName = l.last (l.conns i).addr := by rw [Listener.receive_targets, last]
  rw [Link.receive]
  split
  · rename_i s hs
    rw [hs] at hgrows hsound hlast
    obtain ⟨stream, rfl, hstore⟩ := (l.standbys (l.conns i).addr).receive_eq_true works
      (l.conns i).header input (by rw [hs])
    have hwhole : (l.conns i).Whole := Or.inr ⟨hreceiving, stream, by simp [hinput]⟩
    have hsnapshot := ((h.fits i).whole stream hreceiving hinput).1
    refine h.handled hopen nofun hgrows hsound ?_ (fun _ => hwhole) (fun _ _ => Or.inl (Or.inl rfl))
      (Or.inl hlast) nofun
    refine ⟨fun _ => hname, nofun, fun _ => ?_, nofun, fun _ => ?_⟩
    · exact hgrows.known ((h.fits i).known (Or.inl hreceiving))
    · rw [hs] at hstore
      rw [hgrows.dataset, hstore, hname]
      exact (FakeZfsManager.holds_store _).2 (Or.inl hsnapshot.symm)
  · rename_i s hs
    rw [hs] at hgrows hsound hlast
    refine h.over hopen hgrows hsound (fun hw hc => ?_) (Or.inl hlast)
    -- A whole stream the loop relies on is received.
    obtain ⟨-, stream, hstream, -⟩ := hw.resolve_left (by simp [hreceiving])
    have hsome : input = some stream := by simpa [hinput] using hstream
    have hbase := ((h.fits i).whole stream hreceiving (by rw [hinput, hsome])).2
    have hworks := horderly hw hc
    rw [hsome, hworks, Listener.receive_of_base _ _ (hname ▸ hbase)] at hs
    cases (Prod.mk.inj hs).1

theorem Consistent.record (h : l.Consistent) (saves : Bool)
    (hrecording : (l.conns i).handler = .recording) :
    (l.record i saves).Consistent := by
  have hopen : (l.conns i).handler ≠ .over := by simp [hrecording]
  have hname := (h.fits i).named hopen
  have hknown := (h.fits i).known (Or.inr hrecording)
  have hwhole : (l.conns i).Whole := Or.inl hrecording
  have hlast : ((l.standbys (l.conns i).addr).record saves (l.conns i).header).targets.last
      l.loop.replicaName = some (l.conns i).header.snapshotId := by
    rw [Listener.record_last _ _ _ _ (hname ▸ hknown), if_pos hname.symm]
  exact h.over hopen (.record saves _)
    ((h.sound _).record saves hname hknown ((h.fits i).held hrecording)) (fun _ _ => hlast)
    (Or.inr ⟨hwhole, hlast⟩)

end Handler

/-! ## The loop's steps -/

section Loop

variable {i : ℕ} {addr : String} {prunes : Bool}

theorem cut_conns (j : ℕ) :
    (l.cut i).conns j =
      if j = i then { l.conns i with input := (l.conns i).input.or (some none) }
      else l.conns j := by
  simp [cut, setConn, Function.update_apply]

/-- A stream cut short is no whole stream. -/
theorem cut_whole (j : ℕ) : ((l.cut i).conns j).Whole ↔ (l.conns j).Whole := by
  rw [cut_conns]
  split
  · rename_i hji
    subst hji
    cases hinput : (l.conns j).input <;> simp [Conn.Whole, hinput]
  · rfl

@[simp] theorem cut_addr (j : ℕ) : ((l.cut i).conns j).addr = (l.conns j).addr := by
  rw [cut_conns]
  split
  · rename_i hji
    rw [hji]
  · rfl

@[simp] theorem cut_header (j : ℕ) : ((l.cut i).conns j).header = (l.conns j).header := by
  rw [cut_conns]
  split
  · rename_i hji
    rw [hji]
  · rfl

theorem Backs.cut (h : l.Backs) : (l.cut i).Backs where
  unopened j hj := by
    rw [cut_conns]
    split
    · rename_i hji
      exact hji ▸ h.unopened j hj
    · exact h.unopened j hj
  fits j := by
    have hold := h.fits j
    rw [cut_addr, cut_conns]
    split
    · rename_i hji
      subst hji
      exact hold.cut
    · exact hold
  sound := h.sound
  single j k hj hk := by
    rw [cut_addr, cut_addr]
    exact h.single j k ((cut_whole j).1 hj) ((cut_whole k).1 hk)
  backed s hs := by
    obtain ⟨addr, haddr, hsame, hback⟩ := h.backed s hs
    refine ⟨addr, haddr, fun j hj => ?_, hback.imp_left ?_⟩
    · rw [cut_addr, cut_header]
      exact hsame j ((cut_whole j).1 hj)
    · rintro ⟨j, hj, hja⟩
      exact ⟨j, (cut_whole j).2 hj, (cut_addr j).trans hja⟩
  unconfirmed := h.unconfirmed
  target := h.target

/-- A tick that came to nothing leaves the loop where it was. -/
theorem Backs.concludeIo (h : l.Backs) : (l.conclude addr prunes .io).Consistent :=
  Backs.consistent ⟨⟨h.unopened, h.fits, h.sound, h.single⟩, h.backed, h.unconfirmed, h.target⟩ rfl

/-- And one that was rejected leaves it relying on no one. -/
theorem Streams.concludeNeedFull (h : l.Streams) : (l.conclude addr prunes .needFull).Consistent :=
  Backs.consistent ⟨⟨h.unopened, h.fits, h.sound, h.single⟩, nofun, fun _ => rfl, nofun⟩ rfl

theorem sent_conns {input : Option SendStream} (j : ℕ) :
    (l.sent i input).conns j =
      if j = i then { l.conns i with input := some input } else l.conns j := by
  simp [sent, setConn, Function.update_apply]

@[simp] theorem sent_addr {input : Option SendStream} (j : ℕ) :
    ((l.sent i input).conns j).addr = (l.conns j).addr := by
  rw [sent_conns]
  split
  · rename_i hji
    rw [hji]
  · rfl

@[simp] theorem sent_header {input : Option SendStream} (j : ℕ) :
    ((l.sent i input).conns j).header = (l.conns j).header := by
  rw [sent_conns]
  split
  · rename_i hji
    rw [hji]
  · rfl

/-- The one stream that is whole and was not is the one that arrived. -/
theorem sent_whole {input : Option SendStream} (hinput : (l.conns i).input = none) (j : ℕ) :
    ((l.sent i input).conns j).Whole ↔
      (l.conns j).Whole ∨ j = i ∧ (l.conns i).handler = .receiving ∧ input.isSome = true := by
  rw [sent_conns]
  split
  · rename_i hji
    subst hji
    simp [Conn.Whole, hinput, Option.isSome_iff_exists]
  · rename_i hji
    simp [hji]

/-- What the loop sends fits the connection it is on: the handler is ready
only if the standby has its base. -/
theorem Consistent.sent (h : l.Consistent) {stream : SendStream} {arrives : Bool}
    (hphase : l.phase = .sending i) (hstream : l.loop.stream l.zfs = some stream) :
    (l.sent i (if arrives then some stream else none)).Streams := by
  obtain ⟨hi, hheader, hinput⟩ := h.current i (by simp [hphase, Phase.conn?])
  have hready := h.ready i (by simp [hphase, Phase.conn?])
  have hanswered := h.answered i (by simp [hphase, Phase.sending?])
  obtain ⟨hsnapshot, hbase⟩ := ReplicationLoop.stream_eq hstream
  have hfits : ({ l.conns i with input := some (if arrives then some stream else none) } :
      Conn).Fits l.loop.replicaName (l.standbys (l.conns i).addr) := by
    refine ⟨(h.fits i).named, fun hc => absurd hc hanswered, (h.fits i).known, ?_, (h.fits i).held⟩
    intro stream' hreceiving hstream'
    have heq : stream' = stream := by
      cases arrives <;> simp_all
    subst heq
    refine ⟨by rw [hsnapshot, hheader]; rfl, fun b hb => ?_⟩
    exact h.sound _ b (Or.inl ((hready hreceiving).1.trans (hbase ▸ hb)))
  have hsingle : ∀ j, (l.conns j).Whole → (l.conns j).addr = (l.conns i).addr →
      (l.conns i).handler ≠ .receiving := by
    intro j hj haddr hreceiving
    exact (hready hreceiving).2 j hj haddr
  refine ⟨fun j hj => ?_, fun j => ?_, h.sound, fun j k hj hk haddr => ?_⟩
  · rw [sent_conns, if_neg (by rintro rfl; exact absurd hi (not_lt.2 hj))]
    exact h.unopened j hj
  · rw [sent_addr, sent_conns]
    split
    · rename_i hji
      subst hji
      exact hfits
    · exact h.fits j
  · -- Two whole streams for one standby: one of them would have come to a
    -- handler that is ready, and that rules the other out.
    rw [sent_addr, sent_addr] at haddr
    rcases (sent_whole hinput j).1 hj with hj' | ⟨rfl, hreceiving, -⟩ <;>
      rcases (sent_whole hinput k).1 hk with hk' | ⟨rfl, hreceiving', -⟩
    · exact h.single j k hj' hk' haddr
    · exact absurd hreceiving' (hsingle j hj' haddr)
    · exact absurd hreceiving (hsingle k hk' haddr.symm)
    · rfl

theorem Consistent.send (h : l.Consistent) {sends arrives : Bool}
    (hphase : l.phase = .sending i) (horderly : l.Orderly (.send sends arrives prunes)) :
    (l.send i sends arrives prunes).Consistent := by
  obtain ⟨hi, hheader, hinput⟩ := h.current i (by simp [hphase, Phase.conn?])
  obtain ⟨hsends, harrives⟩ := horderly i (by simp [hphase, Phase.sending?])
  rw [Link.send]
  cases hstream : l.loop.stream l.zfs with
  | none => exact h.toBacks.cut.concludeIo
  | some stream =>
    have hstreams : (l.sent i (if arrives then some stream else none)).Streams :=
      h.sent hphase hstream
    cases sends with
    | false =>
      -- What the loop relies on is where it was: nothing whole came, or it relies on nothing.
      refine Backs.concludeIo ⟨hstreams, fun s hs => ?_, h.unconfirmed, h.target⟩
      have hsame : ∀ j, ((l.sent i (if arrives then some stream else none)).conns j).Whole ↔
          (l.conns j).Whole := by
        intro j
        rw [sent_whole hinput, or_iff_left]
        rintro ⟨-, hreceiving, hsome⟩
        cases arrives with
        | false => cases hsome
        | true =>
          have hnone := (harrives rfl hreceiving).resolve_left nofun
          cases hnone.symm.trans hs
      obtain ⟨addr, haddr, hsnapshot, hback⟩ := h.backed s hs
      refine ⟨addr, haddr, fun j hj => ?_, hback.imp_left ?_⟩
      · rw [sent_addr, sent_header]
        exact hsnapshot j ((hsame j).1 hj)
      · rintro ⟨j, hj, hja⟩
        exact ⟨j, (hsame j).2 hj, (sent_addr j).trans hja⟩
    | true =>
      obtain ⟨rfl, hreceiving, htarget⟩ := hsends rfl
      have hwhole : ((l.sent i (some stream)).conns i).Whole :=
        (sent_whole hinput i).2 (Or.inr ⟨rfl, hreceiving, rfl⟩)
      refine Backs.consistent
        ⟨⟨hstreams.unopened, hstreams.fits, hstreams.sound, hstreams.single⟩, ?_, nofun, ?_⟩ rfl
      · rintro s ⟨⟩
        refine ⟨_, rfl, fun j hj hja => ?_, Or.inl ⟨i, hwhole, sent_addr i⟩⟩
        have hji : j = i := hstreams.single j i hj hwhole (hja.trans (sent_addr i).symm)
        subst hji
        exact congrArg Header.snapshotId ((sent_header j).trans hheader)
      · rintro a ha b ⟨⟩
        exact (htarget a ha).symm

/-- A loop that has moved on by a tick, on no connection. -/
theorem Backs.bumped (h : l.Backs) (hphase : l.phase = .idle) (tick : ℕ) (zfs : FakeZfsManager)
    (fresh : Stamp) :
    { l with loop := { l.loop with tick }, zfs, fresh }.Consistent :=
  Backs.consistent ⟨⟨h.unopened, h.fits, h.sound, h.single⟩, h.backed, h.unconfirmed, h.target⟩
    hphase

theorem connected_conns {loop : ReplicationLoop} {zfs : FakeZfsManager} (j : ℕ) :
    (l.connected loop zfs addr).conns j =
      if j = l.opened then ⟨addr, loop.header, .reading, none, none⟩ else l.conns j := by
  simp [connected, Function.update_apply]

/-- A connection just opened has no stream. -/
theorem connected_whole {loop : ReplicationLoop} {zfs : FakeZfsManager} (j : ℕ) :
    ((l.connected loop zfs addr).conns j).Whole ↔ j ≠ l.opened ∧ (l.conns j).Whole := by
  rw [connected_conns]
  split
  · rename_i hj
    simp [Conn.Whole, hj]
  · rename_i hj
    simp [hj]

theorem Backs.connected (h : l.Backs) {tick : ℕ} {zfs : FakeZfsManager} :
    (l.connected { l.loop with tick } zfs addr).Consistent := by
  have hnew : ∀ j, (l.conns j).Whole → j ≠ l.opened := by
    rintro j hj rfl
    simp [Conn.Whole, h.unopened _ le_rfl] at hj
  refine ⟨⟨⟨?_, ?_, h.sound, ?_⟩, ?_, h.unconfirmed, h.target⟩, ?_, ?_, ?_⟩
  · intro j hj
    have hj : l.opened + 1 ≤ j := hj
    rw [connected_conns, if_neg (by omega)]
    exact h.unopened j (by omega)
  · intro j
    rw [connected_conns]
    split
    · exact ⟨fun _ => rfl, fun _ => ⟨rfl, rfl⟩, by simp, nofun, nofun⟩
    · exact h.fits j
  · intro j k hj hk haddr
    obtain ⟨hjne, hj⟩ := (connected_whole j).1 hj
    obtain ⟨hkne, hk⟩ := (connected_whole k).1 hk
    rw [connected_conns, if_neg hjne, connected_conns, if_neg hkne] at haddr
    exact h.single j k hj hk haddr
  · -- The new connection has no stream, so whoever backs the base is old.
    intro s hs
    obtain ⟨addr', haddr, hsnapshot, hback⟩ := h.backed s hs
    refine ⟨addr', haddr, fun j hj => ?_, hback.imp_left ?_⟩
    · obtain ⟨hne, hj⟩ := (connected_whole j).1 hj
      rw [connected_conns, if_neg hne]
      exact hsnapshot j hj
    · rintro ⟨j, hj, hja⟩
      refine ⟨j, (connected_whole j).2 ⟨hnew j hj, hj⟩, ?_⟩
      rwa [connected_conns, if_neg (hnew j hj)]
  · rintro i ⟨⟩
    rw [connected_conns, if_pos rfl]
    exact ⟨Nat.lt_succ_self _, rfl, rfl⟩
  · rintro i ⟨⟩ hreceiving
    rw [connected_conns, if_pos rfl] at hreceiving
    cases hreceiving
  · nofun

theorem Consistent.tick (h : l.Consistent) (hphase : l.phase = .idle)
    (snapshots connects : Bool) : (l.tick snapshots connects).Consistent := by
  rw [Link.tick]
  split
  · exact h.toBacks.bumped hphase _ _ _
  split
  · exact h.toBacks.bumped hphase _ _ _
  split
  · exact h.toBacks.connected
  · exact h.toBacks.bumped hphase _ _ _

theorem Streams.restartSender (h : l.Streams) :
    { l with
      loop := { l.loop with lastConfirmedSent := none, tick := 0 }
      phase := .idle
      confirmedBy := none }.Consistent :=
  Backs.consistent ⟨⟨h.unopened, h.fits, h.sound, h.single⟩, nofun, fun _ => rfl, nofun⟩ rfl

end Loop

/-! ## The standby restarts -/

/-- The connections to a standby that restarts. -/
theorem restarted_conns (addr : String) (j : ℕ) :
    ((l.step (.restartStandby addr)).conns j).addr = (l.conns j).addr ∧
      ((l.step (.restartStandby addr)).conns j).header = (l.conns j).header ∧
      ((l.step (.restartStandby addr)).conns j).input = (l.conns j).input ∧
      ((l.step (.restartStandby addr)).conns j).handler =
        if (l.conns j).addr = addr then .over else (l.conns j).handler := by
  simp only [step]
  split <;> simp

theorem restarted_whole (addr : String) (j : ℕ) :
    ((l.step (.restartStandby addr)).conns j).Whole ↔
      (l.conns j).Whole ∧ (l.conns j).addr ≠ addr := by
  obtain ⟨-, -, hinput, hhandler⟩ := restarted_conns (l := l) addr j
  rw [Conn.Whole, hinput, hhandler]
  split
  · rename_i haddr
    simp [haddr]
  · rename_i haddr
    simp [haddr, Conn.Whole]

theorem Consistent.restartStandby (h : l.Consistent) {addr : String}
    (horderly : l.Orderly (.restartStandby addr)) :
    (l.step (.restartStandby addr)).Consistent := by
  have hstandby : ∀ a, (l.step (.restartStandby addr)).standbys a =
      if a = addr then (l.standbys addr).restart else l.standbys a := by
    intro a
    simp [step, Function.update_apply]
  have hlast : ∀ a, (l.confirmedBy = some a ∨ a ≠ addr) →
      (l.step (.restartStandby addr)).last a = l.last a := by
    intro a ha
    rw [last, hstandby]
    split
    · rename_i haddr
      subst haddr
      exact (horderly (ha.resolve_right (not_not.2 rfl))).2
    · rfl
  refine ⟨⟨⟨?_, ?_, ?_, ?_⟩, ?_, h.unconfirmed, h.target⟩, ?_, ?_, ?_⟩
  · intro j hj
    rw [(restarted_conns addr j).2.2.2]
    split
    · rfl
    · exact h.unopened j hj
  · intro j
    simp only [step]
    split
    · exact .of_over rfl
    · rename_i haddr
      rw [Function.update_of_ne haddr]
      exact h.fits j
  · intro a x hx
    rw [hstandby] at hx ⊢
    split at hx
    · rename_i haddr
      rw [if_pos haddr]
      exact h.sound addr x (Or.inr (or_self_iff.1 hx))
    · rename_i haddr
      rw [if_neg haddr]
      exact h.sound a x hx
  · intro j k hj hk haddr
    rw [(restarted_conns addr j).1, (restarted_conns addr k).1] at haddr
    exact h.single j k ((restarted_whole addr j).1 hj).1 ((restarted_whole addr k).1 hk).1 haddr
  · -- The restart of the standby that confirmed the base finds no whole
    -- stream there, so none that backs it is lost.
    intro s hs
    obtain ⟨a, ha, hsnapshot, hback⟩ := h.backed s hs
    refine ⟨a, ha, fun j hj => ?_, ?_⟩
    · rw [(restarted_conns addr j).1, (restarted_conns addr j).2.1]
      exact hsnapshot j ((restarted_whole addr j).1 hj).1
    · rw [hlast a (Or.inl ha)]
      refine hback.imp_left ?_
      rintro ⟨j, hj, hja⟩
      refine ⟨j, (restarted_whole addr j).2 ⟨hj, ?_⟩, (restarted_conns addr j).1.trans hja⟩
      rintro haddr
      exact h.noneWhole (horderly (haddr ▸ hja ▸ ha)).1 j hj haddr
  · intro i hi
    rw [(restarted_conns addr i).2.1, (restarted_conns addr i).2.2.1]
    exact h.current i hi
  · intro i hi hreceiving
    rw [(restarted_conns addr i).2.2.2] at hreceiving
    split at hreceiving
    · cases hreceiving
    · rename_i haddr
      obtain ⟨heq, hnone⟩ := h.ready i hi hreceiving
      rw [(restarted_conns addr i).1, hlast _ (Or.inr haddr)]
      refine ⟨heq, fun j hj => ?_⟩
      rw [(restarted_conns addr j).1]
      exact hnone j ((restarted_whole addr j).1 hj).1
  · intro i hi
    rw [(restarted_conns addr i).2.2.2]
    split
    · nofun
    · exact h.answered i hi

/-! ## Every run -/

/-- **A step that is orderly keeps the two sides together.** -/
theorem Consistent.step {label : Label} (h : l.Consistent) (horderly : l.Orderly label) :
    (l.step label).Consistent := by
  cases label with
  | tick snapshots connects =>
    rw [Link.step]
    split
    · rename_i hphase
      exact h.tick hphase snapshots connects
    · exact h
  | answer i saves peerAddr =>
    rw [Link.step]
    split
    · rename_i hreading
      exact h.answer saves peerAddr horderly hreading
    · exact h
  | readAck =>
    rw [Link.step]
    split
    · rename_i i hphase
      have hi : i ∈ l.phase.conn? := by simp [hphase, Phase.conn?]
      split
      · exact h.toStreams.concludeNeedFull
      · rename_i hack
        refine ⟨⟨⟨h.unopened, h.fits, h.sound, h.single⟩, h.backed, h.unconfirmed, h.target⟩,
          ?_, ?_, ?_⟩
        · rintro j ⟨⟩
          exact h.current i hi
        · rintro j ⟨⟩
          exact h.ready i hi
        · -- An ack was there to read, so the handler has read the header.
          rintro j ⟨⟩ hreading
          cases hack.symm.trans ((h.fits i).unread hreading).1
      · exact h
    · exact h
  | abort =>
    rw [Link.step]
    split
    · exact h.toBacks.cut.concludeIo
    · exact h
  | send sends arrives prunes =>
    rw [Link.step]
    split
    · rename_i i hphase
      exact h.send hphase horderly
    · exact h
  | receive i works =>
    rw [Link.step]
    split
    · rename_i input hreceiving hinput
      exact h.receive horderly hreceiving hinput
    · exact h
  | record i saves =>
    rw [Link.step]
    split
    · rename_i hrecording
      exact h.record saves hrecording
    · exact h
  | restartSender =>
    simp only [Link.step]
    split
    · exact h.toStreams.restartSender
    · exact h.toBacks.cut.toStreams.restartSender
    · exact h.toBacks.cut.toStreams.restartSender
  | restartStandby addr => exact h.restartStandby horderly
  | retarget replicateTo =>
    exact ⟨⟨⟨h.unopened, h.fits, h.sound, h.single⟩, h.backed, h.unconfirmed, horderly⟩,
      h.current, h.ready, h.answered⟩

theorem Consistent.run {labels : List Label} (h : l.Consistent)
    (horderly : l.OrderlyAlong labels) : (l.run labels).Consistent := by
  induction labels generalizing l with
  | nil => exact h
  | cons label labels ih => exact ih (h.step horderly.1) horderly.2

/-- Once no connection is in flight, what is backed is recorded. -/
theorem Consistent.confirmed (h : l.Consistent) (hquiet : l.Quiet) : l.Confirmed := by
  intro a ha s hs
  obtain ⟨addr, haddr, -, hback⟩ := h.backed s hs
  obtain rfl := h.target a ha addr haddr
  have hlast : l.last addr = some s := by
    refine hback.resolve_left ?_
    rintro ⟨i, hi, -⟩
    have hover : (l.conns i).handler = .over := by
      by_cases hopened : i < l.opened
      · exact hquiet.2 i hopened
      · exact h.unopened i (not_lt.1 hopened)
    simp [Conn.Whole, hover] at hi
  exact ⟨h.sound addr s (Or.inl hlast), hlast⟩

theorem consistent_spawn (replicaName volumeName pool : String) (zfs : FakeZfsManager)
    (replicateTo : Option String) (pools : String → String)
    (standbyZfs : String → FakeZfsManager) :
    (spawn replicaName volumeName pool zfs replicateTo pools standbyZfs).Consistent := by
  refine Backs.consistent ⟨⟨fun _ _ => rfl, fun _ => .of_over rfl, ?_, ?_⟩, nofun, fun _ => rfl,
    nofun⟩ rfl
  · intro addr x hx
    simp [spawn] at hx
  · intro i j hi
    simp [spawn, noConn, Conn.Whole] at hi

end Link

/-- **Confirmed means received.** In every orderly run, whenever no
connection is in flight, the standby the loop is to send to holds the
snapshot the loop has confirmed, and has recorded it. -/
theorem confirmed_received (replicaName volumeName pool : String) (zfs : FakeZfsManager)
    (replicateTo : Option String) (pools : String → String) (standbyZfs : String → FakeZfsManager)
    (labels : List Label)
    (horderly :
      (Link.spawn replicaName volumeName pool zfs replicateTo pools standbyZfs).OrderlyAlong labels)
    (hquiet :
      ((Link.spawn replicaName volumeName pool zfs replicateTo pools standbyZfs).run labels).Quiet) :
    ((Link.spawn replicaName volumeName pool zfs replicateTo pools standbyZfs).run
      labels).Confirmed :=
  ((Link.consistent_spawn ..).run horderly).confirmed hquiet

namespace Sample

/-- A loop of `db-0` and the standbys there are. -/
def link : Link :=
  .spawn "db-0" "db-0-data" "zroot" (FakeZfsManager.new.createVolume volume) (some "b:4434")
    (fun _ => "zroot") fun _ => .new

/-- A tick, up to a stream that is written out and arrives. -/
def sentOn (i : ℕ) : List Label :=
  [.tick true true, .answer i true "a:4434", .readAck, .send true true true]

end Sample

open Sample in
theorem confirmed_received_sample :
    (Sample.link.run (sentOn 0 ++ [.receive 0 true, .record 0 true] ++ sentOn 1 ++
        [.receive 1 true, .record 1 true])).loop.lastConfirmedSent = some "keel-repl-2" ∧
      (Sample.link.run (sentOn 0 ++ [.receive 0 true, .record 0 true] ++ sentOn 1 ++
        [.receive 1 true, .record 1 true])).Confirmed :=
  ⟨by decide +kernel,
    confirmed_received _ _ _ _ _ _ _ _ (by decide +kernel) (by decide +kernel)⟩

open Sample in
/-- **A confirmed snapshot the standby does not have**: its `zfs receive`
fails once the stream is written out. -/
theorem confirmed_not_received :
    (Sample.link.run (sentOn 0 ++ [.receive 0 false])).Quiet ∧
      ¬ (Sample.link.run (sentOn 0 ++ [.receive 0 false])).Confirmed := by
  decide +kernel

end Agent

end Keel
