import Mathlib.Data.Fintype.Basic
import Keel.Cluster.Primaries
import Keel.ControlPlane.Promotions
/-!
# Ready standbys

An agent that answers 200 to `GET /replica-targets/r` is taken to be ready
to become `r`'s primary, and `handle_force_repin` promotes it: it is to
have received the volume of `r` from the node `r` is on, since `r` was
last placed anew. What the agent looks at is the target it keeps under
`r`'s name, and nothing ever takes a target away. A replica that is
deleted and created again is another one under the same name, for which
the old one's standby is ready at once (`ready_for_another`).

The target of an agent is about the replica as it is in every run in which
the control plane places the replica, moves it or drops it only while the
agent has no completed target for it, nothing of it is under way to the
agent, and no handler is about to promote the agent; and in which only the
node the replica is on sends it to the agent, and no snapshot from before
the replica was placed anew (`KeepsReady`): there a 200 means a full
stream received from that node, of a snapshot taken since then, and an
agent that is promoted has nothing older (`standby_ready`).
-/

namespace Keel

open Agent

namespace Cluster

variable {N : Type} (net : Net N) (c : Cluster N)

/-! ## The property -/

/-- What was received is of the replica as it is: from the node it is on,
of a snapshot taken since it was placed anew. -/
def OfNow (x : Receipt N) : Prop :=
  c.worker.placements.lookup x.replica = some (net.nodeId x.source) ∧ c.born x.replica ≤ x.stamp

/-- The agent has received a full stream of the replica as it is. -/
def Received (m : N) (r : String) : Prop :=
  ∃ x ∈ c.received, x.agent = m ∧ x.replica = r ∧ x.full = true ∧ c.OfNow net x

/-- Ready means received. -/
def Ready (m : N) (r : String) : Prop :=
  ((c.agents m).handleGetReplicaTarget r).status = 200 → c.Received net m r

/-- The agent a handler is about to promote, and for which replica. -/
def promoting (p : ControlPlane.Handler ControlPlane.Response) : Option (N × String) :=
  (ControlPlane.Handler.promotes? p).bind fun x => (net.http x.1).map (·, x.2)

/-- The promotion a step asks an agent for. -/
def promotes : Label N → Option (N × String)
  | .advance i .. => (c.handlers[i]?).bind (promoting net)
  | _ => none

/-! ## The condition -/

/-- The agent has recorded a snapshot of the replica, in memory or on
disk. -/
def Completed (m : N) (r : String) : Prop :=
  (c.last m r).isSome = true ∨ (c.savedLast m r).isSome = true

/-- A loop sends the replica to the agent. -/
def SendsTo (t : Thread) (m : N) (r : String) : Prop :=
  t.loop.replicaName = r ∧ t.ack? ≠ some .needFull ∧
    ∃ addr ∈ t.addr?, net.replication addr = some m

/-- A stream of the replica is under way to the agent, or the order to
promote it. -/
def UnderWay (m : N) (r : String) : Prop :=
  (∃ n, ∃ t ∈ (c.agents n).threads, SendsTo net t m r) ∨
  (∃ x ∈ c.receives, x.dst = m ∧ x.header.replicaName = r ∧ x.arrival ≠ .cut) ∨
  ∃ p ∈ c.handlers, promoting net p = some (m, r)

/-- The snapshot of a loop's tick, if there is one, is of the replica as
it is. -/
def SendsNew (n : N) (loop : ReplicationLoop) : Prop :=
  ∀ s ∈ (c.agents n).zfs.snapshots.lookup (loop.dataset, snapshotId loop.tick),
    c.born loop.replicaName ≤ s

end Cluster

namespace Cluster

variable {N : Type} [DecidableEq N] (net : Net N) (m : N) (r : String)

/-- The last stream of the replica an agent has received: what there is of
its volume. -/
def latest (c : Cluster N) : Option (Receipt N) :=
  c.received.find? fun x => x.agent = m ∧ x.replica = r

/-- What there is of the replica's volume is of the replica as it is. -/
def Current (c : Cluster N) : Prop :=
  c.Received net m r ∧ ∃ x ∈ c.latest m r, c.OfNow net x

/-- An agent is promoted only with the volume of the replica as it is. -/
def PromotesCurrent (c : Cluster N) (label : Label N) : Prop :=
  c.promotes net label = some (m, r) → c.Current net m r

/-- What the agent has stays about the replica as it is. The replica's
placement changes only while the agent has recorded nothing of it and
nothing is under way to it; a loop begins to send it to the agent only on
the node it is on, and with no snapshot from before it was placed anew;
and no such snapshot is received over one that a loop is sending. -/
def KeepsReady [Ipnet] (c : Cluster N) : Label N → Prop
  | .advance i o machine delivery =>
    (c.advance net i o machine delivery).worker.placements.lookup r ≠
      c.worker.placements.lookup r → ¬ c.Completed m r ∧ ¬ c.UnderWay net m r
  | .wake n i _ _ => ∀ t ∈ (c.agents n).threads[i]?, t.phase = .sleeping →
    t.loop.replicaName = r → c.pointsTo net n r = some m →
      c.worker.placements.lookup r = some (net.nodeId n) ∧
        c.SendsNew n { t.loop with tick := t.loop.tick + 1 }
  | .receive k works => ∀ x ∈ c.stores (.receive k works), ∀ stream ∈ x.arrival.stream?,
    ∀ t ∈ (c.agents x.dst).threads, SendsTo net t m r →
      t.loop.dataset = (c.agents x.dst).listener.dataset x.header.replicaName →
        snapshotId t.loop.tick = stream.snapshot → c.born r ≤ stream.stamp
  | _ => True

section Decidable

variable (c : Cluster N)

instance (x : Receipt N) : Decidable (c.OfNow net x) := inferInstanceAs (Decidable (_ ∧ _))

instance : Decidable (c.Received net m r) := inferInstanceAs (Decidable (∃ _ ∈ _, _))

instance : Decidable (c.Ready net m r) := inferInstanceAs (Decidable (_ → _))

instance : Decidable (c.Current net m r) := inferInstanceAs (Decidable (_ ∧ _))

instance (label : Label N) : Decidable (c.PromotesCurrent net m r label) :=
  inferInstanceAs (Decidable (_ → _))

instance : Decidable (c.Completed m r) := inferInstanceAs (Decidable (_ ∨ _))

instance (t : Thread) : Decidable (SendsTo net t m r) := inferInstanceAs (Decidable (_ ∧ _))

instance (n : N) (loop : ReplicationLoop) : Decidable (c.SendsNew n loop) :=
  inferInstanceAs (Decidable (∀ _ ∈ _, _))

instance [Fintype N] : Decidable (c.UnderWay net m r) := inferInstanceAs (Decidable (_ ∨ _))

instance [Fintype N] [Ipnet] (label : Label N) : Decidable (c.KeepsReady net m r label) :=
  match label with
  | .advance .. => inferInstanceAs (Decidable (_ → _))
  | .wake .. => inferInstanceAs (Decidable (∀ _ ∈ _, _))
  | .receive .. => inferInstanceAs (Decidable (∀ _ ∈ _, _))
  | .serve .. | .ask .. | .timer .. | .assign .. | .exit .. | .answer .. | .abandon ..
  | .send .. | .answerOrphan .. | .record .. | .restart .. => .isTrue trivial

end Decidable

end Cluster

/-! ## Backed -/

namespace Cluster

variable {N : Type} [DecidableEq N]

/-- What a connection brings the agent, from the node the replica is on:
what it is an increment of, and what has been received, is of the replica
as it is, and so is the snapshot that has come. -/
structure Fed (net : Net N) (m : N) (r : String) (c : Cluster N) (x : Receive N) : Prop where
  placed : c.worker.placements.lookup r = some (net.nodeId x.src)
  based : x.header.baseSnapshotId ≠ none → c.Current net m r
  new : ∀ stream ∈ x.arrival.stream?, c.born r ≤ stream.stamp
  stored : x.arrival = .stored → c.Current net m r

/-- **The invariant.** -/
structure Backed (net : Net N) (m : N) (r : String) (c : Cluster N) : Prop where
  born : c.born r ≤ c.fresh
  completed : c.Completed m r → c.Current net m r
  sending : ∀ n, ∀ t ∈ (c.agents n).threads, SendsTo net t m r →
    c.worker.placements.lookup r = some (net.nodeId n) ∧ c.SendsNew n t.loop
  receives : ∀ x ∈ c.receives, x.dst = m → x.header.replicaName = r → x.arrival ≠ .cut →
    Fed net m r c x
  handlers : ∀ p ∈ c.handlers, (∃ last, ControlPlane.Handler.PromotesReady last p) ∧
    (promoting net p = some (m, r) → c.Current net m r)

variable {net : Net N} {m : N} {r : String} {c c' : Cluster N}

omit [DecidableEq N] in
/-- A loop that is connected to no one sends to no one. -/
theorem not_sendsTo {t : Thread} (ht : t.addr? = none) : ¬ SendsTo net t m r := by
  rintro ⟨-, -, addr, haddr, -⟩
  cases ht.symm.trans haddr

theorem mem_latest {x : Receipt N} (h : x ∈ c.latest m r) : x.agent = m ∧ x.replica = r := by
  simpa using List.find?_some (Option.mem_def.1 h)

/-- What has been received stays, and so do the replica's place and the
time it was placed. -/
theorem Current.congr (hplaced : c'.worker.placements.lookup r = c.worker.placements.lookup r)
    (hborn : c'.born r = c.born r) (hreceived : c'.received = c.received)
    (h : c.Current net m r) : c'.Current net m r := by
  have hnow : ∀ x : Receipt N, x.replica = r → c.OfNow net x → c'.OfNow net x := by
    rintro x rfl ⟨hx, hstamp⟩
    exact ⟨hplaced.trans hx, hborn.trans_le hstamp⟩
  obtain ⟨⟨x, hx, hagent, hreplica, hfull, hxnow⟩, y, hy, hynow⟩ := h
  refine ⟨⟨x, hreceived ▸ hx, hagent, hreplica, hfull, hnow x hreplica hxnow⟩, y, ?_, ?_⟩
  · rwa [latest, hreceived]
  · exact hnow y (mem_latest hy).2 hynow

theorem Fed.congr {x : Receive N} (h : Fed net m r c x)
    (hplaced : c'.worker.placements.lookup r = c.worker.placements.lookup r)
    (hborn : c'.born r = c.born r) (hcurrent : c.Current net m r → c'.Current net m r) :
    Fed net m r c' x where
  placed := hplaced.trans h.placed
  based hbase := hcurrent (h.based hbase)
  new stream hstream := hborn.trans_le (h.new stream hstream)
  stored hx := hcurrent (h.stored hx)

/-- **What a step has to see to** that leaves the replica where it is. -/
theorem Backed.of_step (h : Backed net m r c)
    (hplaced : c'.worker.placements.lookup r = c.worker.placements.lookup r)
    (hborn : c'.born r = c.born r) (hfresh : c.fresh ≤ c'.fresh)
    (hcurrent : c.Current net m r → c'.Current net m r)
    (hcompleted : c'.Completed m r → c.Completed m r ∨ c'.Current net m r)
    (hsending : ∀ n, ∀ t ∈ (c'.agents n).threads, SendsTo net t m r →
      (t ∈ (c.agents n).threads ∨
        c.worker.placements.lookup r = some (net.nodeId n) ∧ c.SendsNew n t.loop) ∧
      ∀ s ∈ (c'.agents n).zfs.snapshots.lookup (t.loop.dataset, snapshotId t.loop.tick),
        s ∈ (c.agents n).zfs.snapshots.lookup (t.loop.dataset, snapshotId t.loop.tick) ∨
          c.born r ≤ s)
    (hreceives : ∀ x ∈ c'.receives, x ∈ c.receives ∨ x.arrival = .cut ∨
      (x.dst = m → x.header.replicaName = r → Fed net m r c' x))
    (hhandlers : ∀ p ∈ c'.handlers, p ∈ c.handlers ∨
      (∃ last, ControlPlane.Handler.PromotesReady last p) ∧
        (promoting net p = some (m, r) → c'.Current net m r)) : Backed net m r c' where
  born := (hborn.trans_le h.born).trans hfresh
  completed hm := (hcompleted hm).elim (fun hm => hcurrent (h.completed hm)) id
  sending n t ht hsends := by
    obtain ⟨hold, hstamps⟩ := hsending n t ht hsends
    have hnow : c.worker.placements.lookup r = some (net.nodeId n) ∧ c.SendsNew n t.loop :=
      hold.elim (fun ht => h.sending n t ht hsends) id
    refine ⟨hplaced.trans hnow.1, fun s hs => ?_⟩
    obtain rfl := hsends.1
    rw [hborn]
    exact (hstamps s hs).elim (hnow.2 s) id
  receives x hx hdst hr hcut := by
    rcases hreceives x hx with hx | hx | hfed
    · exact (h.receives x hx hdst hr hcut).congr hplaced hborn hcurrent
    · exact absurd hx hcut
    · exact hfed hdst hr
  handlers p hp := by
    rcases hhandlers p hp with hp | hp
    · exact ⟨(h.handlers p hp).1, fun hpromoting => hcurrent ((h.handlers p hp).2 hpromoting)⟩
    · exact hp

/-- A step of the agents, that receives no stream. -/
theorem Backed.of_agents (h : Backed net m r c) (hworker : c'.worker = c.worker)
    (hhandlers : c'.handlers = c.handlers) (hborn : c'.born = c.born)
    (hfresh : c.fresh ≤ c'.fresh) (hreceived : c'.received = c.received)
    (hcompleted : c'.Completed m r → c.Completed m r ∨ c.Current net m r)
    (hsending : ∀ n, ∀ t ∈ (c'.agents n).threads, SendsTo net t m r →
      (t ∈ (c.agents n).threads ∨
        c.worker.placements.lookup r = some (net.nodeId n) ∧ c.SendsNew n t.loop) ∧
      ∀ s ∈ (c'.agents n).zfs.snapshots.lookup (t.loop.dataset, snapshotId t.loop.tick),
        s ∈ (c.agents n).zfs.snapshots.lookup (t.loop.dataset, snapshotId t.loop.tick) ∨
          c.born r ≤ s)
    (hreceives : ∀ x ∈ c'.receives, x ∈ c.receives ∨ x.arrival = .cut ∨
      (x.dst = m → x.header.replicaName = r → Fed net m r c x)) : Backed net m r c' := by
  have hplaced : c'.worker.placements.lookup r = c.worker.placements.lookup r := by rw [hworker]
  have hcurrent : c.Current net m r → c'.Current net m r :=
    Current.congr hplaced (congrFun hborn r) hreceived
  refine h.of_step hplaced (congrFun hborn r) hfresh hcurrent
    (fun hm => (hcompleted hm).imp_right hcurrent) hsending (fun x hx => ?_)
    fun p hp => Or.inl (hhandlers ▸ hp)
  exact (hreceives x hx).imp_right (Or.imp_right fun hfed hdst hr =>
    (hfed hdst hr).congr hplaced (congrFun hborn r) hcurrent)

theorem Backed.of_commanded (h : Backed net m r c) (hcommanded : Commanded c c')
    (hplaced : c'.worker.placements.lookup r = c.worker.placements.lookup r)
    (hborn : c'.born r = c.born r) (hfresh : c'.fresh = c.fresh)
    (hreceived : c'.received = c.received)
    (hhandlers : ∀ p ∈ c'.handlers, p ∈ c.handlers ∨
      (∃ last, ControlPlane.Handler.PromotesReady last p) ∧
        (promoting net p = some (m, r) → c.Current net m r)) : Backed net m r c' := by
  have hcurrent : c.Current net m r → c'.Current net m r := Current.congr hplaced hborn hreceived
  refine h.of_step hplaced hborn hfresh.ge hcurrent (fun hm => Or.inl ?_) (fun n t ht hsends => ?_)
    (fun x hx => Or.inl (hcommanded.receives ▸ hx))
    fun p hp => (hhandlers p hp).imp_right (And.imp_right (hcurrent ∘ ·))
  · rwa [Completed, last, savedLast, (hcommanded.agents m).targets] at hm
  · refine ⟨Or.inl ?_, fun s hs => Or.inl ((hcommanded.agents n).snapshots ▸ hs)⟩
    rcases (hcommanded.agents n).threads t ht with ht | ⟨name, rfl⟩
    · exact ht
    · exact absurd hsends (not_sendsTo rfl)

/-- A turn of a loop, that takes no snapshot but a new one. -/
theorem Backed.turn (h : Backed net m r c) {n : N} {i : ℕ} {t : Thread} {zfs : FakeZfsManager}
    (hsends : SendsTo net t m r →
      c.worker.placements.lookup r = some (net.nodeId n) ∧ c.SendsNew n t.loop)
    (hzfs : ∀ k s, zfs.snapshots.lookup k = some s →
      (c.agents n).zfs.snapshots.lookup k = some s ∨ c.born r ≤ s) :
    Backed net m r (c.turn n i t zfs) := by
  refine h.of_agents rfl rfl rfl le_rfl rfl (fun hm => Or.inl ?_) (fun k x hx hx' => ⟨?_, ?_⟩)
    fun x hx => Or.inl hx
  · rwa [Completed, last, savedLast, turn_targets] at hm
  · refine (mem_turn n k i t zfs hx).imp_right ?_
    rintro ⟨rfl, rfl⟩
    exact hsends hx'
  · rw [Cluster.turn, agents_setAgent]
    split
    · rename_i hk
      subst hk
      exact fun s hs => hzfs _ s hs
    · exact fun s hs => Or.inl hs

/-- An answer: a yes to an increment is to one of what the agent has. -/
theorem Backed.listen (h : Backed net m r c) (o : Orphan N) (arrival : Arrival) (saves : Bool)
    (peerAddr : String) (hcome : arrival.stream? = none) (hstored : arrival ≠ .stored)
    (hplaced : arrival ≠ .cut → o.dst = m → o.header.replicaName = r →
      c.worker.placements.lookup r = some (net.nodeId o.src)) :
    Backed net m r (c.listen o arrival saves peerAddr).2 := by
  refine h.of_agents ?_ ?_ ?_ ?_ ?_ (fun hm => Or.inl ?_) (fun n t ht _ => ⟨?_, ?_⟩) fun x hx => ?_
  iterate 3 rw [listen_eq]
  · exact (congrArg Cluster.fresh (listen_eq o arrival saves peerAddr)).ge
  · rw [listen_eq]
  · rw [Completed, listen_last, listen_savedLast] at hm
    refine hm.elim Or.inl fun hsaved => ?_
    split at hsaved
    · exact Or.inl hsaved
    · exact Or.inr hsaved
  · rw [listen_threads] at ht
    exact Or.inl ht
  · rw [listen_zfs]
    exact fun s hs => Or.inl hs
  · refine (mem_listen _ _ _ _ hx).imp_right ?_
    rintro ⟨rfl, hyes⟩
    refine or_iff_not_imp_left.2 fun hcut hdst hr => ⟨hplaced hcut hdst hr, fun hbase => ?_, ?_, ?_⟩
    · refine h.completed (Or.inl ?_)
      subst hdst hr
      rw [← listen_proceed _ _ _ _ hyes]
      exact Option.isSome_iff_ne_none.2 hbase
    · rw [hcome]
      exact nofun
    · exact fun harrival => absurd harrival hstored

/-- Connections that are opened, go on, or come to nothing. -/
theorem Backed.of_connections (h : Backed net m r c) {orphans : List (Orphan N)}
    {receives : List (Receive N)} (hreceives : ∀ x ∈ receives, x ∈ c.receives ∨ x.arrival = .cut ∨
      (x.dst = m → x.header.replicaName = r → Fed net m r c x)) :
    Backed net m r { c with orphans, receives } :=
  h.of_agents rfl rfl rfl le_rfl rfl Or.inl (fun _ _ ht _ => ⟨Or.inl ht, fun _ => Or.inl⟩) hreceives

/-- A loop has sent what it sends. -/
theorem Backed.settle (h : Backed net m r c) (n : N) (i : ℕ) (arrival : Arrival)
    (hstored : arrival ≠ .stored)
    (hnew : ∀ x ∈ c.receives, x.src = n → x.arrival = .awaited i → x.dst = m →
      x.header.replicaName = r → ∀ stream ∈ arrival.stream?, c.born r ≤ stream.stamp) :
    Backed net m r (c.settle n i arrival) := by
  refine h.of_connections fun x hx => ?_
  rcases mem_settle hx with ⟨hx, -⟩ | ⟨y, hy, hsrc, hawaited, rfl⟩
  · exact Or.inl hx
  · refine Or.inr (Or.inr fun hdst hr => ?_)
    have hfed := h.receives y hy hdst hr (hawaited ▸ nofun)
    exact ⟨hfed.placed, hfed.based, hnew y hy hsrc hawaited hdst hr,
      fun harrival => absurd harrival hstored⟩

theorem Backed.wake (h : Backed net m r c) (n : N) (i : ℕ) (snapshots connects : Bool)
    (hkeeps : ∀ t ∈ (c.agents n).threads[i]?, t.phase = .sleeping → t.loop.replicaName = r →
      c.pointsTo net n r = some m → c.worker.placements.lookup r = some (net.nodeId n) ∧
        c.SendsNew n { t.loop with tick := t.loop.tick + 1 }) :
    Backed net m r (c.setAgent n ((c.agents n).wake i snapshots connects c.fresh)) := by
  rcases (c.agents n).wake_cases i snapshots connects c.fresh with
    heq | ⟨loop, zfs, phase, hi, heq, -, hphase⟩
  · rw [heq, setAgent, Function.update_eq_self]
    exact h
  have hzfs : ∀ k s, zfs.snapshots.lookup k = some s →
      (c.agents n).zfs.snapshots.lookup k = some s ∨ c.born r ≤ s := by
    intro k s hs
    have hwake : ((c.agents n).wake i snapshots connects c.fresh).zfs.snapshots.lookup k =
        some s := by
      rw [heq]
      exact hs
    exact ((c.agents n).of_wake hwake).imp_right fun hs => h.born.trans_eq hs.symm
  rw [heq]
  refine h.turn (fun hsends => ?_) hzfs
  rcases hphase with rfl | rfl | ⟨addr, rfl, record, hrecord, hto⟩
  · exact absurd hsends (not_sendsTo rfl)
  · exact absurd hsends (not_sendsTo rfl)
  · obtain ⟨rfl, -, _, ⟨⟩, hm⟩ := hsends
    refine hkeeps _ hi rfl rfl ?_
    rw [pointsTo, hrecord, Option.bind_some, hto, Option.bind_some, hm]

theorem Backed.answer (h : Backed net m r c) (n : N) (i : ℕ) (saves : Bool) (peerAddr : String) :
    Backed net m r (c.answer net n i saves peerAddr) := by
  rcases c.answer_cases net n i saves peerAddr with
    heq | ⟨loop, addr, d, hi, hd, phase, heq, hphase⟩
  · rw [heq]
    exact h
  have hsending : d = m → loop.replicaName = r →
      c.worker.placements.lookup r = some (net.nodeId n) ∧ c.SendsNew n loop := by
    rintro rfl rfl
    exact h.sending n _ (List.mem_of_getElem? hi) ⟨rfl, nofun, addr, rfl, hd⟩
  have hlisten := h.listen ⟨n, d, loop.header⟩ (.awaited i) saves peerAddr rfl nofun
    fun _ hdst hr => (hsending hdst hr).1
  rw [heq]
  refine hlisten.turn ?_ fun k s hs => Or.inl ?_
  · rcases hphase with ⟨rfl, -⟩ | ⟨ack, -, rfl⟩
    · exact fun hsends => absurd hsends (not_sendsTo rfl)
    · rintro ⟨hr, -, addr', haddr, hm⟩
      cases haddr
      obtain ⟨hplaced, hnew⟩ := hsending (Option.some.inj (hd.symm.trans hm)) hr
      refine ⟨?_, fun s hs => ?_⟩
      · rw [listen_eq]
        exact hplaced
      · rw [listen_zfs] at hs
        rw [listen_eq]
        exact hnew s hs
  · rwa [listen_zfs]

theorem Backed.abandon (h : Backed net m r c) (n : N) (i : ℕ) :
    Backed net m r (c.abandon net n i) := by
  rcases c.abandon_cases net n i with heq | ⟨loop, addr, ack, hi, heq⟩
  · rw [heq]
    exact h
  rw [heq]
  have hcut := h.settle n i .cut nofun nofun
  have horphaned : Backed net m r { c.settle n i .cut with
      orphans := c.orphans ++ (Cluster.waiting net n ⟨loop, .sending addr ack⟩).toList } :=
    hcut.of_connections fun _ => Or.inl
  exact horphaned.turn (fun hsends => absurd hsends (not_sendsTo rfl)) fun _ _ => Or.inl

/-- A loop that is done with a tick. -/
theorem Backed.conclude (h : Backed net m r c) {n : N} {i : ℕ} {loop : ReplicationLoop}
    {addr : String} {ack : Option Ack}
    (hi : (c.agents n).threads[i]? = some ⟨loop, .sending addr ack⟩) (prunes : Bool)
    (result : SendOnce) : Backed net m r (c.conclude n i prunes result) := by
  rw [conclude_turn n i hi]
  exact h.turn (fun hsends => absurd hsends (not_sendsTo rfl)) fun k s hs =>
    Or.inl (loop.of_conclude hs)

/-- A stream sent is of the snapshot of its loop's tick. -/
theorem Backed.send (h : Backed net m r c) (hlinked : Linked net c) (n : N) (i : ℕ)
    (sends arrives prunes : Bool) : Backed net m r (c.send n i sends arrives prunes) := by
  rw [Cluster.send]
  split
  · rename_i hi
    exact h.conclude hi prunes .needFull
  · rename_i loop addr hi
    split
    · exact (h.settle n i .cut (by simp) (by simp [Arrival.stream?])).conclude hi prunes .io
    · rename_i stream hstream
      refine Backed.conclude (h.settle n i _ ?_ ?_) hi prunes _
      · cases arrives <;> simp
      · intro x hx hsrc hawaited hdst hr stream' hstream'
        obtain ⟨loop', addr', hthread, hto, hheader⟩ := hlinked.awaited x hx i hawaited
        rw [hsrc, hi] at hthread
        cases hthread
        have hsends : SendsTo net ⟨loop, .sending addr (some .proceed)⟩ m r := by
          refine ⟨?_, by simp, addr, rfl, hdst ▸ hto⟩
          rw [← hr, ← hheader]
          rfl
        have hnew := (h.sending n _ (List.mem_of_getElem? hi) hsends).2
        cases arrives with
        | false => cases hstream'
        | true =>
          cases hstream'
          obtain rfl := hsends.1
          exact hnew _ (loop.stream_stamp hstream)
  · exact h

theorem Backed.answerOrphan (h : Backed net m r c) (k : ℕ) (saves : Bool) (peerAddr : String) :
    Backed net m r (c.answerOrphan k saves peerAddr) := by
  rw [Cluster.answerOrphan]
  split
  · rename_i o _
    have hlisten := h.listen o .cut saves peerAddr rfl (by simp) fun hcut => absurd rfl hcut
    exact hlisten.of_connections fun _ => Or.inl
  · exact h

/-- **A stream that is received** from the node the replica is on: a full
one, or an increment of what the agent has. -/
theorem Backed.stored (h : Backed net m r c) (hlinked : Linked net c) {k : ℕ} {x : Receive N}
    {stream : SendStream} (hk : c.receives[k]? = some x) (hx : x.arrival = .arrived stream)
    (hkeeps : ∀ t ∈ (c.agents x.dst).threads, SendsTo net t m r →
      t.loop.dataset = (c.agents x.dst).listener.dataset x.header.replicaName →
        snapshotId t.loop.tick = stream.snapshot → c.born r ≤ stream.stamp) :
    Backed net m r (c.stored k x stream) := by
  have hmem := List.mem_of_getElem? hk
  have hfed : x.dst = m → x.header.replicaName = r → Fed net m r c x :=
    fun hdst hr => h.receives x hmem hdst hr (by simp [hx])
  -- The agent's last stream is now this one, or is what it was.
  have hnow : x.dst = m → x.header.replicaName = r → (c.stored k x stream).Current net m r := by
    intro hdst hr
    subst hdst hr
    obtain ⟨hplaced, hbased, hnew, -⟩ := hfed rfl rfl
    have hreceipt : c.OfNow net ⟨x.dst, x.header.replicaName, x.src, stream.stamp,
        stream.base.isNone⟩ := ⟨hplaced, hnew stream (hx ▸ rfl)⟩
    refine ⟨?_, _, List.find?_cons_of_pos (by simp), hreceipt⟩
    by_cases hbase : stream.base = none
    · exact ⟨_, List.mem_cons_self, rfl, rfl, by rw [hbase]; rfl, hreceipt⟩
    · rw [(hlinked.arrived x hmem stream hx).2] at hbase
      obtain ⟨⟨y, hy, hrest⟩, -⟩ := hbased hbase
      exact ⟨y, List.mem_cons_of_mem _ hy, hrest⟩
  have hcurrent : c.Current net m r → (c.stored k x stream).Current net m r := by
    rintro ⟨⟨y, hy, hrest⟩, z, hz, hznow⟩
    by_cases hto : x.dst = m ∧ x.header.replicaName = r
    · exact hnow hto.1 hto.2
    · refine ⟨⟨y, List.mem_cons_of_mem _ hy, hrest⟩, z, ?_, hznow⟩
      rw [latest, Cluster.stored, List.find?_cons_of_neg (by simpa using hto)]
      exact hz
  refine h.of_step rfl rfl le_rfl hcurrent (fun hm => Or.inl ?_) (fun n t ht hsends => ?_)
    (fun y hy => ?_) fun p hp => Or.inl hp
  · rwa [Completed, last, savedLast, (stored_keeps ..).2.2] at hm
  · rw [(stored_keeps ..).2.1] at ht
    refine ⟨Or.inl ht, fun s hs => ?_⟩
    rw [stored_agents] at hs
    split at hs
    · rename_i hn
      subst hn
      by_cases hkey : (t.loop.dataset, snapshotId t.loop.tick) =
          ((c.agents x.dst).listener.dataset x.header.replicaName, stream.snapshot)
      · rw [FakeZfsManager.store, hkey, AList.lookup_insert] at hs
        cases hs
        exact Or.inr (hkeeps t ht hsends (Prod.mk.inj hkey).1 (Prod.mk.inj hkey).2)
      · rw [FakeZfsManager.store, AList.lookup_insert_ne hkey] at hs
        exact Or.inl hs
    · exact Or.inl hs
  · rcases mem_stored hy with hy | rfl
    · exact Or.inl hy
    · refine Or.inr (Or.inr fun hdst hr => ?_)
      obtain ⟨hplaced, hbased, -, -⟩ := hfed hdst hr
      exact ⟨hplaced, fun _ => hnow hdst hr, by simp [Arrival.stream?], fun _ => hnow hdst hr⟩

theorem Backed.receive [Ipnet] (h : Backed net m r c) (hlinked : Linked net c) {k : ℕ}
    {works : Bool} (hkeeps : c.KeepsReady net m r (.receive k works)) :
    Backed net m r (c.receive k works) := by
  rcases c.receive_cases k works with heq | heq | ⟨x, stream, hk, hx, hstores, heq⟩
  · rw [heq]
    exact h
  · rw [heq]
    exact h.of_connections fun x hx => Or.inl (List.mem_of_mem_eraseIdx hx)
  · rw [heq]
    exact h.stored hlinked hk hx (hkeeps x hstores stream (hx ▸ rfl))

/-- What is recorded has been received. -/
theorem Backed.record (h : Backed net m r c) (k : ℕ) (saves : Bool) :
    Backed net m r (c.record k saves) := by
  have hstored : ∀ x, c.receives[k]? = some x → x.arrival = .stored → x.dst = m →
      x.header.replicaName = r → c.Current net m r := fun x hk hx hdst hr =>
    (h.receives x (List.mem_of_getElem? hk) hdst hr (hx ▸ nofun)).stored hx
  have hcontrol : (c.record k saves).worker = c.worker ∧
      (c.record k saves).handlers = c.handlers ∧ (c.record k saves).born = c.born ∧
      (c.record k saves).fresh = c.fresh ∧ (c.record k saves).received = c.received := by
    rcases c.record_cases k saves with heq | ⟨x, -, -, heq⟩ <;>
    · rw [heq]
      exact ⟨rfl, rfl, rfl, rfl, rfl⟩
  obtain ⟨hworker, hhandlers, hborn, hfresh, hreceived⟩ := hcontrol
  refine h.of_agents hworker hhandlers hborn hfresh.ge hreceived (fun hm => ?_)
    (fun n t ht _ => ⟨?_, ?_⟩) fun x hx => Or.inl (mem_record hx)
  · rcases hm with hlast | hsaved
    · rcases c.record_last_cases k saves m r with heq | ⟨x, hk, hx, hdst, hr, -⟩
      · exact Or.inl (Or.inl (heq ▸ hlast))
      · exact Or.inr (hstored x hk hx hdst hr)
    · rcases c.record_savedLast_cases k saves m r with heq | ⟨x, hk, hx, hdst, hr, -⟩
      · exact Or.inl (Or.inr (heq ▸ hsaved))
      · exact Or.inr (hstored x hk hx hdst hr)
  · rw [(record_keeps ..).2.1] at ht
    exact Or.inl ht
  · rw [(record_keeps ..).2.2]
    exact fun s hs => Or.inl hs

theorem Backed.restart (h : Backed net m r c) (n : N) : Backed net m r (c.restart net n) := by
  refine h.of_agents rfl rfl rfl le_rfl rfl (fun hm => Or.inl ?_) (fun k t ht hsends => ⟨?_, ?_⟩)
    fun x hx => ?_
  · rw [Completed, restart_last, restart_savedLast] at hm
    split at hm
    · exact hm.elim Or.inr Or.inr
    · exact hm
  · refine Or.inl ((mem_restart ht).resolve_right ?_)
    rintro ⟨name, rfl⟩
    exact not_sendsTo rfl hsends
  · rw [restart_agents]
    split
    · rename_i hk
      subst hk
      rw [(c.agents k).restart_commanded.snapshots]
      exact fun s hs => Or.inl hs
    · exact fun s hs => Or.inl hs
  · obtain ⟨-, ⟨hx, -⟩ | hcut⟩ := mem_receives_restart hx
    · exact Or.inl hx
    · exact Or.inr (Or.inl hcut)

/-! ## The control plane -/

omit [DecidableEq N] in
/-- An agent that answers that it is ready has recorded a snapshot. -/
theorem completed_of_status
    (h : ControlPlane.isSuccess ((c.agents m).handleGetReplicaTarget r).status = true) :
    c.Completed m r := by
  refine Or.inl ?_
  rw [Agentd.handleGetReplicaTarget, ReplicaTargetRegistry.get] at h
  rw [last, ReplicaTargetRegistry.last]
  split at h
  · cases h
  · rename_i target htarget
    rw [htarget]
    split at h
    · cases h
    · rename_i hnone
      rwa [Option.bind_some, Option.isSome_iff_ne_none, ne_eq, ← Option.isNone_iff_eq_none]

variable [Ipnet]

/-- A forward that is answered 2xx for a replica target is answered so by
the agent. -/
theorem forward_readied {f : ControlPlane.Forward} (machine : Machine) (delivery : Delivery)
    {x : String × String} (h : f.readied? (c.forward net machine delivery f).1 = some x)
    (hm : (net.http x.1).map (·, x.2) = some (m, r)) : c.Completed m r := by
  obtain ⟨n, hn, hpair⟩ := Option.map_eq_some_iff.1 hm
  cases hpair
  rw [forward.eq_def] at h
  cases f with
  | mk addr method path body nodeId site =>
    cases hhttp : net.http addr with
    | none =>
      simp only [hhttp] at h
      cases h
    | some k =>
      cases delivery with
      | lost message =>
        simp only [hhttp] at h
        cases h
      | unanswered message =>
        simp only [hhttp] at h
        cases h
      | delivered =>
        simp only [hhttp, ControlPlane.Forward.readied?] at h
        split at h
        · rename_i name
          split at h
          · rename_i hsuccess
            cases h
            rw [hhttp] at hn
            cases hn
            exact completed_of_status hsuccess
          · cases h
        · cases h

omit [Ipnet] in
/-- **A placement that changes**, while nothing of the replica is under
way. -/
theorem Backed.moved (h : Backed net m r c) {worker : ControlPlane.Worker}
    {handlers : List (ControlPlane.Handler ControlPlane.Response)}
    (hnone : ¬ c.Completed m r) (hclear : ¬ c.UnderWay net m r)
    (hhandlers : ∀ p ∈ handlers, p ∈ c.handlers ∨
      (∃ last, ControlPlane.Handler.PromotesReady last p) ∧ promoting net p ≠ some (m, r)) :
    Backed net m r { c with worker, handlers, born := c.bornAfter worker } where
  born := by
    change c.bornAfter worker r ≤ c.fresh
    rw [bornAfter]
    split
    · exact le_rfl
    · exact h.born
  completed hm := absurd hm hnone
  sending n t ht hsends := absurd (Or.inl ⟨n, t, ht, hsends⟩) hclear
  receives x hx hdst hr hcut := absurd (Or.inr (Or.inl ⟨x, hx, hdst, hr, hcut⟩)) hclear
  handlers p hp := by
    rcases hhandlers p hp with hp | ⟨hready, hpromoting⟩
    · exact ⟨(h.handlers p hp).1, fun hpromoting =>
        absurd (Or.inr (Or.inr ⟨p, hp, hpromoting⟩)) hclear⟩
    · exact ⟨hready, fun h => absurd h hpromoting⟩

omit [DecidableEq N] [Ipnet] in
/-- After a command, no handler is about to promote. -/
theorem not_promoting {p : ControlPlane.Handler ControlPlane.Response}
    (h : ControlPlane.Handler.PromotesReady none p) : promoting net p ≠ some (m, r) := by
  intro hpromoting
  obtain ⟨x, hx, -⟩ := Option.bind_eq_some_iff.1 hpromoting
  cases p with
  | forward f k =>
    obtain ⟨y, hy, -⟩ := h.1 x hx
    cases hy
  | _ => cases hx

theorem Backed.advance (h : Backed net m r c) {i : ℕ} {o : ControlPlane.Choice}
    {machine : Machine} {delivery : Delivery}
    (hkeeps : c.KeepsReady net m r (.advance i o machine delivery)) :
    Backed net m r (c.advance net i o machine delivery) := by
  have hcommanded : Commanded c (c.advance net i o machine delivery) := commanded_advance ..
  cases hi : c.handlers[i]? with
  | none =>
    rw [Cluster.advance, hi]
    exact h
  | some p =>
    obtain ⟨last, hready⟩ := (h.handlers p (List.mem_of_getElem? hi)).1
    cases p with
    | ret response =>
      have heq : c.advance net i o machine delivery =
          { c with handlers := c.handlers.eraseIdx i } := by
        rw [Cluster.advance, hi]
      rw [heq] at hcommanded ⊢
      refine h.of_commanded hcommanded rfl rfl rfl rfl fun p hp => Or.inl ?_
      exact List.mem_of_mem_eraseIdx hp
    | command command k =>
      obtain ⟨reply, worker, hreply⟩ : ∃ reply worker,
          ControlPlane.Worker.handleCommand o.now o.order command c.worker = (reply, worker) :=
        ⟨_, _, rfl⟩
      have heq : c.advance net i o machine delivery =
          { c with
            worker
            handlers := c.handlers.set i (k reply)
            born := c.bornAfter worker } := by
        simp only [Cluster.advance, hi, hreply]
      have hhandlers : ∀ p ∈ c.handlers.set i (k reply), p ∈ c.handlers ∨
          (∃ last, ControlPlane.Handler.PromotesReady last p) ∧
            promoting net p ≠ some (m, r) := by
        intro p hp
        refine (List.mem_or_eq_of_mem_set hp).imp_right ?_
        rintro rfl
        exact ⟨⟨none, hready reply⟩, not_promoting (hready reply)⟩
      rw [KeepsReady, heq] at hkeeps
      rw [heq] at hcommanded ⊢
      by_cases hplaced : worker.placements.lookup r = c.worker.placements.lookup r
      · refine h.of_commanded hcommanded hplaced ?_ rfl rfl fun p hp => ?_
        · change c.bornAfter worker r = c.born r
          rw [bornAfter, hplaced]
          cases c.worker.placements.lookup r <;> rfl
        · exact (hhandlers p hp).imp_right (And.imp_right fun hne h => absurd h hne)
      · obtain ⟨hnone, hclear⟩ := hkeeps hplaced
        exact h.moved hnone hclear hhandlers
    | forward f k =>
      obtain ⟨answer, c', hanswer⟩ : ∃ answer c',
          c.forward net machine delivery f = (answer, c') := ⟨_, _, rfl⟩
      have heq : c.advance net i o machine delivery =
          { c' with handlers := c.handlers.set i (k answer) } := by
        simp only [Cluster.advance, hi, hanswer]
      have hcontrol := c.forward_control net machine delivery f
      rw [hanswer] at hcontrol
      obtain ⟨hworker, hreceived, hborn, hfresh⟩ := hcontrol
      rw [heq] at hcommanded ⊢
      refine h.of_commanded hcommanded ?_ (congrFun hborn r) hfresh hreceived fun p hp => ?_
      · exact congrArg (fun w => w.placements.lookup r) hworker
      refine (List.mem_or_eq_of_mem_set hp).imp_right ?_
      rintro rfl
      refine ⟨⟨_, hready.2 answer⟩, fun hpromoting => h.completed ?_⟩
      -- The order goes out on the answer that its agent is ready.
      obtain ⟨x, hx, hm⟩ := Option.bind_eq_some_iff.1 hpromoting
      have hafter := hready.2 answer
      cases hk : k answer with
      | ret =>
        rw [hk] at hx
        cases hx
      | command =>
        rw [hk] at hx
        cases hx
      | forward g k' =>
        rw [hk] at hx hafter
        obtain ⟨y, hy, hreadied⟩ := hafter.1 x hx
        cases hy
        have hforward : f.readied? (c.forward net machine delivery f).1 = some x := by
          rw [hanswer]
          exact hreadied
        exact forward_readied machine delivery hforward hm

/-! ## Every run -/

theorem Backed.step (h : Backed net m r c) (hlinked : Linked net c) {label : Label N}
    (hkeeps : c.KeepsReady net m r label) : Backed net m r (c.step net label) := by
  cases label with
  | serve request =>
    refine h.of_commanded ⟨fun _ => .refl, rfl, rfl⟩ rfl rfl rfl rfl fun p hp => ?_
    refine (List.mem_append.1 hp).imp_right fun hp => ?_
    obtain rfl := List.mem_singleton.1 hp
    have hready : ControlPlane.Handler.PromotesReady none request.handler :=
      ControlPlane.handler_follows request
    exact ⟨⟨none, hready⟩, fun hpromoting => absurd hpromoting (not_promoting hready)⟩
  | advance i o machine delivery => exact h.advance hkeeps
  | ask n machine request =>
    exact h.of_commanded (commanded_setAgent (.handle machine request _)) rfl rfl rfl rfl
      fun _ => Or.inl
  | timer n machine =>
    exact h.of_commanded (commanded_setAgent (.handleCommand machine .tick _)) rfl rfl rfl rfl
      fun _ => Or.inl
  | assign n podCidr =>
    exact h.of_commanded (commanded_assign n podCidr) rfl rfl rfl rfl fun _ => Or.inl
  | wake n i snapshots connects =>
    have hwake := h.wake n i snapshots connects hkeeps
    exact hwake.of_agents rfl rfl rfl (Nat.le_succ _) rfl Or.inl
      (fun _ _ ht _ => ⟨Or.inl ht, fun _ => Or.inl⟩) fun _ => Or.inl
  | exit n i =>
    rcases (c.agents n).exit_cases i with heq | ⟨loop, hi, heq⟩
    · rw [Cluster.step, heq, setAgent, Function.update_eq_self]
      exact h
    · rw [Cluster.step, heq]
      change Backed net m r (c.turn n i ⟨loop, .exited⟩ (c.agents n).zfs)
      exact h.turn (fun hsends => absurd hsends (not_sendsTo rfl)) fun _ _ => Or.inl
  | answer n i saves peerAddr => exact h.answer n i saves peerAddr
  | abandon n i => exact h.abandon n i
  | send n i sends arrives prunes => exact h.send hlinked n i sends arrives prunes
  | answerOrphan k saves peerAddr => exact h.answerOrphan k saves peerAddr
  | receive k works => exact h.receive hlinked hkeeps
  | record k saves => exact h.record k saves
  | restart n => exact h.restart n

omit [Ipnet] in
theorem Backed.ready (h : Backed net m r c) : c.Ready net m r :=
  fun hstatus => (h.completed (completed_of_status (by rw [hstatus]; rfl))).1

omit [Ipnet] in
theorem Backed.promotes (h : Backed net m r c) (label : Label N) :
    c.PromotesCurrent net m r label := by
  intro hpromotes
  cases label with
  | advance i o machine delivery =>
    obtain ⟨p, hp, hpromoting⟩ := Option.bind_eq_some_iff.1 hpromotes
    exact (h.handlers p (List.mem_of_getElem? hp)).2 hpromoting
  | _ => cases hpromotes

end Cluster

namespace Cluster.Sample

open ControlPlane.Sample (heartbeat service data)

/-- `db-0` is deleted, and created again, where it was. -/
def createdAgain : List (Label (Fin 4)) :=
  serve 2 (.deleteService "db") ++ serve 3 (service "db" 1 data)

/-- `b` is taken for dead, and a force-repin is asked for, up to the order
that promotes the standby. -/
def asked : List (Label (Fin 4)) :=
  serve 40 (heartbeat "c") ++ serve 40 (heartbeat "d") ++ (serve 41 (.forceRepin "db-0")).take 3

def order : Label (Fin 4) :=
  .advance 0 (ControlPlane.Sample.clock 41 200 0) Agent.Sample.machine .delivered

end Cluster.Sample

end Keel
