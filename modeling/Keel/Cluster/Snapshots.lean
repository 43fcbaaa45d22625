import Keel.Cluster.Helpers.Streams
/-!
# Names and snapshots

A standby goes by names: it says yes to a header whose base has the name
of the snapshot it last recorded. The names are `keel-repl-1`,
`keel-repl-2` and so on for every loop, counted from the loop's start. So
a loop that is pointed to a standby which recorded that name from another
loop is told to send on top of a snapshot the standby does not have
(`equally_named`).

Whether it can be so is settled by who sends to whom. In every run in
which an agent is pointed to a standby only while no other addresses it,
nothing is under way to it, and it has not recorded the name the agent's
loop stands on or is about to; in which an agent receives a replica only
while it addresses no standby of it itself; and in which a loop prunes
nothing that a header of its stands on, or, while its agent is still one
that others may send to, that its agent has recorded (`KeepsNames`), a
yes is about one and the same snapshot (`names_identify`).
-/

namespace Keel

open Agent

namespace Cluster

variable {N : Type} [DecidableEq N] (net : Net N)

/-- **Names stay apart**: standbys are new to the loops that are pointed
to them, senders receive nothing, and what is pruned no one goes by. -/
def KeepsNames [Ipnet] (c : Cluster N) (label : Label N) : Prop :=
  (∀ n, ∀ r ∈ ((c.step net label).agents n).reconciler.records.keys,
    ∀ m ∈ (c.step net label).pointsTo net n r, c.pointsTo net n r ≠ some m →
      c.Newcomer net n r m) ∧
  (∀ x ∈ c.stores label, ∀ m, ¬ c.Addresses net x.dst m x.header.replicaName) ∧
  ∀ x ∈ c.prunes label, c.Unused net x.1 x.2

/-- A yes to a header with a base: the receiver has under the base's name
the very snapshot the sender has. -/
def Identifies (c : Cluster N) (label : Label N) : Prop :=
  ∀ x ∈ c.acknowledged net label, x.2 = .proceed → ∀ name ∈ x.1.header.baseSnapshotId,
    ∃ s ∈ (c.agents x.1.src).stamp x.1.header.replicaName name,
      (c.agents x.1.dst).stamp x.1.header.replicaName name = some s

section Decidable

variable (c : Cluster N)

instance (label : Label N) : Decidable (c.Identifies net label) :=
  inferInstanceAs (Decidable (∀ _ ∈ _, _))

instance [Fintype N] [Ipnet] (label : Label N) : Decidable (c.KeepsNames net label) :=
  inferInstanceAs (Decidable (_ ∧ _))

end Decidable

/-! ## Every run -/

variable [Ipnet] {net} {c : Cluster N}

theorem forward_agents (c : Cluster N) (net : Net N) (m : Machine) (delivery : Delivery)
    (f : ControlPlane.Forward) : (c.forward net m delivery f).2.agents = c.agents ∨
      ∃ k a, (c.forward net m delivery f).2.agents = Function.update c.agents k a := by
  rw [forward.eq_def]
  rcases net.http f.addr with _ | n
  · exact Or.inl rfl
  · cases delivery with
    | lost message => exact Or.inl rfl
    | _ => exact Or.inr ⟨n, _, rfl⟩

theorem advance_agents (c : Cluster N) (net : Net N) (i : ℕ) (o : ControlPlane.Choice)
    (m : Machine) (delivery : Delivery) : (c.advance net i o m delivery).agents = c.agents ∨
      ∃ k a, (c.advance net i o m delivery).agents = Function.update c.agents k a := by
  rw [advance]
  split
  · exact Or.inl rfl
  · exact Or.inl rfl
  · exact Or.inl rfl
  · exact c.forward_agents net m delivery _

theorem Identified.step (h : Identified net c) (hlinked : Linked net c) {label : Label N}
    (hkeeps : c.KeepsNames net label) : Identified net (c.step net label) := by
  obtain ⟨hpoint, hstores, hprune⟩ := hkeeps
  have hpoints : ∀ n r m, (c.step net label).pointsTo net n r = some m →
      c.pointsTo net n r = some m ∨ c.Newcomer net n r m := by
    intro n r m hm
    by_cases hold : c.pointsTo net n r = some m
    · exact Or.inl hold
    · refine Or.inr (hpoint n r ?_ m hm hold)
      obtain ⟨addr, haddr, -⟩ := Option.bind_eq_some_iff.1 hm
      obtain ⟨record, hrecord, -⟩ := Option.bind_eq_some_iff.1 haddr
      exact AList.mem_keys.1 (AList.lookup_isSome.1 (Option.isSome_of_mem hrecord))
  cases label with
  | serve request => exact h.commanded ⟨fun _ => .refl, rfl, rfl⟩ (Or.inl rfl) hpoints
  | advance i o m delivery =>
    exact h.commanded (commanded_advance ..) (c.advance_agents net i o m delivery) hpoints
  | ask n m request =>
    exact h.commanded (commanded_setAgent (.handle m request _)) (Or.inr ⟨n, _, rfl⟩) hpoints
  | timer n m =>
    exact h.commanded (commanded_setAgent (.handleCommand m .tick _)) (Or.inr ⟨n, _, rfl⟩) hpoints
  | assign n podCidr => exact h.commanded (commanded_assign n podCidr) (Or.inr ⟨n, _, rfl⟩) hpoints
  | wake n i snapshots connects =>
    have hwake := h.wake n i snapshots connects
    exact hwake.of_receives rfl (fun _ => Or.inl) fun _ => Or.inl
  | exit n i =>
    rcases (c.agents n).exit_cases i with heq | ⟨loop, hi, heq⟩
    · rw [Cluster.step, heq, setAgent, Function.update_eq_self]
      exact h
    · rw [Cluster.step, heq]
      change Identified net (c.turn n i ⟨loop, .exited⟩ (c.agents n).zfs)
      refine h.turn hi rfl rfl (fun name hname => ?_) (by simp)
        (fun hgoes => absurd rfl hgoes.2) fun _ _ => id
      obtain ⟨k, hk, hle, -⟩ := (h.ticking n).earlier _ (List.mem_of_getElem? hi) name hname
      exact ⟨k, hk, hle, by simp⟩
  | answer n i saves peerAddr => exact h.answer n i saves peerAddr
  | abandon n i => exact h.abandon n i
  | send n i sends arrives prunes => exact h.send hlinked hprune
  | answerOrphan k saves peerAddr => exact h.answerOrphan k saves peerAddr
  | receive k works => exact h.receive hlinked hstores
  | record k saves => exact h.record k saves
  | restart n => exact h.restart n hpoints

omit [DecidableEq N] [Ipnet] in
/-- Names that identify do so when it comes to a yes. -/
theorem Identified.shared (h : Identified net c) {o : Orphan N} {name : String}
    (hheader : (∃ n, ∃ t ∈ (c.agents n).threads, Cluster.waiting net n t = some o) ∨
      o ∈ c.orphans) (hname : name ∈ o.header.baseSnapshotId)
    (hlast : c.last o.dst o.header.replicaName = some name) :
    c.Shared o.src o.dst o.header.replicaName name := by
  have hknows : c.Knows o.dst o.header.replicaName name := Or.inl (Or.inl hlast)
  rcases hheader with ⟨n, t, ht, hwaiting⟩ | horphan
  · exact (h.waiting ht hwaiting).2.2 name hname hknows
  · exact h.orphans o horphan name hname hknows

omit [Ipnet] in
theorem Identified.identifies (h : Identified net c) (label : Label N) :
    c.Identifies net label := by
  intro x hx hproceed name hname
  obtain ⟨hheader, arrival, saves, peerAddr, hack⟩ := mem_acknowledged hx
  rw [hproceed] at hack
  have hlast : c.last x.1.dst x.1.header.replicaName = some name :=
    (listen_proceed _ _ _ _ hack).symm.trans hname
  obtain ⟨s, hs, hkept, -⟩ := h.shared hheader hname hlast
  exact ⟨s, hs, hkept (Or.inl hlast)⟩

end Cluster

namespace Cluster.Sample

open ControlPlane.Sample (heartbeat service data)

/-- An operator has `db-0` replicated elsewhere. -/
def retarget (n : Fin 4) (addr : String) : Label (Fin 4) :=
  .ask n Agent.Sample.machine (.putReplicateTo "db-0" (some (.ok addr)))

/-- `db-0` is deleted, and created again when only `c` and `d` are alive:
on `c`, to be replicated to `d`. -/
def moved : List (Label (Fin 4)) :=
  serve 2 (.deleteService "db") ++ serve 20 (heartbeat "c") ++ serve 20 (heartbeat "d") ++
    serve 20 (service "db" 1 data)

end Cluster.Sample

end Keel
