import Keel.Common.Text
import Keel.Cluster.Primaries
/-!
# Names, and who goes by them

What the agents know of a replica by the names of its snapshots, and who
sends it to whom. The invariant (`Identified`): a standby and the loop
that sends to it mean the same snapshot by a name, unless the loop is
past the name or is at odds with the standby and stands on nothing it
knows. Here it is carried over every step that tells no agent a name
(`Identified.of_step`): the commands, the restarts, and the turns of a
loop up to its stream.
-/

namespace Keel

open Agent

namespace Cluster

variable {N : Type} (net : Net N) (c : Cluster N)

/-- An agent may yet send a replica to another, or has sent it something
the other is not done with. -/
def Addresses (n m : N) (r : String) : Prop :=
  c.pointsTo net n r = some m ∨
  (∃ t ∈ (c.agents n).threads, t.loop.replicaName = r ∧
    ∃ addr ∈ t.addr?, net.replication addr = some m) ∨
  (∃ o ∈ c.orphans, o.src = n ∧ o.dst = m ∧ o.header.replicaName = r) ∨
  ∃ x ∈ c.receives, x.src = n ∧ x.dst = m ∧ x.header.replicaName = r ∧ x.arrival ≠ .cut

/-- The agent has recorded a snapshot of the name, in memory or on disk,
or is about to. -/
def Keeps (m : N) (r name : String) : Prop :=
  c.last m r = some name ∨ c.savedLast m r = some name ∨
    ∃ x ∈ c.receives, x.dst = m ∧ x.header.replicaName = r ∧ x.header.snapshotId = name ∧
      x.arrival = .stored

/-- It has, or one of the name has come to it. -/
def Knows (m : N) (r name : String) : Prop :=
  c.Keeps m r name ∨ ∃ x ∈ c.receives, x.dst = m ∧ x.header.replicaName = r ∧
    x.header.snapshotId = name ∧ x.arrival.stream?.isSome = true

/-- **A standby new to a loop**: no other agent addresses it, nothing is
under way to it, and it has recorded neither what the loop stands on nor
what it is sending. -/
def Newcomer (n : N) (r : String) (m : N) : Prop :=
  (∀ n', n' ≠ n → ¬ c.Addresses net n' m r) ∧
  (∀ x ∈ c.receives, x.dst = m → x.header.replicaName = r → x.arrival = .cut) ∧
  ∀ t ∈ (c.agents n).threads, t.loop.replicaName = r → t.GoesOn →
    (∀ name ∈ t.loop.lastConfirmedSent, c.Differs m r (some name)) ∧
      (t.addr?.isSome = true → c.Differs m r (some (snapshotId t.loop.tick)))

/-- **No one gets through** to the agent: nothing is on its way to it, and
the loops of those that point to it are off. -/
def KeptOff (m : N) (r : String) : Prop :=
  c.Clear net m r ∧ ∀ n, c.pointsTo net n r = some m → c.Aside net n r m

/-- **No one goes by a loop's base**: no header it forgot stands on it,
and no one gets through to its agent if that knows a snapshot of the
name. -/
def Unused (n : N) (loop : ReplicationLoop) : Prop :=
  ∀ base ∈ loop.lastConfirmedSent,
    (∀ o ∈ c.orphans, o.src = n → o.header.replicaName = loop.replicaName →
      o.header.baseSnapshotId ≠ some base) ∧
    (c.Knows n loop.replicaName base → c.KeptOff net n loop.replicaName)

/-- The loop that a step lets prune its base, and its agent. -/
def prunes : Label N → Option (N × ReplicationLoop)
  | .send n i true _ true =>
    match (c.agents n).threads[i]? with
    | some ⟨loop, .sending _ (some .proceed)⟩ => some (n, loop)
    | _ => none
  | _ => none

end Cluster

namespace Cluster

variable {N : Type} [DecidableEq N] (net : Net N) (c : Cluster N)

section Decidable

instance (n m : N) (r : String) : Decidable (c.Addresses net n m r) :=
  inferInstanceAs (Decidable (_ ∨ _))

instance (m : N) (r name : String) : Decidable (c.Keeps m r name) :=
  inferInstanceAs (Decidable (_ ∨ _))

instance (m : N) (r name : String) : Decidable (c.Knows m r name) :=
  inferInstanceAs (Decidable (_ ∨ _))

variable [Fintype N]

instance (n : N) (r : String) (m : N) : Decidable (c.Newcomer net n r m) :=
  inferInstanceAs (Decidable (_ ∧ _))

instance (m : N) (r : String) : Decidable (c.KeptOff net m r) :=
  inferInstanceAs (Decidable (_ ∧ _))

instance (n : N) (loop : ReplicationLoop) : Decidable (c.Unused net n loop) :=
  inferInstanceAs (Decidable (∀ _ ∈ _, _))

end Decidable

end Cluster

/-! ## The loops of an agent -/

namespace Agent

/-- A replica's dataset is no other's. -/
theorem Listener.dataset_inj {l : Listener} {r r' : String} (h : l.dataset r = l.dataset r') :
    r = r' :=
  (String.append_left_inj _).1 ((String.append_right_inj _).1 h)

/-- The loops of an agent: one for a name, each on its replica's volume,
with a base of an earlier tick. -/
structure Agentd.Ticking (a : Agentd) : Prop extends a.Spawned where
  dataset : ∀ t ∈ a.threads, t.loop.dataset = a.listener.dataset t.loop.replicaName
  earlier : ∀ t ∈ a.threads, ∀ name ∈ t.loop.lastConfirmedSent, ∃ k, name = snapshotId k ∧
    k ≤ t.loop.tick ∧ (t.addr?.isSome = true → k < t.loop.tick)

namespace Agentd.Ticking

variable {a a' : Agentd}

theorem setListener (h : a.Ticking) (l : Listener) : (a.setListener l).Ticking :=
  ⟨⟨h.nodup, h.known⟩, h.dataset, h.earlier⟩

theorem commanded (h : a.Ticking) (hcommanded : Commanded a a') : a'.Ticking where
  toSpawned := hcommanded.spawned h.toSpawned
  dataset t ht := by
    rw [dataset_congr hcommanded.pool]
    rcases hcommanded.threads t ht with ht | ⟨name, rfl⟩
    · exact h.dataset t ht
    · rfl
  earlier t ht := by
    rcases hcommanded.threads t ht with ht | ⟨name, rfl⟩
    · exact h.earlier t ht
    · rintro _ ⟨⟩

theorem start (pool : String) (zfs : FakeZfsManager) (records : Table JailRecord)
    (targets : Table ReplicaTarget) : (Agentd.start pool zfs records targets).Ticking :=
  ⟨⟨List.nodup_nil, nofun⟩, nofun, nofun⟩

theorem setThread (h : a.Ticking) {i : ℕ} {t t' : Thread} (zfs : FakeZfsManager)
    (hi : a.threads[i]? = some t) (hname : t'.loop.replicaName = t.loop.replicaName)
    (hdataset : t'.loop.dataset = t.loop.dataset)
    (hearlier : ∀ name ∈ t'.loop.lastConfirmedSent, ∃ k, name = snapshotId k ∧
      k ≤ t'.loop.tick ∧ (t'.addr?.isSome = true → k < t'.loop.tick)) :
    ({ a with zfs }.setThread i t').Ticking where
  toSpawned := Spawned.setThread (a := { a with zfs }) ⟨h.nodup, h.known⟩ hi hname
  dataset x hx := by
    rcases List.mem_or_eq_of_mem_set hx with hx | rfl
    · exact h.dataset x hx
    · rw [hname, hdataset]
      exact h.dataset t (List.mem_of_getElem? hi)
  earlier x hx := by
    rcases List.mem_or_eq_of_mem_set hx with hx | rfl
    · exact h.earlier x hx
    · exact hearlier

end Agentd.Ticking

end Agent

/-! ## Names that identify -/

namespace Cluster

variable {N : Type}

/-- The sender has a snapshot of the name, and what the standby has of it,
or has come to it, is that one. -/
def Shared (c : Cluster N) (n m : N) (r name : String) : Prop :=
  ∃ s, (c.agents n).stamp r name = some s ∧
    (c.Keeps m r name → (c.agents m).stamp r name = some s) ∧
    ∀ x ∈ c.receives, x.dst = m → x.header.replicaName = r → x.header.snapshotId = name →
      ∀ stream, x.arrival = .arrived stream → stream.stamp = s

/-- The loop will not stand on the name any more. -/
def Past (t : Thread) (name : String) : Prop :=
  t.loop.lastConfirmedSent ≠ some name ∧ ∃ j, name = snapshotId j ∧ j ≤ t.loop.tick ∧
    (t.addr?.isSome = true → j < t.loop.tick)

/-- Of what the standby knows by a name, the sender has the same, or its
loop is past it. -/
def Agrees (c : Cluster N) (n m : N) (t : Thread) : Prop :=
  ∀ name, c.Knows m t.loop.replicaName name → Past t name ∨ c.Shared n m t.loop.replicaName name

/-- The standby is at another snapshot than the loop's base, which it does
not know. -/
def Off (c : Cluster N) (m : N) (t : Thread) : Prop :=
  t.loop.lastConfirmedSent ≠ c.last m t.loop.replicaName ∧
    ∀ name ∈ t.loop.lastConfirmedSent, ¬ c.Knows m t.loop.replicaName name

/-- How a loop stands, given where its record points: with that standby,
and with the one it is connected to. -/
structure Stands (net : Net N) (c : Cluster N) (aim : Option N) (n : N) (t : Thread) : Prop where
  aims : ∀ m ∈ aim, c.Agrees n m t ∨ c.Off m t ∧ c.last m t.loop.replicaName ≠ none
  elsewhere : ∀ m ∈ aim, ∀ addr ∈ t.addr?, net.replication addr ≠ some m →
    (∀ name ∈ t.loop.lastConfirmedSent, ¬ c.Knows m t.loop.replicaName name) ∧
      ¬ c.Knows m t.loop.replicaName (snapshotId t.loop.tick)
  waits : ∀ addr ∈ t.addr?, ∀ m ∈ net.replication addr, t.ack? = none →
    c.Agrees n m t ∨ c.Off m t
  told : ∀ addr ∈ t.addr?, ∀ m ∈ net.replication addr, t.ack? = some .proceed →
    c.Agrees n m t ∧ (c.last m t.loop.replicaName = none →
      ∀ name ∈ t.loop.lastConfirmedSent, ¬ c.Knows m t.loop.replicaName name)

/-- **The invariant.** -/
structure Identified (net : Net N) (c : Cluster N) : Prop where
  ticking : ∀ n, (c.agents n).Ticking
  memory : ∀ m r, c.last m r = none → c.savedLast m r = none
  sole : ∀ n n' m r, c.Addresses net n m r → c.Addresses net n' m r → n = n'
  first : ∀ n m r, c.pointsTo net n r = some m → c.last m r = none →
    ∀ name, c.Knows m r name → c.Shared n m r name
  stands : ∀ n, ∀ t ∈ (c.agents n).threads, t.GoesOn →
    Stands net c (c.pointsTo net n t.loop.replicaName) n t
  orphans : ∀ o ∈ c.orphans, ∀ name ∈ o.header.baseSnapshotId,
    c.Knows o.dst o.header.replicaName name → c.Shared o.src o.dst o.header.replicaName name

variable {net : Net N} {c c' : Cluster N}

/-! ## Knowing no more -/

/-- What a step leaves that tells no one a name. -/
structure Fades (net : Net N) (c c' : Cluster N) : Prop where
  knows : ∀ m r name, c'.Knows m r name → c.Knows m r name
  last : ∀ m r, c'.last m r = c.last m r ∨ (∃ name, c'.last m r = some name ∧ c.Knows m r name) ∨
    c'.last m r = none ∧ ∀ name, ¬ c'.Knows m r name
  shared : ∀ n m r name, c'.Addresses net n m r → c.Shared n m r name → c'.Shared n m r name

/-- Snapshots stay, and names are only forgotten. -/
theorem Fades.of_stamps (hkeeps : ∀ m r name, c'.Keeps m r name → c.Keeps m r name)
    (hreceives : ∀ x ∈ c'.receives, ∀ stream, x.arrival = .arrived stream → x ∈ c.receives)
    (hlast : ∀ m r, c'.last m r = c.last m r ∨
      (∃ name, c'.last m r = some name ∧ c.Knows m r name) ∨
      c'.last m r = none ∧ ∀ name, ¬ c'.Knows m r name)
    (hstamp : ∀ n r name s, (c.agents n).stamp r name = some s →
      (c'.agents n).stamp r name = some s) : Fades net c c' where
  knows m r name hm := by
    refine hm.imp (hkeeps m r name) ?_
    rintro ⟨x, hx, hdst, hr, hname, hcome⟩
    refine ⟨x, ?_, hdst, hr, hname, hcome⟩
    cases harrival : x.arrival with
    | arrived stream => exact hreceives x hx stream harrival
    | _ =>
      rw [harrival] at hcome
      cases hcome
  last := hlast
  shared n m r name _ := by
    rintro ⟨s, hs, hkept, hcome⟩
    refine ⟨s, hstamp n r name s hs, fun hm => ?_, fun x hx hdst hr hname stream hstream => ?_⟩
    · exact hstamp m r name s (hkept (hkeeps m r name hm))
    · exact hcome x (hreceives x hx stream hstream) hdst hr hname stream hstream

theorem Agrees.fades (h : Fades net c c') {n m : N} {t : Thread} (hagrees : c.Agrees n m t)
    (haddresses : c'.Addresses net n m t.loop.replicaName) : c'.Agrees n m t :=
  fun name hname => (hagrees name (h.knows m _ name hname)).imp_right
    (h.shared n m _ name haddresses)

/-- A standby that has forgotten everything agrees with anyone. -/
theorem Agrees.of_unknown {n m : N} {t : Thread}
    (h : ∀ name, ¬ c.Knows m t.loop.replicaName name) : c.Agrees n m t :=
  fun name hname => absurd hname (h name)

theorem Off.fades (h : Fades net c c') {n m : N} {t : Thread} (hoff : c.Off m t) :
    c'.Agrees n m t ∨ c'.Off m t ∧
      (c.last m t.loop.replicaName ≠ none → c'.last m t.loop.replicaName ≠ none) := by
  have hbase : ∀ name ∈ t.loop.lastConfirmedSent, ¬ c'.Knows m t.loop.replicaName name :=
    fun name hname hknows => hoff.2 name hname (h.knows m _ name hknows)
  rcases h.last m t.loop.replicaName with heq | ⟨name, heq, hknows⟩ | ⟨-, hnone⟩
  · rw [heq]
    exact Or.inr ⟨⟨heq ▸ hoff.1, hbase⟩, id⟩
  · refine Or.inr ⟨⟨fun hlast => ?_, hbase⟩, fun _ => heq ▸ nofun⟩
    exact hoff.2 name (hlast.trans heq) hknows
  · exact Or.inl (.of_unknown hnone)

theorem Stands.fades (h : Fades net c c') {aim : Option N} {n : N} {t : Thread}
    (hstands : Stands net c aim n t)
    (haim : ∀ m ∈ aim, c'.Addresses net n m t.loop.replicaName)
    (haddr : ∀ addr ∈ t.addr?, ∀ m ∈ net.replication addr,
      c'.Addresses net n m t.loop.replicaName) : Stands net c' aim n t where
  aims m hm := by
    rcases hstands.aims m hm with hagrees | ⟨hoff, hlast⟩
    · exact Or.inl (hagrees.fades h (haim m hm))
    · exact hoff.fades h |>.imp_right fun hoff => ⟨hoff.1, hoff.2 hlast⟩
  elsewhere m hm addr ha hne := by
    obtain ⟨hbase, htick⟩ := hstands.elsewhere m hm addr ha hne
    exact ⟨fun name hname hknows => hbase name hname (h.knows m _ name hknows),
      fun hknows => htick (h.knows m _ _ hknows)⟩
  waits addr ha m hm hack := by
    rcases hstands.waits addr ha m hm hack with hagrees | hoff
    · exact Or.inl (hagrees.fades h (haddr addr ha m hm))
    · exact hoff.fades h |>.imp_right And.left
  told addr ha m hm hack := by
    obtain ⟨hagrees, hnone⟩ := hstands.told addr ha m hm hack
    refine ⟨hagrees.fades h (haddr addr ha m hm), fun hlast name hname hknows => ?_⟩
    rcases h.last m t.loop.replicaName with heq | ⟨name', heq, -⟩ | ⟨-, hunknown⟩
    · exact hnone (heq ▸ hlast) name hname (h.knows m _ name hknows)
    · exact absurd (heq.symm.trans hlast) nofun
    · exact hunknown name hknows

/-! ## A new standby -/

/-- What an agent with nothing under way knows it has recorded. -/
theorem Knows.of_clear {m : N} {r name : String} (h : c.Knows m r name)
    (hclear : ∀ x ∈ c.receives, x.dst = m → x.header.replicaName = r → x.arrival = .cut) :
    c.last m r = some name ∨ c.savedLast m r = some name := by
  rcases h with (hlast | hsaved | ⟨x, hx, hdst, hr, -, harrival⟩) | ⟨x, hx, hdst, hr, -, harrival⟩
  · exact Or.inl hlast
  · exact Or.inr hsaved
  · exact absurd ((hclear x hx hdst hr).symm.trans harrival) nofun
  · rw [hclear x hx hdst hr] at harrival
    cases harrival

theorem Differs.not_knows {m : N} {r name : String} (h : c.Differs m r (some name))
    (hclear : ∀ x ∈ c.receives, x.dst = m → x.header.replicaName = r → x.arrival = .cut) :
    ¬ c.Knows m r name :=
  fun hknows => (hknows.of_clear hclear).elim (fun hlast => h.1 hlast.symm)
    fun hsaved => h.2 hsaved.symm

theorem Newcomer.unknown (h : Identified net c) {n m : N} {r : String}
    (hnew : c.Newcomer net n r m) (hlast : c.last m r = none) (name : String) :
    ¬ c.Knows m r name := by
  intro hknows
  rcases hknows.of_clear hnew.2.1 with heq | heq
  · exact absurd (hlast.symm.trans heq) nofun
  · exact absurd ((h.memory m r hlast).symm.trans heq) nofun

/-- A loop may be pointed to a standby that is new to it. -/
theorem Stands.retarget (h : Identified net c) {aim aim' : Option N} {n : N} {t : Thread}
    (hstands : Stands net c aim n t) (ht : t ∈ (c.agents n).threads) (hgoes : t.GoesOn)
    (haim : ∀ m ∈ aim', m ∈ aim ∨ c.Newcomer net n t.loop.replicaName m) :
    Stands net c aim' n t where
  aims m hm := by
    rcases haim m hm with hm | hnew
    · exact hstands.aims m hm
    by_cases hlast : c.last m t.loop.replicaName = none
    · exact Or.inl (.of_unknown (hnew.unknown h hlast))
    · have hbase := (hnew.2.2 t ht rfl hgoes).1
      refine Or.inr ⟨⟨fun heq => ?_, fun name hname => (hbase name hname).not_knows hnew.2.1⟩,
        hlast⟩
      obtain ⟨name, hname⟩ := Option.ne_none_iff_exists'.1 hlast
      exact (hbase name (heq.trans hname)).1 hname.symm
  elsewhere m hm addr ha hne := by
    rcases haim m hm with hm | hnew
    · exact hstands.elsewhere m hm addr ha hne
    · obtain ⟨hbase, htick⟩ := hnew.2.2 t ht rfl hgoes
      exact ⟨fun name hname => (hbase name hname).not_knows hnew.2.1,
        (htick (Option.isSome_of_mem ha)).not_knows hnew.2.1⟩
  waits := hstands.waits
  told := hstands.told

/-- A loop that is connected to no one. -/
theorem Stands.idle {aim : Option N} {n : N} {t : Thread} (ht : t.addr? = none)
    (haims : ∀ m ∈ aim, c.Agrees n m t ∨ c.Off m t ∧ c.last m t.loop.replicaName ≠ none) :
    Stands net c aim n t where
  aims := haims
  elsewhere := by simp [ht]
  waits := by simp [ht]
  told := by simp [ht]

/-- A loop just spawned stands on nothing. -/
theorem Stands.spawned {aim : Option N} {n : N} {pool name : String}
    (hfirst : ∀ m ∈ aim, c.last m name = none →
      ∀ name', c.Knows m name name' → c.Shared n m name name') :
    Stands net c aim n (.spawned pool name) := by
  refine .idle rfl fun m hm => ?_
  by_cases hlast : c.last m name = none
  · exact Or.inl fun name' hname' => Or.inr (hfirst m hm hlast name' hname')
  · exact Or.inr ⟨⟨Ne.symm hlast, nofun⟩, hlast⟩

/-! ## A step that tells no one a name -/

/-- **What a step has to see to**, if it tells no one a name. -/
theorem Identified.of_step (h : Identified net c) (hfades : Fades net c c')
    (hticking : ∀ n, (c'.agents n).Ticking)
    (hmemory : ∀ m r, c'.last m r = none → c'.savedLast m r = none)
    (hpoints : ∀ n r m, c'.pointsTo net n r = some m →
      c.pointsTo net n r = some m ∨ c.Newcomer net n r m)
    (hone : ∀ n n' r, c'.pointsTo net n r ≠ c.pointsTo net n r →
      c'.pointsTo net n' r ≠ c.pointsTo net n' r → n = n')
    (haddresses : ∀ n m r, c'.Addresses net n m r →
      c.Addresses net n m r ∨ c'.pointsTo net n r = some m)
    (hthreads : ∀ n, ∀ t ∈ (c'.agents n).threads, t.GoesOn → t ∈ (c.agents n).threads ∨
      Stands net c (c'.pointsTo net n t.loop.replicaName) n t)
    (horphans : ∀ o ∈ c'.orphans, o ∈ c.orphans ∨ ∀ name ∈ o.header.baseSnapshotId,
      c.Knows o.dst o.header.replicaName name →
        c.Shared o.src o.dst o.header.replicaName name) : Identified net c' where
  ticking := hticking
  memory := hmemory
  sole n n' m r hn hn' := by
    -- One that addresses the standby from this step on is the only one.
    have hsole : ∀ {k k'}, c'.Addresses net k m r → c'.Addresses net k' m r →
        ¬ c.Addresses net k m r → k = k' := by
      intro k k' hk hk' hnot
      have hpoint := (haddresses k m r hk).resolve_left hnot
      have hnew := (hpoints k r m hpoint).resolve_left fun hold => hnot (Or.inl hold)
      by_contra hne
      have hnot' := hnew.1 k' (Ne.symm hne)
      have hpoint' := (haddresses k' m r hk').resolve_left hnot'
      exact hne (hone k k' r (fun heq => hnot (Or.inl (heq ▸ hpoint)))
        fun heq => hnot' (Or.inl (heq ▸ hpoint')))
    by_cases hold : c.Addresses net n m r
    · by_cases hold' : c.Addresses net n' m r
      · exact h.sole n n' m r hold hold'
      · exact (hsole hn' hn hold').symm
    · exact hsole hn hn' hold
  first n m r hpoint hlast name hname := by
    refine hfades.shared n m r name (Or.inl hpoint) ?_
    rcases hfades.last m r with heq | ⟨name', heq, -⟩ | ⟨-, hnone⟩
    · rcases hpoints n r m hpoint with hold | hnew
      · exact h.first n m r hold (heq ▸ hlast) name (hfades.knows m r name hname)
      · exact absurd (hfades.knows m r name hname) (hnew.unknown h (heq ▸ hlast) name)
    · exact absurd (heq.symm.trans hlast) nofun
    · exact absurd hname (hnone name)
  stands n t ht hgoes := by
    have hstands : Stands net c (c'.pointsTo net n t.loop.replicaName) n t := by
      rcases hthreads n t ht hgoes with hold | hstands
      · exact (h.stands n t hold hgoes).retarget h hold hgoes fun m hm => hpoints n _ m hm
      · exact hstands
    exact hstands.fades hfades (fun m hm => Or.inl hm)
      fun addr ha m hm => Or.inr (Or.inl ⟨t, ht, rfl, addr, ha, hm⟩)
  orphans o ho name hname hknows := by
    refine hfades.shared _ _ _ name (Or.inr (Or.inr (Or.inl ⟨o, ho, rfl, rfl, rfl⟩))) ?_
    have hknows := hfades.knows _ _ name hknows
    rcases horphans o ho with hold | hshared
    · exact h.orphans o hold name hname hknows
    · exact hshared name hname hknows

/-- One that leaves the records alone. -/
theorem Identified.of_loops (h : Identified net c) (hfades : Fades net c c')
    (hticking : ∀ n, (c'.agents n).Ticking)
    (hmemory : ∀ m r, c'.last m r = none → c'.savedLast m r = none)
    (hrecords : ∀ n, (c'.agents n).reconciler = (c.agents n).reconciler)
    (haddresses : ∀ n m r, c'.Addresses net n m r → c.Addresses net n m r)
    (hthreads : ∀ n, ∀ t ∈ (c'.agents n).threads, t.GoesOn → t ∈ (c.agents n).threads ∨
      Stands net c (c.pointsTo net n t.loop.replicaName) n t)
    (horphans : ∀ o ∈ c'.orphans, o ∈ c.orphans ∨ ∀ name ∈ o.header.baseSnapshotId,
      c.Knows o.dst o.header.replicaName name →
        c.Shared o.src o.dst o.header.replicaName name) : Identified net c' := by
  have hpoints : ∀ n r, c'.pointsTo net n r = c.pointsTo net n r := by
    intro n r
    rw [pointsTo, hrecords, pointsTo]
  refine h.of_step hfades hticking hmemory (fun n r m hm => Or.inl (hpoints n r ▸ hm))
    (fun n _ r hne => absurd (hpoints n r) hne) (fun n m r hn => Or.inl (haddresses n m r hn))
    (fun n t ht hgoes => ?_) horphans
  rw [hpoints]
  exact hthreads n t ht hgoes

/-! ## Who sends to whom -/

theorem Addresses.thread {n m : N} {t : Thread} {addr : String} (ht : t ∈ (c.agents n).threads)
    (haddr : t.addr? = some addr) (hm : net.replication addr = some m) :
    c.Addresses net n m t.loop.replicaName :=
  Or.inr (Or.inl ⟨t, ht, rfl, addr, haddr, hm⟩)

theorem Addresses.orphan {o : Orphan N} (ho : o ∈ c.orphans) :
    c.Addresses net o.src o.dst o.header.replicaName :=
  Or.inr (Or.inr (Or.inl ⟨o, ho, rfl, rfl, rfl⟩))

theorem Addresses.receive {x : Receive N} (hx : x ∈ c.receives) (hcut : x.arrival ≠ .cut) :
    c.Addresses net x.src x.dst x.header.replicaName :=
  Or.inr (Or.inr (Or.inr ⟨x, hx, rfl, rfl, rfl, hcut⟩))

/-- An agent comes to address another by a record, if everything else it
may send was on its way. -/
theorem Addresses.of_step {n m : N} {r : String} (h : c'.Addresses net n m r)
    (hthreads : ∀ t ∈ (c'.agents n).threads, ∀ addr ∈ t.addr?, ∀ m ∈ net.replication addr,
      c.Addresses net n m t.loop.replicaName)
    (horphans : ∀ o ∈ c'.orphans, c.Addresses net o.src o.dst o.header.replicaName)
    (hreceives : ∀ x ∈ c'.receives, x.arrival ≠ .cut →
      c.Addresses net x.src x.dst x.header.replicaName) :
    c.Addresses net n m r ∨ c'.pointsTo net n r = some m := by
  rcases h with hpoint | ⟨t, ht, rfl, addr, haddr, hm⟩ | ⟨o, ho, rfl, rfl, rfl⟩ |
    ⟨x, hx, rfl, rfl, rfl, hcut⟩
  · exact Or.inr hpoint
  · exact Or.inl (hthreads t ht addr haddr m hm)
  · exact Or.inl (horphans o ho)
  · exact Or.inl (hreceives x hx hcut)

/-- A waiting loop's header is of what it and its standby share. -/
theorem Identified.waiting (h : Identified net c) {n : N} {t : Thread} {o : Orphan N}
    (ht : t ∈ (c.agents n).threads) (ho : waiting net n t = some o) :
    c.Addresses net o.src o.dst o.header.replicaName ∧
      (c.Agrees o.src o.dst t ∨ c.Off o.dst t) ∧ ∀ name ∈ o.header.baseSnapshotId,
        c.Knows o.dst o.header.replicaName name →
          c.Shared o.src o.dst o.header.replicaName name := by
  obtain ⟨addr, hphase, hdst, heq⟩ := mem_waiting ho
  have haddr : t.addr? = some addr := by rw [Thread.addr?, hphase]
  have hack : t.ack? = none := by rw [Thread.ack?, hphase]
  have hgoes : t.GoesOn := by
    simp [Thread.GoesOn, hphase]
  have hwaits := (h.stands n t ht hgoes).waits addr haddr o.dst hdst hack
  rw [heq]
  refine ⟨.thread ht haddr hdst, hwaits, fun name hname hknows => ?_⟩
  rcases hwaits with hagrees | hoff
  · exact (hagrees name hknows).resolve_left fun hpast => hpast.1 hname
  · exact absurd hknows (hoff.2 name hname)

/-! ## Commands and restarts -/

variable [DecidableEq N]

/-- A step that changes one agent changes where one points. -/
theorem pointsTo_one {n n' : N} {r : String}
    (h : c'.agents = c.agents ∨ ∃ k a, c'.agents = Function.update c.agents k a)
    (hn : c'.pointsTo net n r ≠ c.pointsTo net n r)
    (hn' : c'.pointsTo net n' r ≠ c.pointsTo net n' r) : n = n' := by
  rcases h with heq | ⟨k, a, heq⟩
  · exact absurd (by rw [pointsTo, heq, pointsTo]) hn
  · have hone : ∀ j, c'.pointsTo net j r ≠ c.pointsTo net j r → j = k := by
      intro j hj
      by_contra hne
      exact hj (by rw [pointsTo, heq, Function.update_of_ne hne, pointsTo])
    exact (hone n hn).trans (hone n' hn').symm

theorem Identified.commanded (h : Identified net c) (hcommanded : Commanded c c')
    (hone : c'.agents = c.agents ∨ ∃ k a, c'.agents = Function.update c.agents k a)
    (hpoints : ∀ n r m, c'.pointsTo net n r = some m →
      c.pointsTo net n r = some m ∨ c.Newcomer net n r m) : Identified net c' := by
  have htargets : ∀ m r, c'.last m r = c.last m r ∧ c'.savedLast m r = c.savedLast m r := by
    intro m r
    rw [last, savedLast, (hcommanded.agents m).targets]
    exact ⟨rfl, rfl⟩
  have hfades : Fades net c c' := by
    refine .of_stamps (fun m r name hm => ?_) (fun x hx _ _ => hcommanded.receives ▸ hx)
      (fun m r => Or.inl (htargets m r).1) fun n r name s hs => ?_
    · rwa [Keeps, (htargets m r).1, (htargets m r).2, hcommanded.receives] at hm
    · rwa [Agentd.stamp_congr (hcommanded.agents n).pool (hcommanded.agents n).snapshots]
  refine h.of_step hfades (fun n => (h.ticking n).commanded (hcommanded.agents n))
    (fun m r => ?_) hpoints (fun n n' r => pointsTo_one hone) (fun n m r hn => ?_)
    (fun n t ht _ => ?_) fun o ho => Or.inl (hcommanded.orphans ▸ ho)
  · rw [(htargets m r).1, (htargets m r).2]
    exact h.memory m r
  · refine hn.of_step (fun t ht addr haddr m hm => ?_) (fun o ho => ?_) fun x hx hcut => ?_
    · rcases (hcommanded.agents n).threads t ht with ht | ⟨name, rfl⟩
      · exact .thread ht haddr hm
      · cases haddr
    · exact .orphan (hcommanded.orphans ▸ ho)
    · exact .receive (hcommanded.receives ▸ hx) hcut
  · refine ((hcommanded.agents n).threads t ht).imp_right ?_
    rintro ⟨name, rfl⟩
    refine .spawned fun m hm hlast name' hname' => ?_
    rcases hpoints n _ m hm with hold | hnew
    · exact h.first n m _ hold hlast name' hname'
    · exact absurd hname' (hnew.unknown h hlast name')

theorem Identified.restart (h : Identified net c) (n : N)
    (hpoints : ∀ k r m, (c.restart net n).pointsTo net k r = some m →
      c.pointsTo net k r = some m ∨ c.Newcomer net k r m) : Identified net (c.restart net n) := by
  -- A restarted agent has what was on its disk, and nothing to receive.
  have hkeeps : ∀ m r name, (c.restart net n).Keeps m r name → c.Keeps m r name := by
    rintro m r name (hlast | hsaved | ⟨x, hx, hdst, hr, hname, harrival⟩)
    · rw [restart_last] at hlast
      split at hlast
      · exact Or.inr (Or.inl hlast)
      · exact Or.inl hlast
    · rw [restart_savedLast] at hsaved
      exact Or.inr (Or.inl hsaved)
    · obtain ⟨-, ⟨hx, -⟩ | hcut⟩ := mem_receives_restart hx
      · exact Or.inr (Or.inr ⟨x, hx, hdst, hr, hname, harrival⟩)
      · exact absurd (hcut.symm.trans harrival) nofun
  have hreceives : ∀ x ∈ (c.restart net n).receives, x.arrival ≠ .cut → x ∈ c.receives := by
    intro x hx hcut
    exact ((mem_receives_restart hx).2.resolve_right hcut).1
  have hlast : ∀ m r, (c.restart net n).last m r = c.last m r ∨
      (∃ name, (c.restart net n).last m r = some name ∧ c.Knows m r name) ∨
      (c.restart net n).last m r = none ∧ ∀ name, ¬ (c.restart net n).Knows m r name := by
    intro m r
    rw [restart_last]
    split
    · rename_i hm
      cases hsaved : c.savedLast m r with
      | some name => exact Or.inr (Or.inl ⟨name, rfl, Or.inl (Or.inr (Or.inl hsaved))⟩)
      | none =>
        refine Or.inr (Or.inr ⟨rfl, fun name hknows => ?_⟩)
        have hnothing : ∀ x ∈ (c.restart net n).receives, x.dst = m → x.header.replicaName = r →
            x.arrival = .cut := fun x hx hdst _ =>
          absurd (hdst.trans hm) (mem_receives_restart hx).1
        rcases hknows.of_clear hnothing with heq | heq
        · rw [restart_last, if_pos hm, hsaved] at heq
          cases heq
        · rw [restart_savedLast, hsaved] at heq
          cases heq
    · exact Or.inl rfl
  have hfades : Fades net c (c.restart net n) := by
    refine .of_stamps hkeeps (fun x hx stream hstream => ?_) hlast fun k r name s hs => ?_
    · exact hreceives x hx (hstream ▸ nofun)
    · rwa [restart_stamp]
  refine h.of_step hfades (fun m => ?_) (fun m r => ?_) hpoints
    (fun k k' r => pointsTo_one (Or.inr ⟨n, _, rfl⟩)) (fun k m r hk => ?_) (fun k t ht _ => ?_)
    fun o ho => ?_
  · rw [restart_agents]
    split
    · exact (Agentd.Ticking.start ..).commanded (c.agents n).restart_commanded
    · exact h.ticking m
  · rw [restart_last, restart_savedLast]
    split
    · exact id
    · exact h.memory m r
  · refine hk.of_step (fun t ht addr haddr m hm => ?_) (fun o ho => ?_) fun x hx hcut => ?_
    · rcases mem_restart ht with ht | ⟨name, rfl⟩
      · exact .thread ht haddr hm
      · cases haddr
    · rcases mem_orphans_restart ho with ho | ⟨t, ht, hwaiting⟩
      · exact .orphan ho
      · exact (h.waiting ht hwaiting).1
    · exact .receive (hreceives x hx hcut) hcut
  · refine (mem_restart ht).imp_right ?_
    rintro ⟨name, rfl⟩
    refine .spawned fun m hm hlast name' hname' => ?_
    rcases hpoints k _ m hm with hold | hnew
    · exact h.first k m _ hold hlast name' hname'
    · exact absurd hname' (hnew.unknown h hlast name')
  · refine (mem_orphans_restart ho).imp_right ?_
    rintro ⟨t, ht, hwaiting⟩
    exact (h.waiting ht hwaiting).2.2

/-! ## The turns of a loop -/

/-- An answer tells no one a name: nothing has come yet. -/
theorem Identified.listen (h : Identified net c) (o : Orphan N) (arrival : Arrival) (saves : Bool)
    (peerAddr : String) (hcome : arrival.stream? = none) (hstored : arrival ≠ .stored)
    (haddresses : arrival ≠ .cut → c.Addresses net o.src o.dst o.header.replicaName) :
    Identified net (c.listen o arrival saves peerAddr).2 := by
  have hfades : Fades net c (c.listen o arrival saves peerAddr).2 := by
    refine .of_stamps (fun m r name hm => ?_) (fun x hx stream hstream => ?_)
      (fun m r => Or.inl (listen_last ..)) fun n r name s hs => ?_
    · rcases hm with hlast | hsaved | ⟨x, hx, hdst, hr, hname, harrival⟩
      · rw [listen_last] at hlast
        exact Or.inl hlast
      · rw [listen_savedLast] at hsaved
        split at hsaved
        · exact Or.inl hsaved
        · exact Or.inr (Or.inl hsaved)
      · rcases mem_listen _ _ _ _ hx with hx | ⟨rfl, -⟩
        · exact Or.inr (Or.inr ⟨x, hx, hdst, hr, hname, harrival⟩)
        · exact absurd harrival hstored
    · rcases mem_listen _ _ _ _ hx with hx | ⟨rfl, -⟩
      · exact hx
      · change arrival = .arrived stream at hstream
        rw [hstream] at hcome
        cases hcome
    · rwa [listen_stamp]
  refine h.of_loops hfades (fun n => ?_) (fun m r => ?_) (fun n => listen_reconciler ..)
    (fun n m r hn => ?_) (fun n t ht _ => Or.inl ?_) fun o' ho => Or.inl ?_
  · rw [listen_agents]
    split
    · exact (h.ticking o.dst).setListener _
    · exact h.ticking n
  · rw [listen_last, listen_savedLast]
    split
    · exact id
    · exact h.memory m r
  · refine (hn.of_step (fun t ht addr haddr m hm => ?_) (fun o' ho => ?_)
      fun x hx hcut => ?_).elim id fun hpoint => Or.inl ?_
    · rw [listen_threads] at ht
      exact .thread ht haddr hm
    · rw [listen_orphans] at ho
      exact .orphan ho
    · rcases mem_listen _ _ _ _ hx with hx | ⟨rfl, -⟩
      · exact .receive hx hcut
      · exact haddresses hcut
    · rwa [pointsTo, listen_reconciler] at hpoint
  · rwa [listen_threads] at ht
  · rwa [listen_orphans] at ho

/-- A turn of a loop that loses no snapshot. -/
theorem Identified.turn (h : Identified net c) {n : N} {i : ℕ} {t t' : Thread}
    {zfs : FakeZfsManager}
    (hi : (c.agents n).threads[i]? = some t) (hname : t'.loop.replicaName = t.loop.replicaName)
    (hdataset : t'.loop.dataset = t.loop.dataset)
    (hearlier : ∀ name ∈ t'.loop.lastConfirmedSent, ∃ k, name = snapshotId k ∧
      k ≤ t'.loop.tick ∧ (t'.addr?.isSome = true → k < t'.loop.tick))
    (haddr : ∀ addr ∈ t'.addr?, ∀ m ∈ net.replication addr,
      c.Addresses net n m t'.loop.replicaName)
    (hstands : t'.GoesOn → Stands net c (c.pointsTo net n t'.loop.replicaName) n t')
    (hzfs : ∀ k s, (c.agents n).zfs.snapshots.lookup k = some s → zfs.snapshots.lookup k = some s) :
    Identified net (c.turn n i t' zfs) := by
  have htargets : ∀ m r, (c.turn n i t' zfs).last m r = c.last m r ∧
      (c.turn n i t' zfs).savedLast m r = c.savedLast m r := by
    intro m r
    rw [last, savedLast, turn_targets]
    exact ⟨rfl, rfl⟩
  have hfades : Fades net c (c.turn n i t' zfs) := by
    refine .of_stamps (fun m r name hm => ?_) (fun x hx _ _ => hx)
      (fun m r => Or.inl (htargets m r).1) fun m r name s hs => ?_
    · rwa [Keeps, (htargets m r).1, (htargets m r).2] at hm
    · rw [turn_stamp]
      split
      · rename_i hm
        subst hm
        rw [Agentd.stamp_eq] at hs
        exact hzfs _ s hs
      · exact hs
  refine h.of_loops hfades (fun m => ?_) (fun m r => ?_) (fun m => turn_reconciler ..)
    (fun k m r hk => ?_) (fun m x hx hgoes => ?_) fun _ => Or.inl
  · rw [Cluster.turn, agents_setAgent]
    split
    · exact (h.ticking n).setThread zfs hi hname hdataset hearlier
    · exact h.ticking m
  · rw [(htargets m r).1, (htargets m r).2]
    exact h.memory m r
  · refine (hk.of_step (c := c) (fun x hx addr hxaddr m hm => ?_)
      (fun o (ho : o ∈ c.orphans) => .orphan ho)
      fun x (hx : x ∈ c.receives) => .receive hx).elim id fun hpoint => Or.inl ?_
    · rcases mem_turn n k i t' zfs hx with hx | ⟨rfl, rfl⟩
      · exact .thread hx hxaddr hm
      · exact haddr addr hxaddr m hm
    · rwa [pointsTo, turn_reconciler] at hpoint
  · refine (mem_turn n m i t' zfs hx).imp_right ?_
    rintro ⟨rfl, rfl⟩
    exact hstands hgoes

section Turns

variable {aim : Option N} {n : N} {loop : ReplicationLoop} {phase : ThreadPhase}

omit [DecidableEq N] in
/-- A loop that is past a name stays past it while its base stays or goes. -/
theorem Past.weaken {t t' : Thread} {name : String} (h : Past t name)
    (hbase : t'.loop.lastConfirmedSent = t.loop.lastConfirmedSent ∨
      t'.loop.lastConfirmedSent = none)
    (htick : ∀ k, k ≤ t.loop.tick → (t.addr?.isSome = true → k < t.loop.tick) →
      k ≤ t'.loop.tick ∧ (t'.addr?.isSome = true → k < t'.loop.tick)) : Past t' name := by
  obtain ⟨hne, j, hj, hle, hlt⟩ := h
  refine ⟨?_, j, hj, htick j hle hlt⟩
  rcases hbase with heq | heq
  · rwa [heq]
  · rw [heq]
    exact nofun

omit [DecidableEq N] in
/-- A loop that is done with a tick, its base as it was. -/
theorem Stands.sleep (h : Stands net c aim n ⟨loop, phase⟩) :
    Stands net c aim n ⟨loop, .sleeping⟩ := by
  refine .idle rfl fun m hm => (h.aims m hm).imp_left fun hagrees name hname => ?_
  exact (hagrees name hname).imp_left fun hpast =>
    hpast.weaken (Or.inl rfl) fun _ hle _ => ⟨hle, by simp⟩

omit [DecidableEq N] in
/-- Or dropped. -/
theorem Stands.drop (h : Stands net c aim n ⟨loop, phase⟩) :
    Stands net c aim n ⟨{ loop with lastConfirmedSent := none }, .sleeping⟩ := by
  refine .idle rfl fun m hm => ?_
  refine (h.aims m hm).imp (fun hagrees name hname => ?_) fun hoff =>
    ⟨⟨Ne.symm hoff.2, by simp⟩, hoff.2⟩
  exact (hagrees name hname).imp_left fun hpast =>
    hpast.weaken (Or.inr rfl) fun _ hle _ => ⟨hle, by simp⟩

end Turns

theorem Identified.sleep (h : Identified net c) {n : N} {i : ℕ} {loop : ReplicationLoop}
    {addr : String} {ack : Option Ack}
    (hi : (c.agents n).threads[i]? = some ⟨loop, .sending addr ack⟩) :
    Identified net (c.turn n i ⟨loop, .sleeping⟩ (c.agents n).zfs) := by
  have ht := List.mem_of_getElem? hi
  refine h.turn hi rfl rfl (fun name hname => ?_) (by simp)
    (fun _ => (h.stands n _ ht .sending).sleep) fun _ _ => id
  obtain ⟨k, hk, hle, -⟩ := (h.ticking n).earlier _ ht name hname
  exact ⟨k, hk, hle, by simp⟩

theorem Identified.wake (h : Identified net c) (n : N) (i : ℕ) (snapshots connects : Bool) :
    Identified net (c.setAgent n ((c.agents n).wake i snapshots connects c.fresh)) := by
  rcases (c.agents n).wake_cases i snapshots connects c.fresh with
    heq | ⟨loop, zfs, phase, hi, heq, hzfs, hphase⟩
  · rw [heq, setAgent, Function.update_eq_self]
    exact h
  rw [heq]
  have ht := List.mem_of_getElem? hi
  have hstands := h.stands n _ ht .sleeping
  -- The tick is one further, and so everything the loop is past stays past.
  have hnext : ∀ m ∈ c.pointsTo net n loop.replicaName,
      c.Agrees n m ⟨{ loop with tick := loop.tick + 1 }, phase⟩ ∨
        c.Off m ⟨{ loop with tick := loop.tick + 1 }, phase⟩ ∧
          c.last m loop.replicaName ≠ none := by
    intro m hm
    refine (hstands.aims m hm).imp_left fun hagrees name hname => ?_
    exact (hagrees name hname).imp_left fun hpast => hpast.weaken (Or.inl rfl)
      fun _ hle _ => ⟨Nat.le_succ_of_le hle, fun _ => Nat.lt_succ_of_le hle⟩
  have hearlier : ∀ name ∈ loop.lastConfirmedSent, ∃ k, name = snapshotId k ∧
      k ≤ loop.tick + 1 ∧ (∀ p : Prop, p → k < loop.tick + 1) := by
    intro name hname
    obtain ⟨k, hk, hle, -⟩ := (h.ticking n).earlier _ ht name hname
    exact ⟨k, hk, Nat.le_succ_of_le hle, fun _ _ => Nat.lt_succ_of_le hle⟩
  refine h.turn hi rfl rfl (fun name hname => ?_) ?_ (fun hgoes => ?_) hzfs
  · obtain ⟨k, hk, hle, hlt⟩ := hearlier name hname
    exact ⟨k, hk, hle, hlt _⟩
  · rcases hphase with rfl | rfl | ⟨addr, rfl, record, hrecord, haddr⟩
    · simp
    · simp
    · rintro _ ⟨⟩ m hm
      refine Or.inl ?_
      rw [pointsTo, hrecord, Option.bind_some, haddr, Option.bind_some]
      exact hm
  · rcases hphase with rfl | rfl | ⟨addr, rfl, record, hrecord, haddr⟩
    · exact .idle rfl hnext
    · exact absurd rfl hgoes.1
    · -- It sends to where its record points.
      have hpoints : c.pointsTo net n loop.replicaName = net.replication addr := by
        rw [pointsTo, hrecord, Option.bind_some, haddr, Option.bind_some]
      refine ⟨hnext, ?_, ?_, fun _ _ _ _ => by simp⟩
      · rintro m hm _ ⟨⟩ hne
        exact absurd (hpoints ▸ hm) hne
      · rintro _ ⟨⟩ m hm -
        exact (hnext m (hpoints ▸ hm)).imp_right And.left

theorem Identified.answer (h : Identified net c) (n : N) (i : ℕ) (saves : Bool)
    (peerAddr : String) :
    Identified net (c.answer net n i saves peerAddr) := by
  rcases c.answer_cases net n i saves peerAddr with
    heq | ⟨loop, addr, d, hi, hd, phase, heq, hphase⟩
  · rw [heq]
    exact h
  rw [heq]
  have ht := List.mem_of_getElem? hi
  have hlisten := h.listen ⟨n, d, loop.header⟩ (.awaited i) saves peerAddr rfl (by simp)
    fun _ => .thread ht rfl hd
  have hi' : ((c.listen ⟨n, d, loop.header⟩ (.awaited i) saves peerAddr).2.agents n).threads[i]? =
      some ⟨loop, .sending addr none⟩ := by
    rw [listen_threads, hi]
  have ht' := List.mem_of_getElem? hi'
  have hstands := hlisten.stands n _ ht' .sending
  refine hlisten.turn hi' rfl rfl (fun name hname => ?_) ?_ (fun _ => ?_) fun k s hs => ?_
  · obtain ⟨k, hk, hle, hlt⟩ := (h.ticking n).earlier _ ht name hname
    exact ⟨k, hk, hle, fun _ => hlt rfl⟩
  · rcases hphase with ⟨rfl, -⟩ | ⟨ack, -, rfl⟩
    · simp
    · rintro _ ⟨⟩ m hm
      exact Addresses.thread (t := ⟨loop, .sending addr none⟩) ht' rfl hm
  · rcases hphase with ⟨rfl, -⟩ | ⟨ack, hack, rfl⟩
    · exact hstands.sleep
    · refine ⟨hstands.aims, hstands.elsewhere, fun _ _ _ _ => by simp, ?_⟩
      -- A yes: the base is what the standby has recorded last.
      rintro _ ⟨⟩ m hm ⟨⟩
      obtain rfl : d = m := Option.some.inj (hd.symm.trans hm)
      have hbase := listen_proceed _ _ _ _ hack
      have hsame : (c.listen ⟨n, d, loop.header⟩ (.awaited i) saves peerAddr).2.last d
          loop.replicaName = loop.lastConfirmedSent := by
        rw [listen_last]
        exact hbase.symm
      refine ⟨(hstands.waits addr rfl d hm rfl).resolve_right fun hoff => hoff.1 hsame.symm, ?_⟩
      intro hnone name hname
      rw [hsame] at hnone
      exact absurd (hnone.symm.trans hname) (by simp)
  · rwa [listen_zfs] at hs

omit [DecidableEq N] in
/-- A connection that comes to nothing. -/
theorem Identified.of_receives (h : Identified net c) {c' : Cluster N}
    (hagents : c'.agents = c.agents)
    (horphans : ∀ o ∈ c'.orphans, o ∈ c.orphans ∨
      (c.Addresses net o.src o.dst o.header.replicaName ∧ ∀ name ∈ o.header.baseSnapshotId,
        c.Knows o.dst o.header.replicaName name →
          c.Shared o.src o.dst o.header.replicaName name))
    (hreceives : ∀ x ∈ c'.receives, x ∈ c.receives ∨ x.arrival = .cut) : Identified net c' := by
  have hmem : ∀ x ∈ c'.receives, x.arrival ≠ .cut → x ∈ c.receives :=
    fun x hx hcut => (hreceives x hx).resolve_right hcut
  have hfades : Fades net c c' := by
    refine .of_stamps (fun m r name hm => ?_) (fun x hx stream hstream => ?_)
      (fun m r => Or.inl ?_) fun n r name s hs => ?_
    · rw [Keeps, last, savedLast, hagents] at hm
      refine hm.imp_right (Or.imp_right ?_)
      rintro ⟨x, hx, hdst, hr, hname, harrival⟩
      exact ⟨x, hmem x hx (by simp [harrival]), hdst, hr, hname, harrival⟩
    · exact hmem x hx (by simp [hstream])
    · rw [last, hagents, last]
    · rwa [hagents]
  refine h.of_loops hfades (fun n => hagents ▸ h.ticking n) (fun m r => ?_)
    (fun n => by rw [hagents]) (fun n m r hn => ?_) (fun n t ht _ => Or.inl (hagents ▸ ht))
    fun o ho => (horphans o ho).imp_right And.right
  · rw [last, savedLast, hagents]
    exact h.memory m r
  · refine (hn.of_step (fun t ht addr haddr m hm => ?_) (fun o ho => ?_)
      fun x hx hcut => .receive (hmem x hx hcut) hcut).elim id fun hpoint => Or.inl ?_
    · exact .thread (hagents ▸ ht) haddr hm
    · exact (horphans o ho).elim .orphan And.left
    · rwa [pointsTo, hagents] at hpoint

theorem Identified.cut (h : Identified net c) (n : N) (i : ℕ) :
    Identified net (c.settle n i .cut) := by
  refine h.of_receives rfl (fun _ => Or.inl) fun x hx => ?_
  rcases mem_settle hx with ⟨hx, -⟩ | ⟨y, -, -, -, rfl⟩
  · exact Or.inl hx
  · exact Or.inr rfl

theorem Identified.abandon (h : Identified net c) (n : N) (i : ℕ) :
    Identified net (c.abandon net n i) := by
  rcases c.abandon_cases net n i with heq | ⟨loop, addr, ack, hi, heq⟩
  · rw [heq]
    exact h
  rw [heq]
  have ht := List.mem_of_getElem? hi
  have horphaned : Identified net { c.settle n i .cut with
      orphans := c.orphans ++ (Cluster.waiting net n ⟨loop, .sending addr ack⟩).toList } := by
    refine (h.cut n i).of_receives rfl (fun o ho => ?_) fun _ => Or.inl
    refine (List.mem_append.1 ho).imp_right fun ho => ?_
    obtain ⟨haddresses, -, hshared⟩ :=
      (h.cut n i).waiting (t := ⟨loop, .sending addr ack⟩) ht (Option.mem_toList.1 ho)
    exact ⟨haddresses, hshared⟩
  exact horphaned.sleep hi

theorem Identified.answerOrphan (h : Identified net c) (k : ℕ) (saves : Bool) (peerAddr : String) :
    Identified net (c.answerOrphan k saves peerAddr) := by
  rw [Cluster.answerOrphan]
  split
  · rename_i o _
    have hlisten := h.listen o .cut saves peerAddr rfl (by simp) fun hcut => absurd rfl hcut
    refine hlisten.of_receives rfl (fun o' ho' => Or.inl ?_) fun _ => Or.inl
    rw [listen_orphans]
    exact List.mem_of_mem_eraseIdx ho'
  · exact h

end Cluster

end Keel
