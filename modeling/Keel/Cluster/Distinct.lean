import Keel.ControlPlane.Addresses
import Keel.Cluster.Helpers.Serial
/-!
# The addresses of an agent's jails

No two jails of an agent are to have one address. The control plane picks
the address of a replica by `UsedAddresses`, which has the addresses of
replicas and of nobody else; an operator gives a jail any address of the
node's network, and the agent compares it with no other jail's. So a
replica is given the address of a jail that was there before it
(`address_given_twice`), or the other way round. Jails that are on record
are kept apart: in every run in which every jail that has the address of a
`Schedule` or a promotion is on record with it, no operator repeats an
address, and the table stays consistent, the addresses are distinct
throughout (`addresses_distinct`).
-/

namespace Keel

/-- The address of a jail. -/
def JailSpec.ip? [Ipnet] (spec : JailSpec) : Option IpAddr :=
  (Ipnet.parse spec.spec.network.address).toOption.map IpNet.addr

namespace Serial

open ControlPlane (Event Executed Forward ForwardResult Instant Quiets ReplicaAction Step Worker)

variable {N : Type} [DecidableEq N] [Ipnet]

/-- The address of a jail of an agent. -/
def Scene.ip? (scene : Scene N) (k : N) (r : String) : Option IpAddr :=
  ((scene.agents k).specOf r).bind JailSpec.ip?

/-- **No two jails of an agent have one address**, the ingress's apart. -/
def Scene.Distinct (scene : Scene N) : Prop :=
  ∀ k r r' a, r ≠ "ingress" → r' ≠ "ingress" → r ≠ r' → scene.ip? k r = some a →
    scene.ip? k r' ≠ some a

/-! ## What is to be kept -/

/-- The table has the jail at the address of the node. -/
def OnRecord (w : Worker) (n r : String) (a : IpAddr) : Prop :=
  ∃ x ∈ w.usedAddresses.byJail.lookup r, x.1 = n ∧ IpAddr.v4 x.2 = a

omit [Ipnet] in
theorem OnRecord.lookup_eq {w : Worker} {n r : String} {a : Ipv4Addr} (h : OnRecord w n r (.v4 a)) :
    w.usedAddresses.byJail.lookup r = some (n, a) := by
  obtain ⟨⟨n', a'⟩, hlookup, rfl, ha⟩ := h
  cases ha
  exact hlookup

/-- A `PUT` carried out at an address another jail of the agent has is not
an operator's, and that jail is on record. -/
def Entry.KeepsApart (x : Entry N) : Prop :=
  match x.event with
  | .sent before f _ =>
    ∀ k ∈ x.carriedBy, ∀ y ∈ f.request.writes?, ∀ spec ∈ y.2, ∀ a ∈ spec.ip?,
      ∀ r ∈ (x.scene.agents k).reconciler.records.keys, r ≠ "ingress" → r ≠ y.1 →
        x.scene.ip? k r = some a → f.site.operator = false ∧ OnRecord before f.nodeId r a
  | _ => True

/-- After the `Schedule` of a replica was refused, no other replica's is
carried out at the address the table still holds for it. -/
def Entry.KeepsSlot (x y : Entry N) : Prop :=
  match x.event, y.event with
  | .sent before f answer, .sent _ f' _ =>
    ControlPlane.accepted answer = false → ∀ a ∈ f.slot?, ∀ b ∈ f'.slot?,
      before.usedAddresses.byJail.lookup a.1 = some b.2 → b.1 ≠ a.1 → y.carriedBy = none
  | _, _ => True

section Decidable

instance (w : Worker) (n r : String) (a : IpAddr) : Decidable (OnRecord w n r a) :=
  inferInstanceAs (Decidable (∃ _ ∈ _, _))

instance : DecidablePred (Entry.KeepsApart (N := N))
  | ⟨_, _, carriedBy, .sent ..⟩ => inferInstanceAs (Decidable (∀ _ ∈ carriedBy, _))
  | ⟨_, _, _, .planned ..⟩ => inferInstanceAs (Decidable True)
  | ⟨_, _, _, .applied ..⟩ => inferInstanceAs (Decidable True)

instance : DecidableRel (Entry.KeepsSlot (N := N))
  | ⟨_, _, _, .sent ..⟩, ⟨_, _, _, .sent ..⟩ => inferInstanceAs (Decidable (_ → _))
  | ⟨_, _, _, .sent ..⟩, ⟨_, _, _, .planned ..⟩ => inferInstanceAs (Decidable True)
  | ⟨_, _, _, .sent ..⟩, ⟨_, _, _, .applied ..⟩ => inferInstanceAs (Decidable True)
  | ⟨_, _, _, .planned ..⟩, _ => inferInstanceAs (Decidable True)
  | ⟨_, _, _, .applied ..⟩, _ => inferInstanceAs (Decidable True)

end Decidable

/-! ## One forward -/

section Entry

variable {net : Net N} {x : Entry N} {scene first : Scene N}

/-- Where an address comes from: it was just put there, or was there
already. -/
theorem Entry.Tells.ip?_cases (h : x.Tells net scene) {k : N} {r : String} {a : IpAddr}
    (hr : r ≠ "ingress") (ha : scene.ip? k r = some a) :
    (x.carriedBy = some k ∧ ∃ spec, x.writes? = some (r, some spec) ∧ spec.ip? = some a) ∨
      x.scene.ip? k r = some a := by
  rw [Scene.ip?, h.specOf k r hr] at ha
  by_cases hwritten : x.carriedBy = some k → ∀ y, x.writes? ≠ some (r, y)
  · rw [specAfter_of_unwritten hwritten] at ha
    exact Or.inr ha
  · push Not at hwritten
    obtain ⟨hk, y, hy⟩ := hwritten
    rw [specAfter, hy, Option.elim_some, if_pos ⟨hk, rfl⟩] at ha
    obtain ⟨spec, rfl, hspec⟩ := Option.bind_eq_some_iff.1 ha
    exact Or.inl ⟨hk, spec, hy, hspec⟩

/-- **What is put at an address nobody else has keeps the addresses
distinct.** -/
theorem Scene.Distinct.act (h : x.scene.Distinct) (htells : x.Tells net scene)
    (hapart : ∀ k r spec a r', x.carriedBy = some k → x.writes? = some (r, some spec) →
      spec.ip? = some a → r' ≠ "ingress" → r' ≠ r → x.scene.ip? k r' ≠ some a) :
    scene.Distinct := by
  intro k r r' a hr hr' hne ha ha'
  rcases htells.ip?_cases hr ha with ⟨hk, spec, hwrites, hspec⟩ | hold
  · rcases htells.ip?_cases hr' ha' with ⟨-, spec', hwrites', -⟩ | hold'
    · rw [hwrites] at hwrites'
      cases hwrites'
      exact hne rfl
    · exact hapart k r spec a r' hk hwrites hspec hr' hne.symm hold'
  · rcases htells.ip?_cases hr' ha' with ⟨hk, spec, hwrites, hspec⟩ | hold'
    · exact hapart k r' spec a r hk hwrites hspec hr hne hold
    · exact h k r r' a hr hr' hne hold hold'

/-- A forward that writes no spec. -/
theorem Scene.Distinct.idle (h : x.scene.Distinct) (htells : x.Tells net scene)
    (hwrites : ∀ r spec, x.writes? ≠ some (r, some spec)) : scene.Distinct :=
  h.act htells fun _ r spec _ _ _ hput => absurd hput (hwrites r spec)

omit [DecidableEq N] in
theorem Scene.Distinct.same {a b : Scene N} (h : a.Distinct) (hsame : a.Same b) : b.Distinct := by
  intro k r r' ip hr hr' hne
  rw [Scene.ip?, Scene.ip?, hsame.specOf k r hr, hsame.specOf k r' hr']
  exact h k r r' ip hr hr' hne

omit [DecidableEq N] in
/-- Who else has the address of a `PUT` that is carried out. -/
theorem Entry.KeepsApart.onRecord (h : x.KeepsApart) {before : Worker} {f : Forward}
    {answer : ForwardResult} (hx : x.event = .sent before f answer) {k : N} {r r' : String}
    {spec : JailSpec} {a : IpAddr} (hk : x.carriedBy = some k)
    (hwrites : x.writes? = some (r, some spec)) (hspec : spec.ip? = some a)
    (hr' : r' ≠ "ingress") (hne : r' ≠ r) (ha : x.scene.ip? k r' = some a) :
    f.site.operator = false ∧ OnRecord before f.nodeId r' a := by
  rw [KeepsApart, hx] at h
  rw [writes?_sent hx] at hwrites
  have hmem : r' ∈ (x.scene.agents k).reconciler.records.keys := by
    rw [Agent.Agentd.mem_records]
    intro hnone
    rw [Scene.ip?, hnone] at ha
    cases ha
  exact h k hk _ hwrites spec rfl a hspec r' hmem hr' hne ha

omit [Ipnet] in
/-- A success was carried out, so the events keep their slots too. -/
theorem Truthful.keepsSlot {l : List (Entry N)} (h : Truthful net first l scene)
    (hslots : l.Pairwise Entry.KeepsSlot) : (l.map Entry.event).Pairwise Event.KeepsSlot := by
  induction h with
  | start => exact List.Pairwise.nil
  | own _ _ ih => exact ih hslots
  | @act l x b _ _ htells ih =>
    rw [List.pairwise_append] at hslots
    obtain ⟨hbefore, -, hlast⟩ := hslots
    rw [List.map_append, List.pairwise_append]
    refine ⟨ih hbefore, List.pairwise_singleton _ _, ?_⟩
    intro e he e' he'
    obtain ⟨y, hy, rfl⟩ := List.mem_map.1 he
    obtain ⟨x', hx', rfl⟩ := List.mem_map.1 he'
    cases List.mem_singleton.1 hx'
    -- What was not carried out was not accepted either.
    have hkeeps := hlast y hy x (List.mem_singleton.2 rfl)
    rw [Entry.KeepsSlot] at hkeeps
    cases hye : y.event with
    | planned => trivial
    | applied => trivial
    | sent before f answer =>
      cases hxe : x.event with
      | planned => trivial
      | applied => trivial
      | sent before' f' answer' =>
        rw [hye, hxe] at hkeeps
        intro hno a ha b hb hlookup hne
        rw [← Bool.not_eq_true]
        intro haccepted
        obtain ⟨k, hk⟩ := htells.accepted before' f' answer' hxe haccepted
        rw [hkeeps hno a ha b hb hlookup hne] at hk
        cases hk

omit [DecidableEq N] [Ipnet] in
/-- A slot the table still holds for a replica that was refused. -/
theorem Entry.KeepsSlot.not_carried {x₀ : Entry N} (h : x₀.KeepsSlot x) {before : Worker}
    {f : Forward} {answer : ForwardResult} (hx : x.event = .sent before f answer) {r : String}
    {y : String × String × Ipv4Addr} (hrefused : x₀.event.Refused r y.2) (hy : y ∈ f.slot?)
    (hne : y.1 ≠ r) : x.carriedBy = none := by
  rw [KeepsSlot, hx] at h
  cases he : x₀.event with
  | planned => rw [he] at hrefused; cases hrefused
  | applied => rw [he] at hrefused; cases hrefused
  | sent before' f' answer' =>
    rw [he] at h hrefused
    obtain ⟨hno, ⟨z, hz, rfl⟩, hlookup⟩ := hrefused
    exact h hno z hz y hy hlookup hne

end Entry

/-! ## Steps -/

section Steps

variable {net : Net N} {first : Scene N}

/-- The addresses have been distinct so far, as long as what the request
did keeps them apart. -/
def KeptDistinct (l : List (Entry N)) (_ : Worker) (scene : Scene N) : Prop :=
  (∀ x ∈ l, x.KeepsApart) → l.Pairwise Entry.KeepsSlot →
    scene.Distinct ∧ ∀ x ∈ l, x.scene.Distinct

omit [DecidableEq N] in
theorem KeptDistinct.snoc {l : List (Entry N)} {x : Entry N} {w worker : Worker} {scene : Scene N}
    (h : KeptDistinct l w x.scene)
    (hstep : x.KeepsApart → (l ++ [x]).Pairwise Entry.KeepsSlot → x.scene.Distinct →
      scene.Distinct) : KeptDistinct (l ++ [x]) worker scene := by
  intro hapart hslots
  have hlast : x ∈ l ++ [x] := List.mem_concat_self
  obtain ⟨hnow, hbefore⟩ := h (fun y hy => hapart y (List.mem_append_left _ hy))
    (hslots.sublist (List.sublist_append_left _ _))
  refine ⟨hstep (hapart x hlast) hslots hnow, fun y hy => ?_⟩
  rcases List.mem_append.1 hy with hy | hy
  · exact hbefore y hy
  · rwa [List.mem_singleton.1 hy]

/-- The address a replica is sent with. -/
theorem ip?_replicaSpec (hparse : ∀ n : Ipv4Net, Ipnet.parse n.display = .ok (.v4 n.addr n.prefixLen))
    (template : JailTemplate) (name : String) (address : Ipv4Addr) {prefixLen : ℕ}
    (hle : prefixLen ≤ 32) (replicateTo : Option String) :
    (ControlPlane.replicaSpec template name address prefixLen replicateTo).ip? =
      some (.v4 address) := by
  have hread := hparse ⟨address, prefixLen, hle⟩
  simp only [JailSpec.ip?]
  change (Ipnet.parse (Ipv4Net.display ⟨address, prefixLen, hle⟩)).toOption.map IpNet.addr = _
  rw [hread]
  rfl

/-- **A plan executed keeps the addresses distinct.** A jail on record at
the address of a `Schedule` had its own refused in the same pass. -/
theorem Kept.executed_distinct
    (hparse : ∀ n : Ipv4Net, Ipnet.parse n.display = .ok (.v4 n.addr n.prefixLen))
    {w w' : ControlPlane.World} {as : List ReplicaAction} (h : Executed w as w')
    (hassigned : w.worker.usedAddresses.Consistent →
      ControlPlane.Assigned w.worker.usedAddresses as)
    (hlens : ∀ a ∈ as, ∀ r nodeId nodeAddr template address prefixLen standbyNodeId standbyAddr,
      a = .schedule r nodeId nodeAddr template address prefixLen standbyNodeId standbyAddr →
        prefixLen ≤ 32)
    (hcons : w.log.Pairwise Event.KeepsSlot → w.worker.usedAddresses.Consistent)
    (hkept : Kept net first KeptDistinct w) : Kept net first KeptDistinct w' := by
  induction h with
  | nil => exact hkept
  | @snoc as w₁ a answer hdone ih =>
    have hbefore := ih (fun hc => (hassigned hc).snoc_inv.1)
      fun b hb => hlens b (List.mem_append_left _ hb)
    refine hbefore.act fun l x scene hl hx htruthful _ htells hK => hK.snoc ?_
    intro hapart hslots hdistinct
    refine hdistinct.act htells fun k r spec ip r' hk hwrites hspec hr' hne hip => ?_
    obtain ⟨-, hrecord⟩ := hapart.onRecord hx hk hwrites hspec hr' hne hip
    rw [Entry.writes?_sent hx] at hwrites
    cases a with
    | tearDown => cases hwrites
    | schedule name nodeId nodeAddr template address prefixLen standbyNodeId standbyAddr =>
      cases hwrites
      have hle := hlens _ List.mem_concat_self _ _ _ _ _ _ _ _ rfl
      rw [ip?_replicaSpec hparse _ _ _ hle] at hspec
      cases hspec
      have hrecord := hrecord.lookup_eq
      have hkeeps : w₁.log.Pairwise Event.KeepsSlot := by
        rw [← hl]
        exact htruthful.keepsSlot (hslots.sublist (List.sublist_append_left _ _))
      -- The table held the address for the other jail when the pass began, so
      -- the pass moved that jail elsewhere and was refused.
      have hconsistent := hcons (hkeeps.sublist hdone.log_mono.sublist)
      have hunderway := ControlPlane.underway_of_executed hdone (hassigned hconsistent).snoc_inv.1
        hkeeps hconsistent
      obtain ⟨e, he, hrefused⟩ := hunderway.refused_of_lookup (hassigned hconsistent) rfl hrecord
      rw [← hl] at he
      obtain ⟨x₀, hx₀, rfl⟩ := List.mem_map.1 he
      have hslot := (List.pairwise_append.1 hslots).2.2 x₀ hx₀ x (List.mem_singleton.2 rfl)
      rw [hslot.not_carried hx hrefused rfl hne.symm] at hk
      cases hk

/-- **A step keeps the addresses distinct.** -/
theorem Kept.step_distinct
    (hparse : ∀ n : Ipv4Net, Ipnet.parse n.display = .ok (.v4 n.addr n.prefixLen))
    {w w' : ControlPlane.World} (h : Step w w')
    (hcons : w.log.Pairwise Event.KeepsSlot → w.worker.usedAddresses.Consistent)
    (hkept : Kept net first KeptDistinct w) : Kept net first KeptDistinct w' := by
  -- What writes no spec.
  have hidle : ∀ (worker : Worker) (e : Event), (∀ x : Entry N, x.event = e →
      ∀ r spec, x.writes? ≠ some (r, some spec)) →
        Kept net first KeptDistinct ⟨worker, w.log ++ [e]⟩ := by
    intro worker e he
    refine hkept.act fun l x scene hl hx _ _ htells hK => hK.snoc fun _ _ hdistinct => ?_
    exact hdistinct.idle htells (he x hx)
  have hnote : ∀ (worker : Worker) (e : Event), (∀ before f answer, e ≠ .sent before f answer) →
      Kept net first KeptDistinct ⟨worker, w.log ++ [e]⟩ := by
    intro worker e he
    refine hidle worker e fun x hx r spec hwrites => ?_
    rw [Entry.writes?_of_unsent (by rwa [hx])] at hwrites
    cases hwrites
  have hplan : ∀ e : Event, (w.log ++ [e]).Pairwise Event.KeepsSlot →
      w.worker.usedAddresses.Consistent := fun e hlog =>
    hcons (hlog.sublist (List.sublist_append_left _ _))
  have hdelete : ∀ (x : Entry N) {before : Worker} {f : Forward} {answer : ForwardResult}
      {name : String}, x.event = .sent before f answer → f.method = .delete → f.path = .jail name →
        ∀ r spec, x.writes? ≠ some (r, some spec) := by
    intro x before f answer name hx hmethod hpath r spec hwrites
    rw [Entry.writes?_sent hx, writes?_delete hmethod hpath] at hwrites
    cases hwrites
  cases h with
  | registry registry => exact fun l scene hl htruthful => hkept l scene hl htruthful
  | apply hconflict h => exact hnote _ _ fun _ _ _ h => by cases h
  | reconcile now h =>
    refine Kept.executed_distinct hparse h ControlPlane.reconcileServices_assigned
      ControlPlane.reconcileServices_prefixLen_le (hplan _) ?_
    exact hnote _ _ fun _ _ _ h => by cases h
  | delete now ord hget h =>
    refine Kept.executed_distinct hparse h (fun _ => ControlPlane.deleteActions_assigned ord _)
      (fun a ha => ?_) (hplan _) ?_
    · obtain ⟨_, _, _, rfl, -⟩ := ControlPlane.mem_deleteActions.1 ha
      rintro _ _ _ _ _ _ _ _ ⟨⟩
    · exact hnote _ _ fun _ _ _ h => by cases h
  | read answer hsite hput =>
    refine hidle _ _ fun x hx r spec hwrites => ?_
    rw [Entry.writes?_sent hx, writes?_read hput] at hwrites
    cases hwrites
  | put answer hpath hmethod hsite =>
    refine hkept.act fun l x scene hl hx _ _ htells hK => hK.snoc fun hapart _ hdistinct => ?_
    refine hdistinct.act htells fun k r spec ip r' hk hwrites hspec hr' hne hip => ?_
    have hoperator := (hapart.onRecord hx hk hwrites hspec hr' hne hip).1
    rw [hsite] at hoperator
    cases hoperator
  | drop answer hpath hmethod hsite =>
    exact hidle _ _ fun x hx => hdelete x hx hmethod hpath
  | @promote name prep now answer hprep =>
    refine hkept.act fun l x scene hl hx htruthful _ htells hK =>
      hK.snoc fun hapart hslots hdistinct => ?_
    refine hdistinct.act htells fun k r spec ip r' hk hwrites hspec hr' hne hip => ?_
    obtain ⟨-, hrecord⟩ := hapart.onRecord hx hk hwrites hspec hr' hne hip
    have hprepared := ControlPlane.prepareForceRepin_ok hprep
    rw [Entry.writes?_sent hx] at hwrites
    cases hwrites
    rw [ip?_replicaSpec hparse _ _ _ hprepared.prefixLen_le] at hspec
    cases hspec
    have hkeeps : w.log.Pairwise Event.KeepsSlot := by
      rw [← hl]
      exact htruthful.keepsSlot (hslots.sublist (List.sublist_append_left _ _))
    -- The address was free when the promotion was prepared.
    exact (hcons hkeeps).byJail_ne_of_isUsed hprepared.free hrecord.lookup_eq
  | fence addr answer h => exact hidle _ _ fun x hx => hdelete x hx rfl rfl

/-- So do any number of steps, which keep the table consistent as well. -/
theorem Kept.quiets_distinct
    (hparse : ∀ n : Ipv4Net, Ipnet.parse n.display = .ok (.v4 n.addr n.prefixLen))
    {w w' : ControlPlane.World} (h : Quiets w w') (hcons : w.worker.usedAddresses.Consistent)
    (hkept : Kept net first KeptDistinct w) :
    Kept net first KeptDistinct w' ∧
      (w'.log.Pairwise Event.KeepsSlot → w'.worker.usedAddresses.Consistent) := by
  induction h with
  | refl => exact ⟨hkept, fun _ => hcons⟩
  | tail _ hquiet ih =>
    obtain ⟨hkept, hcons⟩ := ih
    refine ⟨Kept.step_distinct hparse hquiet.step hcons hkept, fun hlog => ?_⟩
    exact ControlPlane.consistent_step hquiet.step hlog
      (hcons (hlog.sublist hquiet.step.log_mono.sublist))

end Steps

/-! ## Requests -/

/-- What is asked of each request. -/
structure Served.KeepsApart (x : Served N) : Prop where
  apart : ∀ e ∈ x.log, e.KeepsApart
  slots : x.log.Pairwise Entry.KeepsSlot

/-- **A request keeps the addresses distinct**, at every moment of it. -/
theorem Served.KeepsApart.distinct
    (hparse : ∀ n : Ipv4Net, Ipnet.parse n.display = .ok (.v4 n.addr n.prefixLen))
    {net : Net N} {x : Served N} (h : x.KeepsApart) {worker : Worker} {begun : Instant}
    (hsplits : x.Splits net worker begun) (hdistinct : x.before.scene.Distinct)
    (hcons : x.before.worker.usedAddresses.Consistent) :
    (x.after.scene.Distinct ∧ ∀ e ∈ x.log, e.scene.Distinct) ∧
      x.after.worker.usedAddresses.Consistent := by
  have hused : worker.usedAddresses = x.before.worker.usedAddresses := by
    rcases hsplits.call with ⟨rfl, -⟩ | ⟨-, -, call, -, rfl⟩ <;> rfl
  have hbegin : Kept net x.before.scene KeptDistinct ⟨worker, []⟩ :=
    .begin fun scene hsame _ _ => ⟨hdistinct.same hsame, fun e he => nomatch he⟩
  obtain ⟨hend, hconsistent⟩ := Kept.quiets_distinct hparse hsplits.quiets (by rwa [hused]) hbegin
  exact ⟨hend x.log x.after.scene rfl hsplits.truthful h.apart h.slots,
    hconsistent (hsplits.truthful.keepsSlot h.slots)⟩

theorem history_distinct
    (hparse : ∀ n : Ipv4Net, Ipnet.parse n.display = .ok (.v4 n.addr n.prefixLen))
    (net : Net N) (script : Script N) {s : State N} (hsynced : s.Synced)
    (hdistinct : s.scene.Distinct) (hcons : s.worker.usedAddresses.Consistent)
    (hkeeps : ∀ x ∈ history net s script, x.KeepsApart) :
    ∀ x ∈ history net s script, x.after.scene.Distinct ∧ ∀ e ∈ x.log, e.scene.Distinct := by
  refine history_rule (I := fun s => s.scene.Distinct ∧ s.worker.usedAddresses.Consistent) ?_ script
    hsynced ⟨hdistinct, hcons⟩ hkeeps
  intro x worker begun hsplits hapart hbefore
  obtain ⟨hserved, hafter⟩ := hapart.distinct hparse hsplits hbefore.1 hbefore.2
  exact ⟨hserved, hserved.1, hafter⟩

/-- **The addresses of an agent's jails are distinct**, at every moment of
every run in which no operator's `PUT` is carried out at an address
another jail of the node has, every jail that has the address of a
`Schedule` or a promotion carried out there is on record with it, and no
pass, having had the `Schedule` of a replica refused, has another carried
out at the address the table holds for the first. -/
theorem addresses_distinct
    (hparse : ∀ n : Ipv4Net, Ipnet.parse n.display = .ok (.v4 n.addr n.prefixLen))
    (net : Net N) (clusterCidr serviceCidr : Ipv4Net) (pools : N → String)
    (zfs : N → Agent.FakeZfsManager) (script : Script N)
    (hapart : ∀ x ∈ history net (start clusterCidr serviceCidr pools zfs) script,
      ∀ e ∈ x.log, e.KeepsApart)
    (hslots : ∀ x ∈ history net (start clusterCidr serviceCidr pools zfs) script,
      x.log.Pairwise Entry.KeepsSlot) :
    ∀ x ∈ history net (start clusterCidr serviceCidr pools zfs) script,
      x.after.scene.Distinct ∧ ∀ e ∈ x.log, e.scene.Distinct := by
  have hdistinct : (start clusterCidr serviceCidr pools zfs).scene.Distinct := by
    intro k r r' a _ _ _ ha
    rw [Scene.ip?, State.scene, Agent.Agentd.specOf, start_reconciler] at ha
    cases ha
  exact history_distinct hparse net script (start_synced clusterCidr serviceCidr pools zfs)
    hdistinct .new fun x hx => ⟨hapart x hx, hslots x hx⟩

end Serial

/-! ## A jail with an address of its own -/

theorem Ipv4Addr.ofOctets_octet (a : Ipv4Addr) :
    ofOctets (octet a 0) (octet a 1) (octet a 2) (octet a 3) = a := by
  refine BitVec.eq_of_toNat_eq ?_
  have hlt := a.isLt
  simp only [ofOctets, octet, BitVec.toNat_ofNat]
  omega

theorem Ipv4Net.toList_display (n : Ipv4Net) : n.display.toList =
    (Nat.toDigits 10 (n.addr.octet 0) ++ '.' :: (Nat.toDigits 10 (n.addr.octet 1) ++ '.' ::
      (Nat.toDigits 10 (n.addr.octet 2) ++ '.' :: Nat.toDigits 10 (n.addr.octet 3)))) ++
        '/' :: Nat.toDigits 10 n.prefixLen := by
  have hdot : ".".toList = ['.'] := rfl
  have hslash : "/".toList = ['/'] := rfl
  simp only [display, Ipv4Addr.display, String.toList_append, toList_toString, hdot, hslash,
    List.append_assoc, List.cons_append, List.nil_append]

/-- Networks in dotted decimal are read as they are displayed. -/
theorem Agent.Sample.parse_display (n : Ipv4Net) :
    Agent.Sample.ipnet.parse n.display = .ok (.v4 n.addr n.prefixLen) := by
  have hslash : '/' ∉ Nat.toDigits 10 (n.addr.octet 0) ++ '.' ::
      (Nat.toDigits 10 (n.addr.octet 1) ++ '.' :: (Nat.toDigits 10 (n.addr.octet 2) ++ '.' ::
        Nat.toDigits 10 (n.addr.octet 3))) := by
    simp only [List.mem_append, List.mem_cons, not_or]
    exact ⟨notMem_toDigits rfl _, by decide, notMem_toDigits rfl _, by decide,
      notMem_toDigits rfl _, by decide, notMem_toDigits rfl _⟩
  have hdot : ∀ i, '.' ∉ Nat.toDigits 10 i := fun i => notMem_toDigits rfl i
  have hlen : '/' ∉ Nat.toDigits 10 n.prefixLen := notMem_toDigits rfl n.prefixLen
  have hparts : (n.display.toList.splitOn '/').map (fun part => (part.splitOn '.').mapM digits?) =
      [some [n.addr.octet 0, n.addr.octet 1, n.addr.octet 2, n.addr.octet 3], some [n.prefixLen]] := by
    rw [Ipv4Net.toList_display, List.splitOn_append_cons_self_of_not_mem hslash,
      List.splitOn_eq_singleton hlen]
    simp only [List.map_cons, List.map_nil, List.splitOn_append_cons_self_of_not_mem (hdot _),
      List.splitOn_eq_singleton (hdot _), List.mapM_cons, List.mapM_nil, digits?_toDigits,
      Option.bind_eq_bind, Option.bind_some, Option.pure_def]
  have hoctet : ∀ i, n.addr.octet i < 256 := fun i => Nat.mod_lt _ (by decide)
  simp only [Ipnet.parse]
  rw [hparts]
  simp only
  rw [if_pos ⟨hoctet 0, hoctet 1, hoctet 2, hoctet 3, n.prefixLen_le⟩, Ipv4Addr.ofOctets_octet]

namespace Serial

namespace Sample

open ControlPlane.Sample (register heartbeat service template)

/-- An operator puts a jail on `a`. -/
def putBox (address : String) : ControlPlane.Request :=
  .putNodeJail "a" "box" (.ok ((template []).toJailSpec "box" address))

/-- Two replicas join it, and are put on `b` when `a` is taken for dead. -/
def boxJoined : Script (Fin 4) :=
  [(register "a", after 0), (putBox "10.0.44.9/24", after 1), (service "web" 2 [], after 1),
    (register "b", after 8), (heartbeat "b", after 10)]

/-- Its address is the first the control plane takes for free. -/
def boxRobbed : Script (Fin 4) :=
  [(register "a", after 0), (putBox "10.0.44.2/24", after 1), (service "web" 1 [], after 1)]

end Sample

open Sample Cluster.Sample Agent.Sample in
theorem addresses_distinct_sample :
    (final net spawn boxJoined).worker.placements.lookup "web-0" = some "b" ∧
      ∀ x ∈ history net spawn boxJoined, x.after.scene.Distinct ∧ ∀ e ∈ x.log, e.scene.Distinct :=
  ⟨by decide +kernel, addresses_distinct parse_display net _ _ _ _ boxJoined (by decide +kernel)
    (by decide +kernel)⟩

open Sample Cluster.Sample Agent.Sample in
/-- **An address given twice.** `web-0` gets the address of `box`, and `a`
accepts it. -/
theorem address_given_twice : ¬ (final net spawn boxRobbed).scene.Distinct := by
  intro h
  have hbox : (final net spawn boxRobbed).scene.ip? 0 "box" =
      some (.v4 (Ipv4Addr.ofOctets 10 0 44 2)) := by decide +kernel
  have hweb : (final net spawn boxRobbed).scene.ip? 0 "web-0" =
      some (.v4 (Ipv4Addr.ofOctets 10 0 44 2)) := by decide +kernel
  exact h 0 "box" "web-0" _ (by decide) (by decide) (by decide) hbox hweb

end Serial

end Keel
