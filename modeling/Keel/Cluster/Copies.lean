import Keel.Cluster.Helpers.Serial
/-!
# Copies of a replica

The control plane knows of a copy of a replica by the replica's placement,
or by the delete its node is owed; of what an agent holds it never asks. A
replica rescheduled off a dead node leaves a copy behind that neither
table has, and when the node is back the copy runs on
(`copy_untracked`). Where that does not happen, and where no operator's
request, and no promotion, takes the placement of a replica from under a
copy on a live node, every copy on a live node is tracked at the end of
every request (`copies_tracked`).

Which of the agents' records count as copies is left open here: those
created by a `Schedule` or a force-repin, or all of them.
-/

namespace Keel

theorem ControlPlane.Registry.isOk_resolve_mono {registry : ControlPlane.Registry} {id : String}
    {t t' : ControlPlane.Instant} (hle : t ≤ t') (h : (registry.resolve id t').isOk = true) :
    (registry.resolve id t).isOk = true := by
  simp only [resolve] at h ⊢
  split at h
  · cases h
  · rename_i record hrecord
    split at h
    · cases h
    · rename_i hrecent
      rw [if_neg]
      · rfl
      · exact fun hold => hrecent (hold.trans (Nat.sub_le_sub_right hle _))

/-- The control plane knows that the node has the replica, or is to be rid
of it. -/
def ControlPlane.Worker.Tracks (w : ControlPlane.Worker) (r n : String) : Prop :=
  w.placements.lookup r = some n ∨ w.pendingFences.lookup r = some n

instance (w : ControlPlane.Worker) (r n : String) : Decidable (w.Tracks r n) :=
  inferInstanceAs (Decidable (_ ∨ _))

namespace Serial

open ControlPlane (Event Forward ForwardResult Instant Quiet Quiets ReplicaAction Site Worker)

variable {N : Type} [DecidableEq N]

/-! ## Copies, and what is to be kept -/

/-- The agent has a record of the jail, created from a place that counts.
The ingress's jail is every agent's own. -/
def Scene.Holds (counts : Option Site → Bool) (scene : Scene N) (k : N) (r : String) : Prop :=
  r ≠ "ingress" ∧ counts (scene.creators k r) = true ∧
    r ∈ (scene.agents k).reconciler.records.keys

/-- The control plane takes the node for alive. -/
def Alive (net : Net N) (w : Worker) (k : N) (t : Instant) : Prop :=
  (w.registry.resolve (net.nodeId k) t).isOk = true

/-- **Every copy on a live node is tracked.** -/
def Tracked (net : Net N) (counts : Option Site → Bool) (w : Worker) (scene : Scene N)
    (t : Instant) : Prop :=
  ∀ k r, scene.Holds counts k r → Alive net w k t → w.Tracks r (net.nodeId k)

/-- A `PUT` that is carried out is answered. -/
def Entry.PutAnswered (x : Entry N) : Prop :=
  match x.event with
  | .sent _ f answer =>
    f.method = .put → x.carriedBy.isSome = true → ControlPlane.accepted answer = true
  | _ => True

/-- A copy at `n` stays tracked when a forward about the jail is carried out
elsewhere: it owes its delete, if an operator sent the forward, or `n` is
the node the replica leaves, if it is a promotion. -/
def Spares (before : Worker) (f : Forward) (r n : String) : Prop :=
  (f.site.operator = true → f.method ≠ .get → before.pendingFences.lookup r = some n) ∧
    (f.site = .promote → before.placements.lookup r = some n)

/-- What is carried out leaves no live copy untracked elsewhere. -/
def Entry.KeepsOthers (net : Net N) (counts : Option Site → Bool) (x : Entry N) : Prop :=
  match x.event with
  | .sent before f _ =>
    ∀ k ∈ x.carriedBy, ∀ r ∈ f.jail?, ∀ k', k' ≠ k → x.scene.Holds counts k' r →
      Alive net before k' x.now → Spares before f r (net.nodeId k')
  | _ => True

/-- A node that was not alive comes back, by registering or by a
heartbeat, with no untracked copy. -/
def Served.KeepsReturned (net : Net N) (counts : Option Site → Bool) (x : Served N) : Prop :=
  ∀ call ∈ x.request.registryCall x.now, ∀ k, ¬ Alive net x.before.worker k x.now →
    Alive net { x.before.worker with registry := x.before.worker.registry.call call } k x.now →
      ∀ r ∈ (x.before.cluster.agents k).reconciler.records.keys,
        x.before.scene.Holds counts k r → x.before.worker.Tracks r (net.nodeId k)

/-- A forward is answered, or is not carried out. -/
def Entry.Answered (x : Entry N) : Prop :=
  match x.event with
  | .sent _ _ answer => x.carriedBy.isSome = true → ControlPlane.accepted answer = true
  | _ => True

section Decidable

variable (net : Net N) (counts : Option Site → Bool)

instance (scene : Scene N) (k : N) (r : String) : Decidable (scene.Holds counts k r) :=
  inferInstanceAs (Decidable (_ ∧ _ ∧ _))

instance (w : Worker) (k : N) (t : Instant) : Decidable (Alive net w k t) :=
  inferInstanceAs (Decidable (_ = true))

instance (before : Worker) (f : Forward) (r n : String) : Decidable (Spares before f r n) :=
  inferInstanceAs (Decidable (_ ∧ _))

instance : DecidablePred (Entry.PutAnswered (N := N))
  | ⟨_, _, _, .sent ..⟩ => inferInstanceAs (Decidable (_ → _ → _))
  | ⟨_, _, _, .planned ..⟩ => inferInstanceAs (Decidable True)
  | ⟨_, _, _, .applied ..⟩ => inferInstanceAs (Decidable True)

instance : DecidablePred (Entry.Answered (N := N))
  | ⟨_, _, _, .sent ..⟩ => inferInstanceAs (Decidable (_ → _))
  | ⟨_, _, _, .planned ..⟩ => inferInstanceAs (Decidable True)
  | ⟨_, _, _, .applied ..⟩ => inferInstanceAs (Decidable True)

instance [Fintype N] : DecidablePred (Entry.KeepsOthers net counts)
  | ⟨_, _, carriedBy, .sent ..⟩ => inferInstanceAs (Decidable (∀ _ ∈ carriedBy, _))
  | ⟨_, _, _, .planned ..⟩ => inferInstanceAs (Decidable True)
  | ⟨_, _, _, .applied ..⟩ => inferInstanceAs (Decidable True)

instance [Fintype N] : DecidablePred (Served.KeepsReturned net counts) := fun x =>
  inferInstanceAs (Decidable (∀ _ ∈ x.request.registryCall x.now, _))

end Decidable

/-! ## One forward -/

omit [DecidableEq N] in
theorem Entry.Answered.put {x : Entry N} (h : x.Answered) : x.PutAnswered := by
  rw [Answered] at h
  rw [PutAnswered]
  split at h
  · exact fun _ => h
  · exact trivial

section Entry

variable {net : Net N} {counts : Option Site → Bool} {x : Entry N} {scene : Scene N}
  {w worker : Worker} {t : Instant}

omit [DecidableEq N] in
theorem Scene.holds_iff {k : N} {r : String} :
    scene.Holds counts k r ↔ r ≠ "ingress" ∧ counts (scene.creators k r) = true ∧
      (scene.agents k).specOf r ≠ none := by
  rw [Holds, Agent.Agentd.mem_records]

/-- **Where a copy comes from**: it was just put there, or was there
already and was not written. -/
theorem Entry.Tells.holds (h : x.Tells net scene) {k : N} {r : String}
    (hholds : scene.Holds counts k r) :
    (x.carriedBy = some k ∧ ∃ spec, x.writes? = some (r, some spec)) ∨
      x.scene.Holds counts k r ∧ (x.carriedBy = some k → ∀ y, x.writes? ≠ some (r, y)) := by
  obtain ⟨hr, hcounts, hspec⟩ := Scene.holds_iff.1 hholds
  rw [h.specOf k r hr] at hspec
  rw [h.creators k r] at hcounts
  by_cases hput : x.carriedBy = some k ∧ ∃ spec, x.writes? = some (r, some spec)
  · exact Or.inl hput
  · have hwritten : x.carriedBy = some k → ∀ y, x.writes? ≠ some (r, y) := by
      intro hk y hy
      cases y with
      | none =>
        refine hspec ?_
        rw [specAfter, hy, Option.elim_some, if_pos ⟨hk, rfl⟩]
      | some spec => exact hput ⟨hk, spec, hy⟩
    rw [specAfter_of_unwritten hwritten] at hspec
    rw [creatorAfter_of_unwritten hwritten] at hcounts
    exact Or.inr ⟨Scene.holds_iff.2 ⟨hr, hcounts, hspec⟩, hwritten⟩

end Entry

/-! ## The books -/

/-- Addresses are the nodes' own, and copies on live nodes are tracked. -/
structure Books (net : Net N) (counts : Option Site → Bool) (w : Worker) (scene : Scene N)
    (t : Instant) : Prop where
  honest : Honest net w.registry
  tracked : Tracked net counts w scene t

/-- What is asked of each thing a request does. -/
structure Entry.Fair (net : Net N) (counts : Option Site → Bool) (x : Entry N) : Prop where
  routed : x.event.Routed
  answered : x.PutAnswered
  others : x.KeepsOthers net counts

omit [DecidableEq N] in
/-- What a request carried out about a jail is to find elsewhere. -/
theorem Entry.Fair.others_of_carried {net : Net N} {counts : Option Site → Bool} {x : Entry N}
    (h : x.Fair net counts) {before : Worker} {f : Forward} {answer : ForwardResult} {name : String}
    (hx : x.event = .sent before f answer) (hpath : f.path = .jail name) {k k' : N} {t : Instant}
    (hk : x.carriedBy = some k) (hne : k' ≠ k) (hheld : x.scene.Holds counts k' name)
    (hxt : x.now ≤ t) (halive : Alive net before k' t) :
    Spares before f name (net.nodeId k') := by
  have hothers := h.others
  rw [KeepsOthers, hx] at hothers
  have hjail : name ∈ f.jail? := by
    rw [ControlPlane.Forward.jail?, hpath]
    rfl
  exact hothers k hk name hjail k' hne hheld
    (ControlPlane.Registry.isOk_resolve_mono hxt halive)

namespace Books

variable {net : Net N} {counts : Option Site → Bool} {x : Entry N} {scene : Scene N}
  {w worker : Worker} {t : Instant}

/-- What is put is tracked where it is put, and what was tracked and is
not written stays so. -/
theorem act (h : Books net counts w x.scene t) (htells : x.Tells net scene)
    (hregistry : worker.registry = w.registry)
    (hput : ∀ k r spec, x.carriedBy = some k → x.writes? = some (r, some spec) →
      worker.Tracks r (net.nodeId k))
    (hkeep : ∀ k r, x.scene.Holds counts k r → Alive net w k t →
      (x.carriedBy = some k → ∀ y, x.writes? ≠ some (r, y)) → w.Tracks r (net.nodeId k) →
        worker.Tracks r (net.nodeId k)) : Books net counts worker scene t where
  honest := by
    rw [hregistry]
    exact h.honest
  tracked k r hholds halive := by
    rw [Alive, hregistry] at halive
    rcases htells.holds hholds with ⟨hk, spec, hwrites⟩ | ⟨hheld, hunwritten⟩
    · exact hput k r spec hk hwrites
    · exact hkeep k r hheld halive hunwritten (h.tracked k r hheld halive)

/-- Nothing is written, on either side. -/
theorem idle (h : Books net counts w x.scene t) (htells : x.Tells net scene)
    (hwrites : x.writes? = none) (hregistry : worker.registry = w.registry)
    (hplacements : worker.placements = w.placements)
    (hfences : worker.pendingFences = w.pendingFences) : Books net counts worker scene t := by
  refine h.act htells hregistry (fun k r spec _ hput => ?_) fun k r _ _ _ htracks => ?_
  · rw [hwrites] at hput
    cases hput
  · rwa [Worker.Tracks, hplacements, hfences]

section Sent

variable {f : Forward} {answer : ForwardResult} {name : String} {W : Worker}

/-- **A `PUT`**, which places the jail on the node it goes to. Whoever else
has a copy must be owed the delete. -/
theorem put (h : Books net counts w x.scene t) (htells : x.Tells net scene)
    (hfair : x.Fair net counts) (hx : x.event = .sent w f answer) (hpath : f.path = .jail name)
    (hmethod : f.method = .put) (hregistry : W.registry = w.registry)
    (hplacements : W.placements = w.placements.insert name f.nodeId)
    (hfences : ∀ r, r ≠ name → W.pendingFences.lookup r = w.pendingFences.lookup r)
    (hothers : ∀ k k', x.carriedBy = some k → k' ≠ k → x.scene.Holds counts k' name →
      Alive net w k' t → w.Tracks name (net.nodeId k') →
        W.pendingFences.lookup name = some (net.nodeId k')) :
    Books net counts (if ControlPlane.accepted answer then W else w) scene t := by
  have hid := fun k => htells.nodeId_eq hx hfair.routed h.honest (k := k)
  refine h.act htells (by split <;> [exact hregistry; rfl]) ?_ ?_
  · intro k r spec hk hwrites
    rw [Entry.writes?_sent hx] at hwrites
    obtain ⟨rfl, -⟩ := writes?_put hmethod hpath hwrites
    -- Carried out, hence answered, so the placement is written.
    have haccepted : ControlPlane.accepted answer = true := by
      have := hfair.answered
      rw [Entry.PutAnswered, hx] at this
      exact this hmethod (by rw [hk]; rfl)
    rw [if_pos haccepted, Worker.Tracks, hplacements, Table.lookup_insert_eq, if_pos rfl, hid k hk]
    exact Or.inl rfl
  · intro k r hheld halive hunwritten htracks
    split
    · rename_i haccepted
      -- Whoever was tracked by the old placement is the node itself, or is
      -- owed the delete.
      obtain ⟨k₁, hk₁⟩ := htells.accepted w f answer hx haccepted
      by_cases hr : r = name
      · subst hr
        by_cases hk : k = k₁
        · rw [Worker.Tracks, hplacements, Table.lookup_insert_eq, if_pos rfl, hk, hid k₁ hk₁]
          exact Or.inl rfl
        · exact Or.inr (hothers k₁ k hk₁ hk hheld halive htracks)
      · rw [Worker.Tracks, hplacements, Table.lookup_insert_eq, if_neg hr, hfences r hr]
        exact htracks
    · exact htracks

/-- **A `DELETE`**, which takes the jail off its place. Whoever else has a
copy must be owed the delete. -/
theorem drop (h : Books net counts w x.scene t) (htells : x.Tells net scene)
    (hx : x.event = .sent w f answer) (hpath : f.path = .jail name)
    (hmethod : f.method = .delete) (hregistry : W.registry = w.registry)
    (hplacements : W.placements = w.placements.erase name)
    (hfences : W.pendingFences = w.pendingFences)
    (hothers : ∀ k k', x.carriedBy = some k → k' ≠ k → x.scene.Holds counts k' name →
      Alive net w k' t → w.Tracks name (net.nodeId k') →
        w.pendingFences.lookup name = some (net.nodeId k')) :
    Books net counts (if ControlPlane.accepted answer then W else w) scene t := by
  have hwrites := writes?_delete hmethod hpath
  rw [← Entry.writes?_sent hx] at hwrites
  refine h.act htells (by split <;> [exact hregistry; rfl]) ?_ ?_
  · intro k r spec _ hput
    rw [hwrites] at hput
    cases hput
  · intro k r hheld halive hunwritten htracks
    split
    · rename_i haccepted
      obtain ⟨k₁, hk₁⟩ := htells.accepted w f answer hx haccepted
      by_cases hr : r = name
      · subst hr
        have hk : k ≠ k₁ := by
          rintro rfl
          exact hunwritten hk₁ none hwrites
        rw [Worker.Tracks, hfences]
        exact Or.inr (hothers k₁ k hk₁ hk hheld halive htracks)
      · rw [Worker.Tracks, hplacements, Table.lookup_erase_eq, if_neg hr, hfences]
        exact htracks
    · exact htracks

/-- **An owed delete**: the agent has done it, or has no record. -/
theorem fence (hnet : Function.Injective net.nodeId) (h : Books net counts w x.scene t)
    (htells : x.Tells net scene) (hrouted : x.event.Routed) {addr nodeId r₀ : String}
    (hx : x.event = .sent w (ControlPlane.fenceForward nodeId addr r₀) answer)
    (howed : w.pendingFences.lookup r₀ = some nodeId) :
    Books net counts (if ControlPlane.gone answer then
      { w with pendingFences := w.pendingFences.erase r₀ } else w) scene t := by
  have hwrites : x.writes? = some (r₀, none) := by
    rw [Entry.writes?_sent hx]
    rfl
  refine h.act htells (by split <;> rfl) ?_ ?_
  · intro k r spec _ hput
    rw [hwrites] at hput
    cases hput
  · intro k r hheld halive hunwritten htracks
    split
    · rename_i hgone
      refine htracks.imp id fun hfence => ?_
      rw [Table.lookup_erase_eq, if_neg, hfence]
      rintro rfl
      rw [howed] at hfence
      -- The agent the delete went to is the one that has the copy.
      have hself : ∀ k₁, net.http addr = some k₁ → k₁ = k := by
        intro k₁ hk₁
        rw [hx] at hrouted
        obtain ⟨now, hresolve⟩ := hrouted
        exact hnet ((h.honest.nodeId_eq hresolve hk₁).trans (Option.some.inj hfence))
      cases hcarried : x.carriedBy with
      | some k₁ =>
        obtain ⟨_, _, _, hx', hk₁⟩ := htells.carried k₁ hcarried
        rw [hx] at hx'
        cases hx'
        cases hself k₁ hk₁
        exact hunwritten hcarried none hwrites
      | none =>
        obtain ⟨k₁, hk₁, hnone⟩ := htells.missing _ _ _ r hx rfl hgone hcarried
        cases hself k₁ hk₁
        exact (Scene.holds_iff.1 hheld).2.2 hnone
    · exact htracks

end Sent

end Books

omit [DecidableEq N] in
/-- A node alive at a time was so before. -/
theorem Books.mono {net : Net N} {counts : Option Site → Bool} {w : Worker} {scene : Scene N}
    {t t' : Instant} (h : Books net counts w scene t) (hle : t ≤ t') :
    Books net counts w scene t' :=
  ⟨h.honest, fun k r hholds halive =>
    h.tracked k r hholds (ControlPlane.Registry.isOk_resolve_mono hle halive)⟩

omit [DecidableEq N] in
theorem Books.same {net : Net N} {counts : Option Site → Bool} {w : Worker} {a b : Scene N}
    {t : Instant} (h : Books net counts w a t) (hsame : a.Same b) : Books net counts w b t := by
  refine ⟨h.honest, fun k r hholds halive => h.tracked k r ?_ halive⟩
  rw [Scene.holds_iff] at hholds ⊢
  rw [← hsame.specOf k r hholds.1, ← hsame.creators]
  exact hholds

/-! ## Steps -/

section Steps

open ControlPlane (Executed Planned Step)

variable {net : Net N} {counts : Option Site → Bool} {first : Scene N} {begun : Instant}

/-- The books are right from the last thing a request did on, as long as
everything it did is fair. -/
def FairBooks (net : Net N) (counts : Option Site → Bool) (begun : Instant) (l : List (Entry N))
    (w : Worker) (scene : Scene N) : Prop :=
  (∀ x ∈ l, x.Fair net counts ∧ begun ≤ x.now) →
    ∀ t, begun ≤ t → (∀ x ∈ l, x.now ≤ t) → Books net counts w scene t

omit [DecidableEq N] in
theorem FairBooks.snoc {l : List (Entry N)} {x : Entry N} {w worker : Worker} {scene : Scene N}
    (h : FairBooks net counts begun l w x.scene)
    (hstep : ∀ t, (∀ y ∈ l, y.now ≤ t) → x.now ≤ t → x.Fair net counts →
      Books net counts w x.scene t → Books net counts worker scene t) :
    FairBooks net counts begun (l ++ [x]) worker scene := by
  intro hfair t ht hnow
  have hbefore : ∀ y ∈ l, y.now ≤ t := fun y hy => hnow y (List.mem_append_left _ hy)
  have hlast : x ∈ l ++ [x] := List.mem_concat_self
  refine hstep t hbefore (hnow x hlast) (hfair x hlast).1 (h (fun y hy => ?_) t ht hbefore)
  exact hfair y (List.mem_append_left _ hy)

/-- **A plan executed keeps the books right.** A replica scheduled has no
copy on a live node that its placement alone tracks: it would not be
missing. One torn down is torn down where it is placed. -/
theorem Kept.executed (hnet : Function.Injective net.nodeId) {w w' : ControlPlane.World}
    {as : List ReplicaAction} {before : Worker} {t₀ : Instant} (h : Executed w as w')
    (hplanned : ∀ a ∈ as, Planned before t₀ a) (hnodup : (as.map ReplicaAction.name).Nodup)
    (hplacements : w.worker.placements = before.placements)
    (hregistry : w.worker.registry = before.registry) {actions : List ReplicaAction}
    (hmem : .planned t₀ before actions ∈ w.log)
    (hkept : Kept net first (FairBooks net counts begun) w) :
    Kept net first (FairBooks net counts begun) w' := by
  induction h with
  | nil => exact hkept
  | @snoc as w₁ a answer hdone ih =>
    have ha := hplanned a List.mem_concat_self
    obtain ⟨hrest, hfresh⟩ := ControlPlane.name_notMem_of_nodup hnodup
    -- Nothing the pass did before is about this replica: the tables are
    -- still as they were when it was planned.
    have hplace : w₁.worker.placements.lookup a.name = before.placements.lookup a.name := by
      rw [(hdone.lookup_eq hfresh).1, hplacements]
    have hresolve : w₁.worker.registry = before.registry := hdone.registry.trans hregistry
    have hbooks := ih (fun b hb => hplanned b (List.mem_append_left _ hb)) hrest
    refine hbooks.act fun l x scene hl hx htruthful _ htells hK => hK.snoc ?_
    intro t hnow hxt hfair hbooks
    have hinlog : .planned t₀ before actions ∈ l.map Entry.event := by
      rw [hl]
      exact hdone.log_mono.mem hmem
    have hle : t₀ ≤ t := htruthful.planned_le hinlog hnow
    cases a with
    | schedule r nodeId nodeAddr template address prefixLen standbyNodeId standbyAddr =>
      refine hbooks.put htells hfair hx rfl rfl rfl rfl (fun _ _ => rfl) ?_
      rintro k k' - - - halive (hplaced | hfence)
      · -- It was missing though placed, so the node it is placed on was dead,
        -- and is dead still.
        have hdead := ha.dead_of_placed (hplace.symm.trans hplaced)
        rw [Alive, hresolve] at halive
        rw [ControlPlane.Registry.isOk_resolve_mono hle halive] at hdead
        cases hdead
      · exact hfence
    | tearDown r nodeId nodeAddr =>
      refine hbooks.drop htells hx rfl rfl rfl rfl rfl ?_
      rintro k k' hk hne - - (hplaced | hfence)
      · -- The `DELETE` went to where it is placed.
        have hhere := htells.nodeId_eq hx hfair.routed hbooks.honest hk
        have hthere : some nodeId = some (net.nodeId k') := (hplace.trans ha.1).symm.trans hplaced
        exact absurd (hnet (hhere.trans (Option.some.inj hthere))).symm hne
      · exact hfence

/-- **A step keeps the books right.** -/
theorem Kept.step (hnet : Function.Injective net.nodeId) {w w' : ControlPlane.World}
    (h : Step w w') (hregistry : w'.worker.registry = w.worker.registry)
    (hkept : Kept net first (FairBooks net counts begun) w) :
    Kept net first (FairBooks net counts begun) w' := by
  -- What is written down and sent nowhere.
  have hnote : ∀ (worker : Worker) (e : Event), (∀ before f answer, e ≠ .sent before f answer) →
      worker.registry = w.worker.registry → worker.placements = w.worker.placements →
      worker.pendingFences = w.worker.pendingFences →
        Kept net first (FairBooks net counts begun) ⟨worker, w.log ++ [e]⟩ := by
    intro worker e he hreg hplacements hfences
    refine hkept.act fun l x scene hl hx _ _ htells hK => hK.snoc fun t _ _ _ hbooks => ?_
    refine hbooks.idle htells (Entry.writes?_of_unsent ?_) hreg hplacements hfences
    rwa [hx]
  cases h with
  | registry registry =>
    have hsame : ({ w.worker with registry } : Worker) = w.worker := by
      rw [show registry = w.worker.registry from hregistry]
    rw [hsame]
    exact hkept
  | apply hconflict h => exact hnote _ _ (fun _ _ _ h => by cases h) rfl rfl rfl
  | reconcile now h =>
    refine Kept.executed hnet h ControlPlane.reconcileServices_planned
      ControlPlane.nodup_reconcileServices rfl rfl
      List.mem_concat_self ?_
    exact hnote _ _ (fun _ _ _ h => by cases h) rfl rfl rfl
  | delete now ord hget h =>
    refine Kept.executed hnet h ControlPlane.deleteActions_planned
      (ControlPlane.nodup_deleteActions ord _) rfl rfl
      List.mem_concat_self ?_
    exact hnote _ _ (fun _ _ _ h => by cases h) rfl rfl rfl
  | read answer hsite hput =>
    refine hkept.act fun l x scene hl hx _ _ htells hK => hK.snoc fun t _ _ _ hbooks => ?_
    refine hbooks.idle htells ?_ rfl rfl rfl
    rw [Entry.writes?_sent hx]
    exact writes?_read hput
  | @put f name answer hpath hmethod hsite howner =>
    refine hkept.act fun l x scene hl hx _ _ htells hK => hK.snoc fun t _ hxt hfair hbooks => ?_
    refine hbooks.put htells hfair hx hpath hmethod rfl rfl (fun _ _ => rfl) ?_
    intro k k' hk hne hheld halive _
    have hothers := hfair.others_of_carried hx hpath hk hne hheld hxt halive
    exact hothers.1 hsite (by rw [hmethod]; intro h; cases h)
  | @drop f name answer hpath hmethod hsite =>
    refine hkept.act fun l x scene hl hx _ _ htells hK => hK.snoc fun t _ hxt hfair hbooks => ?_
    refine hbooks.drop htells hx hpath hmethod rfl rfl rfl ?_
    intro k k' hk hne hheld halive _
    have hothers := hfair.others_of_carried hx hpath hk hne hheld hxt halive
    exact hothers.1 hsite (by rw [hmethod]; intro h; cases h)
  | @promote name prep now answer hprep =>
    refine hkept.act fun l x scene hl hx _ _ htells hK => hK.snoc fun t _ hxt hfair hbooks => ?_
    refine hbooks.put htells hfair hx rfl rfl rfl rfl ?_ ?_
    · intro r hr
      rw [ControlPlane.ForceRepinPrep.settle, Table.lookup_insert_eq, if_neg hr]
    · intro k k' hk hne hheld halive _
      have hothers := hfair.others_of_carried hx rfl hk hne hheld hxt halive
      have hleaves := (ControlPlane.prepareForceRepin_ok hprep).placed
      rw [ControlPlane.ForceRepinPrep.settle, Table.lookup_insert_eq, if_pos rfl, ← hleaves]
      exact hothers.2 rfl
  | @fence nodeId r addr answer howed =>
    refine hkept.act fun l x scene hl hx _ _ htells hK => hK.snoc fun t _ _ hfair hbooks => ?_
    exact hbooks.fence hnet htells hfair.routed hx howed

theorem Kept.quiets (hnet : Function.Injective net.nodeId) {w w' : ControlPlane.World}
    (h : Quiets w w') (hkept : Kept net first (FairBooks net counts begun) w) :
    Kept net first (FairBooks net counts begun) w' := by
  induction h with
  | refl => exact hkept
  | tail _ hquiet ih => exact Kept.step hnet hquiet.step hquiet.registry ih

end Steps

/-! ## Requests -/

section Requests

variable {net : Net N} {counts : Option Site → Bool}

/-- What is asked of each request. -/
structure Served.Fair (net : Net N) (counts : Option Site → Bool) (x : Served N) : Prop where
  registers : Registers net x.request
  answered : ∀ e ∈ x.log, e.PutAnswered
  returned : x.KeepsReturned net counts
  others : ∀ e ∈ x.log, e.KeepsOthers net counts

/-- **The call of a request keeps the books right.** -/
theorem Served.Fair.begin {x : Served N} (h : x.Fair net counts) {worker : Worker} {begun : Instant}
    (hsplits : x.Splits net worker begun)
    (hbooks : Books net counts x.before.worker x.before.scene x.before.clock) :
    Books net counts worker x.before.scene begun := by
  rcases hsplits.call with ⟨rfl, rfl⟩ | ⟨rfl, hle, call, hcall, rfl⟩
  · exact hbooks
  · refine ⟨hbooks.honest.call h.registers hcall, fun k r hholds halive => ?_⟩
    by_cases hbefore : Alive net x.before.worker k x.now
    · exact (hbooks.mono hle).tracked k r hholds hbefore
    · exact h.returned call hcall k hbefore halive r hholds.2.2 hholds

/-- **A request keeps the books right.** -/
theorem Served.Fair.books (hnet : Function.Injective net.nodeId) {x : Served N}
    (h : x.Fair net counts) {worker : Worker} {begun : Instant}
    (hsplits : x.Splits net worker begun)
    (hbooks : Books net counts x.before.worker x.before.scene x.before.clock) :
    Books net counts x.after.worker x.after.scene x.after.clock := by
  have hbegin : Kept net x.before.scene (FairBooks net counts begun) ⟨worker, []⟩ :=
    .begin fun scene hsame _ t ht _ => ((h.begin hsplits hbooks).mono ht).same hsame
  have hend := Kept.quiets hnet hsplits.quiets hbegin
  have hrouted := hsplits.quiets.routed (by simp)
  refine hend x.log x.after.scene rfl hsplits.truthful (fun e he => ?_) _ hsplits.begun_le
    fun e he => (hsplits.now e he).2
  exact ⟨⟨hrouted _ (List.mem_map_of_mem he), h.answered e he, h.others e he⟩,
    (hsplits.now e he).1⟩

/-- **Every request of a run keeps the books right.** -/
theorem history_books [Ipnet] (hnet : Function.Injective net.nodeId) (script : Script N) :
    ∀ {s : State N}, s.Synced → Books net counts s.worker s.scene s.clock →
      (∀ x ∈ history net s script, x.Fair net counts) → ∀ x ∈ history net s script,
        (∃ worker begun, x.Splits net worker begun) ∧
        Books net counts x.before.worker x.before.scene x.before.clock ∧
        Books net counts x.after.worker x.after.scene x.after.clock := by
  refine history_rule (I := fun s => Books net counts s.worker s.scene s.clock) ?_ script
  intro x worker begun hsplits hfair hbooks
  have hafter := hfair.books hnet hsplits hbooks
  exact ⟨⟨⟨worker, begun, hsplits⟩, hbooks, hafter⟩, hafter⟩

omit [DecidableEq N] in
/-- A new cluster has nothing to keep books of. -/
theorem start_books (net : Net N) (counts : Option Site → Bool) (clusterCidr serviceCidr : Ipv4Net)
    (pools : N → String) (zfs : N → Agent.FakeZfsManager) :
    Books net counts (start clusterCidr serviceCidr pools zfs).worker
      (start clusterCidr serviceCidr pools zfs).scene
      (start clusterCidr serviceCidr pools zfs).clock := by
  refine ⟨nofun, fun k r hholds => ?_⟩
  have hrecords := hholds.2.2
  rw [State.scene, start_reconciler] at hrecords
  cases hrecords

end Requests

/-! ## The replicas of services -/

/-- Created by a `Schedule` or a force-repin. -/
def ofService : Option Site → Bool
  | some (.schedule _) => true
  | some .promote => true
  | _ => false

theorem ofService_operator {site : Site} (h : site.operator = true) :
    ofService (some site) = false := by
  cases site with
  | direct => rfl
  | scheduled => rfl
  | _ => cases h

/-- A jail put for a service is not the ingress's. -/
def NamesReplica : Event → Prop
  | .sent _ f _ =>
    f.method = .put → ofService (some f.site) = true → ∀ r ∈ f.jail?, r ≠ "ingress"
  | _ => True

section Names

open ControlPlane (Executed Step)

theorem namesReplica_step {w w' : ControlPlane.World} (h : Step w w')
    (hw : ∀ e ∈ w.log, NamesReplica e) : ∀ e ∈ w'.log, NamesReplica e := by
  have hadd : ∀ {l : List Event} {e : Event}, (∀ e ∈ l, NamesReplica e) → NamesReplica e →
      ∀ e' ∈ l ++ [e], NamesReplica e' := by
    intro l e hl he e' he'
    rcases List.mem_append.1 he' with he' | he'
    · exact hl e' he'
    · rwa [List.mem_singleton.1 he']
  have hexecuted : ∀ {w₁ w₂ : ControlPlane.World} {as : List ReplicaAction}, Executed w₁ as w₂ →
      (∀ a ∈ as, ∀ before answer, NamesReplica (.sent before a.forward answer)) →
      (∀ e ∈ w₁.log, NamesReplica e) → ∀ e ∈ w₂.log, NamesReplica e := by
    intro w₁ w₂ as hdone has hw₁
    refine hdone.invariant (C := fun _ => True) (I := fun w => ∀ e ∈ w.log, NamesReplica e) ?_
      (fun _ _ => trivial) hw₁
    exact fun ha _ hI => hadd hI (has _ ha _ _)
  cases h with
  | registry => exact hw
  | apply => exact hadd hw trivial
  | reconcile now h =>
    refine hexecuted h (fun a ha before answer => ?_) (hadd hw trivial)
    have hplanned := ControlPlane.reconcileServices_planned a ha
    cases a with
    | schedule =>
      intro _ _ r hr
      cases hr
      exact hplanned.ne_ingress
    | tearDown => exact fun hput => nomatch hput
  | delete now ord hget h =>
    refine hexecuted h (fun a ha before answer => ?_) (hadd hw trivial)
    obtain ⟨r, nodeId, nodeAddr, rfl, -⟩ := ControlPlane.mem_deleteActions.1 ha
    exact fun hput => nomatch hput
  | @read f answer hsite hget =>
    refine hadd hw fun hput _ r hr => ?_
    rw [ControlPlane.Forward.jail?.eq_def] at hr
    split at hr
    · rename_i hpath
      rw [hget _ hpath] at hput
      cases hput
    · cases hr
  | @put f name answer hpath hmethod hsite =>
    refine hadd hw fun _ hof => ?_
    rw [ofService_operator hsite] at hof
    cases hof
  | @drop f name answer hpath hmethod =>
    refine hadd hw fun hput => ?_
    rw [hmethod] at hput
    cases hput
  | promote now answer h =>
    refine hadd hw fun _ _ r hr => ?_
    cases hr
    exact (ControlPlane.prepareForceRepin_ok h).ne_ingress
  | fence => exact hadd hw fun hput => nomatch hput

theorem namesReplica_quiets {w w' : ControlPlane.World} (h : Quiets w w')
    (hw : ∀ e ∈ w.log, NamesReplica e) : ∀ e ∈ w'.log, NamesReplica e := by
  induction h with
  | refl => exact hw
  | tail _ hquiet ih => exact namesReplica_step hquiet.step ih

end Names

/-- No agent's ingress was created for a service. -/
def Scene.Named (scene : Scene N) : Prop :=
  ∀ k r, ofService (scene.creators k r) = true → r ≠ "ingress"

theorem Scene.Named.truthful {net : Net N} {first scene : Scene N} {l : List (Entry N)}
    (h : Truthful net first l scene) (hfirst : first.Named)
    (hnames : ∀ x ∈ l, NamesReplica x.event) : scene.Named := by
  induction h with
  | start => exact hfirst
  | own _ hsame ih =>
    intro k r hcounts
    rw [hsame.creators] at hcounts
    exact ih hnames k r hcounts
  | @act l x b _ _ htells ih =>
    intro k r hcounts
    have hbefore := ih fun y hy => hnames y (List.mem_append_left _ hy)
    have hlast := hnames x List.mem_concat_self
    rw [htells.creators k r, Entry.creatorAfter] at hcounts
    split at hcounts
    · rename_i before f answer hx
      split at hcounts
      · -- The forward created it: it is a `PUT` of a replica.
        rename_i hput
        obtain ⟨⟨r', y⟩, hwrites, hr⟩ := (Option.any_eq_true _ _).1 hput.2.1
        rw [Bool.and_eq_true, beq_iff_eq] at hr
        obtain ⟨rfl, hy⟩ := hr
        obtain ⟨spec, rfl⟩ := Option.isSome_iff_exists.1 hy
        obtain ⟨hmethod, hpath⟩ := put_of_writes? hwrites
        rw [hx] at hlast
        exact hlast hmethod hcounts r' (by rw [ControlPlane.Forward.jail?, hpath]; rfl)
      · exact hbefore k r hcounts
    · exact hbefore k r hcounts

theorem history_named [Ipnet] (net : Net N) (script : Script N) {s : State N} (hsynced : s.Synced)
    (hnamed : s.scene.Named) : ∀ x ∈ history net s script, x.after.scene.Named := by
  refine history_rule (I := fun s => s.scene.Named) (C := fun _ => True) ?_ script hsynced hnamed
    fun _ _ => trivial
  intro x worker begun hsplits _ hbefore
  have hnames := namesReplica_quiets hsplits.quiets (by simp)
  have hafter : x.after.scene.Named := hbefore.truthful hsplits.truthful fun e he =>
    hnames e.event (List.mem_map_of_mem he)
  exact ⟨hafter, hafter⟩

/-- **No untracked copies.** In every run in which forwards are answered or
not carried out, no node comes back with a copy that is not tracked, and
no operator's request or promotion takes a replica's placement from under
a live copy: at the end of every request, a live node that has a jail a
`Schedule` or a force-repin created there is the one it is placed on, or
owes its delete. -/
theorem copies_tracked [Ipnet] (net : Net N) (hnet : Function.Injective net.nodeId)
    (clusterCidr serviceCidr : Ipv4Net) (pools : N → String) (zfs : N → Agent.FakeZfsManager)
    (script : Script N)
    (hregisters : ∀ x ∈ history net (start clusterCidr serviceCidr pools zfs) script,
      Registers net x.request)
    (hanswered : ∀ x ∈ history net (start clusterCidr serviceCidr pools zfs) script,
      ∀ e ∈ x.log, e.Answered)
    (hreturned : ∀ x ∈ history net (start clusterCidr serviceCidr pools zfs) script,
      x.KeepsReturned net ofService)
    (hothers : ∀ x ∈ history net (start clusterCidr serviceCidr pools zfs) script,
      ∀ e ∈ x.log, e.KeepsOthers net ofService) :
    ∀ x ∈ history net (start clusterCidr serviceCidr pools zfs) script, ∀ k r,
      r ∈ (x.after.cluster.agents k).reconciler.records.keys →
      ofService (x.after.creators k r) = true → Alive net x.after.worker k x.after.clock →
        x.after.worker.Tracks r (net.nodeId k) := by
  intro x hx k r hrecord hcounts halive
  have hsynced := start_synced clusterCidr serviceCidr pools zfs
  have hnamed := history_named net script hsynced (fun _ _ h => nomatch h) x hx
  have hfair : ∀ y ∈ history net (start clusterCidr serviceCidr pools zfs) script,
      y.Fair net ofService := fun y hy =>
    ⟨hregisters y hy, fun e he => (hanswered y hy e he).put, hreturned y hy, hothers y hy⟩
  obtain ⟨-, -, hbooks⟩ := history_books hnet script hsynced
    (start_books net ofService clusterCidr serviceCidr pools zfs) hfair x hx
  exact hbooks.tracked k r ⟨hnamed k r hcounts, hcounts, hrecord⟩ halive

namespace Sample

open ControlPlane.Sample (register heartbeat service data)

/-- `a` is taken for dead, `db-0` is promoted to `b`, and `a` comes back. -/
def dbFenced : Script (Fin 4) :=
  [(register "a", after 0), (register "b", after 0), (register "c", after 0),
    (register "d", after 0), (service "db" 1 data, after 1), (heartbeat "b", afterTick 9 0),
    (heartbeat "c", after 0), (heartbeat "d", after 0), (.forceRepin "db-0", after 10),
    (heartbeat "a", after 1)]

/-- `a` is taken for dead, `web-0` is put on `b`, and `a` comes back. -/
def webLeft : Script (Fin 4) :=
  [(register "a", after 0), (service "web" 1 [], after 1), (register "b", after 9),
    (heartbeat "b", after 10), (heartbeat "a", after 1)]

end Sample

open Sample Cluster.Sample Agent.Sample in
theorem copies_tracked_sample :
    (final net spawn dbFenced).worker.placements.lookup "db-0" = some "b" ∧
      ∀ x ∈ history net spawn dbFenced, ∀ k r,
        r ∈ (x.after.cluster.agents k).reconciler.records.keys →
        ofService (x.after.creators k r) = true → Alive net x.after.worker k x.after.clock →
          x.after.worker.Tracks r (net.nodeId k) :=
  ⟨by decide +kernel, copies_tracked net (by decide) _ _ _ _ dbFenced (by decide +kernel)
    (by decide +kernel) (by decide +kernel) (by decide +kernel)⟩

open Sample Cluster.Sample Agent.Sample in
/-- **A copy left behind.** Everything is answered, `a` is alive and has
`web-0` from its first `Schedule`, and neither table says so. -/
theorem copy_untracked :
    (∀ x ∈ history net spawn webLeft, ∀ e ∈ x.log, e.Answered) ∧
      "web-0" ∈ ((final net spawn webLeft).cluster.agents 0).reconciler.records.keys ∧
      ofService ((final net spawn webLeft).creators 0 "web-0") = true ∧
      Alive net (final net spawn webLeft).worker 0 (final net spawn webLeft).clock ∧
      ¬ (final net spawn webLeft).worker.Tracks "web-0" (net.nodeId 0) := by
  refine ⟨?_, ?_, ?_, ?_, ?_⟩ <;> decide +kernel

end Serial

end Keel
