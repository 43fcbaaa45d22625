import Keel.Common.Text
import Keel.ControlPlane.Model.Worker
import Keel.ControlPlane.Helpers.Promotions
/-!
# What the worker's plans rest on

What a prepared force-repin and the actions of a reconcile pass say about
the tables they were planned against: a pass tears down replicas only
(`reconcileServices_tearDown`), and schedules no two jails at one address
(`reconcileServices_assigned`).
-/

namespace Keel

namespace ControlPlane

/-- **What a prepared force-repin rests on.** The replica is placed on a
node that no longer resolves, its standby resolves, and the address it is
to have there is free. -/
structure Prepared (w : Worker) (now : Instant) (r : String) (prep : ForceRepinPrep) : Prop where
  placed : w.placements.lookup r = some prep.oldNodeId
  standby : w.standbys.lookup r = some prep.standbyNodeId
  old_dead : (w.registry.resolve prep.oldNodeId now).isOk = false
  standby_alive : w.registry.resolve prep.standbyNodeId now = .ok prep.standbyAddr
  owned : ∃ s record, ownerOf r w.placements w.services = some (.service s) ∧
    w.services.get s = some record ∧ prep.template = record.template
  fresh : prep.freshStandbyNodeId ≠ prep.oldNodeId ∧ prep.freshStandbyNodeId ≠ prep.standbyNodeId
  freshAddr : w.registry.replicateAddr prep.freshStandbyNodeId = some prep.freshStandbyAddr
  free : w.usedAddresses.isUsed prep.standbyNodeId prep.address = false
  inside : ∃ podCidr, w.registry.podCidr prep.standbyNodeId = some podCidr ∧
    prep.address ∈ podCidr.hosts
  prefixLen_le : prep.prefixLen ≤ 32

theorem prepareForceRepin_ok {w : Worker} {now : Instant} {r : String} {prep : ForceRepinPrep}
    (h : w.prepareForceRepin now r = .ok prep) : Prepared w now r prep := by
  obtain ⟨old, standby, standbyAddr, record, fresh, freshAddr, podCidr, address, hprom, hfresh,
    hreplicate, hpod, haddress, rfl⟩ := exists_of_prepareForceRepin h
  obtain ⟨s, howner, hget⟩ := hprom.owned
  have hexclude := hfresh.1
  simp only [Set.mem_compl_iff, Set.mem_insert_iff, Set.mem_singleton_iff, not_or] at hexclude
  exact ⟨hprom.placed, hprom.paired, hprom.old_dead, hprom.resolves, ⟨s, record, howner, hget, rfl⟩,
    hexclude, hreplicate, isUsed_of_firstFreeAddress haddress,
    ⟨podCidr, hpod, mem_hosts_of_firstFreeAddress haddress⟩, podCidr.prefixLen_le⟩

/-- The standby is another node than the one that is gone. -/
theorem Prepared.standby_ne {w : Worker} {now : Instant} {r : String} {prep : ForceRepinPrep}
    (h : Prepared w now r prep) : prep.standbyNodeId ≠ prep.oldNodeId := by
  intro heq
  have hdead := h.old_dead
  rw [← heq, h.standby_alive] at hdead
  cases hdead

/-! ## Replica names -/

theorem toList_replicaName (s : String) (i : ℕ) :
    (replicaName s i).toList = s.toList ++ '-' :: Nat.toDigits 10 i := by
  rw [replicaName, toList_join, toList_toString]

/-- **A name is the replica of one service, at one index.** -/
theorem replicaName_inj {s s' : String} {i j : ℕ} (h : replicaName s i = replicaName s' j) :
    s = s' ∧ i = j :=
  join_toString_inj.1 h

theorem eq_replicaName_of_replicaIndex {s name : String} {i : ℕ}
    (h : replicaIndex s name = some i) : name = replicaName s i := by
  simp only [replicaIndex, bind, Option.bind_eq_some_iff] at h
  obtain ⟨rest, hrest, suffix, hsuffix, index, hindex, hprint⟩ := h
  rw [List.dropPrefix?_eq_some_iff] at hrest hsuffix
  obtain ⟨p, hp, hps⟩ := hrest
  obtain ⟨q, hq, hqs⟩ := hsuffix
  rw [beq_iff_eq] at hps hqs
  split at hprint
  · rename_i hs
    cases hprint
    apply String.toList_injective
    rw [toList_replicaName, hp, hps, hq, hqs]
    have := congrArg String.toList hs
    change (Nat.repr i).toList = _ at this
    rw [Nat.toList_repr, String.toList_ofList] at this
    rw [this]
    rfl
  · cases hprint

/-- A name made of an index reads as that index. -/
theorem replicaIndex_replicaName {i : ℕ} (hi : i < 2 ^ 32) (s : String) :
    replicaIndex s (replicaName s i) = some i := by
  simp only [replicaIndex, toList_replicaName, bind, Option.bind_eq_some_iff]
  refine ⟨'-' :: Nat.toDigits 10 i, ?_, Nat.toDigits 10 i, ?_, i, ?_, ?_⟩
  · rw [List.dropPrefix?_eq_some_iff]
    exact ⟨_, rfl, beq_self_eq_true _⟩
  · rw [List.dropPrefix?_eq_some_iff]
    exact ⟨['-'], rfl, beq_self_eq_true _⟩
  · exact parseUnsigned_toString hi
  · have hprint : toString i = String.ofList (Nat.toDigits 10 i) := rfl
    rw [if_pos hprint]

/-- A name is the replica of one service. -/
theorem service_unique {s s' name : String} (h : (replicaIndex s name).isSome = true)
    (h' : (replicaIndex s' name).isSome = true) : s = s' := by
  obtain ⟨i, hi⟩ := Option.isSome_iff_exists.1 h
  obtain ⟨j, hj⟩ := Option.isSome_iff_exists.1 h'
  have hname := eq_replicaName_of_replicaIndex hi
  rw [eq_replicaName_of_replicaIndex hj] at hname
  exact (replicaName_inj hname).1.symm

theorem mem_placed {w : Worker} {s name nodeId : String} {i : ℕ} :
    (i, name, nodeId) ∈ w.placed s ↔
      w.placements.lookup name = some nodeId ∧ replicaIndex s name = some i := by
  simp only [Worker.placed, List.mem_filterMap, Option.map_eq_some_iff, Prod.mk.injEq]
  constructor
  · rintro ⟨e, he, idx, hidx, rfl, rfl, rfl⟩
    exact ⟨AList.mem_lookup_iff.2 he, hidx⟩
  · rintro ⟨hlookup, hidx⟩
    exact ⟨⟨name, nodeId⟩, AList.mem_lookup_iff.1 hlookup, i, hidx, rfl, rfl, rfl⟩

/-- A present index is that of a placed name. -/
theorem mem_presentIndices {w : Worker} {now : Instant} {s : String} {record : ServiceRecord}
    {i : ℕ} (h : i ∈ w.presentIndices now s record) :
    replicaIndex s (replicaName s i) = some i := by
  have hplaced : ∃ name nodeId, (i, name, nodeId) ∈ w.placed s := by
    simp only [Worker.presentIndices] at h
    split at h
    · simp only [List.mem_toFinset, List.mem_map, List.mem_filter] at h
      obtain ⟨⟨_, name, nodeId⟩, ⟨hmem, -⟩, rfl⟩ := h
      exact ⟨name, nodeId, hmem⟩
    · simp only [List.mem_toFinset, List.mem_map] at h
      obtain ⟨⟨_, name, nodeId⟩, hmem, rfl⟩ := h
      exact ⟨name, nodeId, hmem⟩
  obtain ⟨name, nodeId, hmem⟩ := hplaced
  have hidx := (mem_placed.1 hmem).2
  rwa [eq_replicaName_of_replicaIndex hidx] at hidx

theorem mem_services_list {s : Services} {name : String} {record : ServiceRecord} :
    (name, record) ∈ s.list ↔ s.get name = some record := by
  simp only [Services.list, List.mem_insertionSort, List.mem_map, Services.get]
  constructor
  · rintro ⟨e, he, heq⟩
    cases heq
    exact AList.mem_lookup_iff.2 he
  · intro h
    exact ⟨⟨name, record⟩, AList.mem_lookup_iff.1 h, rfl⟩

theorem nodup_services_list (s : Services) : (s.list.map Prod.fst).Nodup := by
  have hperm : (s.list.map Prod.fst).Perm s.byName.keys := by
    refine ((List.perm_insertionSort _ _).map _).trans ?_
    rw [List.map_map]
    exact List.Perm.refl _
  exact hperm.nodup_iff.2 s.byName.keys_nodup

theorem mem_toRemove {desired : ℕ} {h : Finset ℕ} {i : ℕ} (hi : i ∈ (diffReplicas desired h).2) :
    i ∈ h := by
  simp only [diffReplicas] at hi
  split at hi
  · simp at hi
  · split at hi
    · have := List.mem_of_mem_take hi
      simp only [ascending, List.mem_reverse, List.mem_filter, decide_eq_true_eq] at this
      exact this.2
    · simp at hi

/-- The indices to add come in ascending order. -/
theorem leastMissing_sorted (h : Finset ℕ) :
    ∀ left i count, (∀ j ∈ leastMissing h left i count, i ≤ j) ∧
      (leastMissing h left i count).Pairwise (· < ·) := by
  intro left
  induction left with
  | zero => intro i count; simp [leastMissing]
  | succ left ih =>
    intro i count
    cases count with
    | zero => simp [leastMissing]
    | succ count =>
      simp only [leastMissing]
      split
      · refine ⟨fun j hj => ?_, (ih (i + 1) (count + 1)).2⟩
        have := (ih (i + 1) (count + 1)).1 j hj
        omega
      · obtain ⟨hle, hsorted⟩ := ih (i + 1) count
        refine ⟨?_, List.pairwise_cons.2 ⟨fun j hj => ?_, hsorted⟩⟩
        · intro j hj
          rcases List.mem_cons.1 hj with rfl | hj
          · exact le_rfl
          · have := hle j hj
            omega
        · have := hle j hj
          omega

/-- They are missing, and no greater than an index can be. -/
theorem mem_leastMissing {h : Finset ℕ} {j : ℕ} :
    ∀ {left i count}, j ∈ leastMissing h left i count → j ∉ h ∧ j < i + left := by
  intro left
  induction left with
  | zero => intro i count hj; simp [leastMissing] at hj
  | succ left ih =>
    intro i count hj
    cases count with
    | zero => simp [leastMissing] at hj
    | succ count =>
      simp only [leastMissing] at hj
      split at hj
      · have := ih hj
        exact ⟨this.1, by omega⟩
      · rename_i hi
        rcases List.mem_cons.1 hj with rfl | hj
        · exact ⟨hi, by omega⟩
        · have := ih hj
          exact ⟨this.1, by omega⟩

theorem mem_toAdd {desired : ℕ} {h : Finset ℕ} {i : ℕ} (hi : i ∈ (diffReplicas desired h).1) :
    i ∉ h ∧ i < 2 ^ 32 := by
  simp only [diffReplicas] at hi
  split at hi
  · have := mem_leastMissing hi
    exact ⟨this.1, by omega⟩
  · split at hi <;> cases hi

/-- No index is added or removed twice. -/
theorem nodup_diffReplicas (desired : ℕ) (h : Finset ℕ) :
    ((diffReplicas desired h).1 ++ (diffReplicas desired h).2).Nodup := by
  simp only [diffReplicas]
  split
  · rw [List.append_nil]
    exact (leastMissing_sorted h _ _ _).2.imp fun hlt => Nat.ne_of_lt hlt
  · split
    · have hascending : (ascending h).Nodup := List.nodup_range.filter _
      exact (List.nodup_reverse.2 hascending).sublist (List.take_sublist _ _)
    · exact List.nodup_nil

theorem nodup_toAdd (desired : ℕ) (h : Finset ℕ) : (diffReplicas desired h).1.Nodup :=
  (nodup_diffReplicas desired h).of_append_left

/-! ## A reconcile plan -/

section Reconcile

variable {w : Worker} {now : Instant}

/-- **One more schedule**, on a node that resolves, at an address that is
free there as far as the pass knows; or nothing. -/
theorem scheduleReplica_cases (w : Worker) (now : Instant) (s : String) (record : ServiceRecord)
    (p : Worker.Plan) (i : ℕ) :
    w.scheduleReplica now s record p i = p ∨
      ∃ nodeId nodeAddr podCidr address standby,
        pickNodeForService Binary64.nearest (w.aliveNodes now) p.busy = .ok nodeId ∧
        w.registry.podCidr nodeId = some podCidr ∧
        firstFreeAddress podCidr nodeId p.workingUsed = some address ∧
        w.registry.resolve nodeId now = .ok nodeAddr ∧
        standby = (if record.template.volumes = [] then none
          else w.pickStandby now nodeId (insert nodeId p.busy)) ∧
        w.scheduleReplica now s record p i =
          { actions := p.actions ++ [.schedule (replicaName s i) nodeId nodeAddr record.template
              address podCidr.prefixLen (standby.map Prod.fst) (standby.map Prod.snd)]
            workingUsed := p.workingUsed.record (replicaName s i) nodeId address
            busy := insert nodeId p.busy } := by
  simp only [Worker.scheduleReplica]
  split
  · exact Or.inl rfl
  rename_i nodeId hpick
  split
  · exact Or.inl rfl
  rename_i podCidr hpod
  split
  · exact Or.inl rfl
  rename_i address haddress
  split
  · exact Or.inl rfl
  rename_i nodeAddr hresolve
  exact Or.inr ⟨nodeId, nodeAddr, podCidr, address, _, hpick, hpod, haddress, hresolve, rfl, rfl⟩

/-- One more tear-down, of a placed replica on a node that resolves, or
nothing. -/
theorem tearDownReplica_cases (w : Worker) (now : Instant) (s : String) (p : Worker.Plan)
    (i : ℕ) :
    w.tearDownReplica now s p i = p ∨
      ∃ nodeId nodeAddr, w.placements.lookup (replicaName s i) = some nodeId ∧
        w.registry.resolve nodeId now = .ok nodeAddr ∧
        w.tearDownReplica now s p i =
          { p with actions := p.actions ++ [.tearDown (replicaName s i) nodeId nodeAddr] } := by
  simp only [Worker.tearDownReplica]
  split
  · exact Or.inl rfl
  rename_i nodeId hplaced
  split
  · exact Or.inl rfl
  rename_i nodeAddr hresolve
  exact Or.inr ⟨nodeId, nodeAddr, hplaced, hresolve, rfl⟩

/-- **What every action of a pass is.** A property of the schedules and
the tear-downs of each service is one of the whole pass. -/
theorem reconcileServices_forall {P : ReplicaAction → Prop}
    (hadd : ∀ {s record i nodeId nodeAddr podCidr address standby} {p : Worker.Plan},
      w.services.get s = some record →
      i ∈ (diffReplicas record.desiredReplicas (w.presentIndices now s record)).1 →
      w.registry.podCidr nodeId = some podCidr →
      firstFreeAddress podCidr nodeId p.workingUsed = some address →
      w.registry.resolve nodeId now = .ok nodeAddr →
      standby = (if record.template.volumes = [] then none
        else w.pickStandby now nodeId (insert nodeId p.busy)) →
      P (.schedule (replicaName s i) nodeId nodeAddr record.template address podCidr.prefixLen
        (standby.map Prod.fst) (standby.map Prod.snd)))
    (hremove : ∀ {s record i nodeId nodeAddr},
      w.services.get s = some record →
      i ∈ (diffReplicas record.desiredReplicas (w.presentIndices now s record)).2 →
      w.placements.lookup (replicaName s i) = some nodeId →
      w.registry.resolve nodeId now = .ok nodeAddr →
      P (.tearDown (replicaName s i) nodeId nodeAddr)) :
    ∀ a ∈ w.reconcileServices now, P a := by
  have hpass := List.foldlRecOn (motive := fun p : Worker.Plan => ∀ a ∈ p.actions, P a)
    w.services.list (w.planService now) (b := ⟨[], w.usedAddresses, ∅⟩) (by simp)
  refine hpass ?_
  rintro p hp ⟨s, record⟩ hservice
  have hget := mem_services_list.1 hservice
  simp only [Worker.planService]
  -- For each service, the schedules come first and then the tear-downs.
  refine List.foldlRecOn (motive := fun p : Worker.Plan => ∀ a ∈ p.actions, P a) _ _
    (List.foldlRecOn (motive := fun p : Worker.Plan => ∀ a ∈ p.actions, P a) _ _ hp ?_) ?_
  · intro p hp i hi
    rcases scheduleReplica_cases w now s record p i with
      h | ⟨nodeId, nodeAddr, podCidr, address, standby, -, hpod, haddress, hresolve, hstandby, h⟩
    · rwa [h]
    · rw [h]
      intro a ha
      rcases List.mem_append.1 ha with ha | ha
      · exact hp a ha
      · rw [List.mem_singleton.1 ha]
        exact hadd hget hi hpod haddress hresolve hstandby
  · intro p hp i hi
    rcases tearDownReplica_cases w now s p i with h | ⟨nodeId, nodeAddr, hplaced, hresolve, h⟩
    · rwa [h]
    · rw [h]
      intro a ha
      rcases List.mem_append.1 ha with ha | ha
      · exact hp a ha
      · rw [List.mem_singleton.1 ha]
        exact hremove hget hi hplaced hresolve

/-- **What a schedule of a pass rests on.** It is of a replica the pass
misses, goes to a node that resolves, at an address of its pod network,
and names a standby only for a stateful replica, and another node. -/
structure Scheduled (w : Worker) (now : Instant) (r nodeId nodeAddr : String)
    (template : JailTemplate) (address : Ipv4Addr) (standbyNodeId standbyAddr : Option String) :
    Prop where
  missing : ∃ s record i, w.services.get s = some record ∧ template = record.template ∧
    r = replicaName s i ∧ replicaIndex s r = some i ∧ i ∉ w.presentIndices now s record
  resolves : w.registry.resolve nodeId now = .ok nodeAddr
  inside : ∃ podCidr, w.registry.podCidr nodeId = some podCidr ∧ address ∈ podCidr.hosts
  standby : standbyNodeId = none ∧ standbyAddr = none ∨
    ∃ m addr, standbyNodeId = some m ∧ standbyAddr = some addr ∧ m ≠ nodeId ∧ template.volumes ≠ []

/-- What an action of a pass rests on. -/
def Planned (w : Worker) (now : Instant) : ReplicaAction → Prop
  | .schedule r nodeId nodeAddr template address _ standbyNodeId standbyAddr =>
    Scheduled w now r nodeId nodeAddr template address standbyNodeId standbyAddr
  | .tearDown r nodeId nodeAddr =>
    w.placements.lookup r = some nodeId ∧ w.registry.resolve nodeId now = .ok nodeAddr

theorem pickStandby_ne {nodeId : String} {busy : Finset String} {x : String × String}
    (h : w.pickStandby now nodeId busy = some x) : x.1 ≠ nodeId := by
  simp only [Worker.pickStandby] at h
  split at h
  · cases h
  split at h
  · cases h
  rename_i hne
  obtain ⟨addr, -, rfl⟩ := Option.map_eq_some_iff.1 h
  exact hne

theorem reconcileServices_planned : ∀ a ∈ w.reconcileServices now, Planned w now a := by
  refine reconcileServices_forall ?_ fun _ _ hplaced hresolve => ⟨hplaced, hresolve⟩
  intro s record i nodeId nodeAddr podCidr address standby p hget hi hpod haddress hresolve hstandby
  obtain ⟨hmissing, hlt⟩ := mem_toAdd hi
  have hhost := mem_hosts_of_firstFreeAddress haddress
  refine ⟨⟨s, record, i, hget, rfl, rfl, replicaIndex_replicaName hlt s, hmissing⟩, hresolve,
    ⟨podCidr, hpod, hhost⟩, ?_⟩
  cases standby with
  | none => exact Or.inl ⟨rfl, rfl⟩
  | some x =>
    refine Or.inr ⟨x.1, x.2, rfl, rfl, ?_⟩
    split at hstandby
    · cases hstandby
    · rename_i hvolumes
      exact ⟨pickStandby_ne hstandby.symm, hvolumes⟩

/-- The prefix a replica is sent with is a network's. -/
theorem reconcileServices_prefixLen_le : ∀ a ∈ w.reconcileServices now,
    ∀ r nodeId nodeAddr template address prefixLen standbyNodeId standbyAddr,
      a = .schedule r nodeId nodeAddr template address prefixLen standbyNodeId standbyAddr →
        prefixLen ≤ 32 := by
  refine reconcileServices_forall (fun {s record i nodeId nodeAddr podCidr address standby p}
    _ _ _ _ _ _ => ?_) fun _ _ _ _ => ?_
  · rintro _ _ _ _ _ _ _ _ ⟨⟩
    exact podCidr.prefixLen_le
  · rintro _ _ _ _ _ _ _ _ ⟨⟩

/-- A replica a pass schedules is placed on no node that resolves: it would
count as present there. -/
theorem Scheduled.dead_of_placed {r nodeId nodeAddr n : String} {template : JailTemplate}
    {address : Ipv4Addr} {standbyNodeId standbyAddr : Option String}
    (h : Scheduled w now r nodeId nodeAddr template address standbyNodeId standbyAddr)
    (hplaced : w.placements.lookup r = some n) : (w.registry.resolve n now).isOk = false := by
  rw [← Bool.not_eq_true]
  intro hresolves
  obtain ⟨s, record, i, -, -, -, hidx, hmissing⟩ := h.missing
  have hmem : (i, r, n) ∈ w.placed s := mem_placed.2 ⟨hplaced, hidx⟩
  refine hmissing ?_
  simp only [Worker.presentIndices]
  split
  · simp only [List.mem_toFinset, List.mem_map, List.mem_filter]
    exact ⟨_, ⟨hmem, hresolves⟩, rfl⟩
  · simp only [List.mem_toFinset, List.mem_map]
    exact ⟨_, hmem, rfl⟩

/-- So it is not placed where it is put. -/
theorem Scheduled.not_placed {r nodeId nodeAddr : String} {template : JailTemplate}
    {address : Ipv4Addr} {standbyNodeId standbyAddr : Option String}
    (h : Scheduled w now r nodeId nodeAddr template address standbyNodeId standbyAddr) :
    w.placements.lookup r ≠ some nodeId := by
  intro hplaced
  have hdead := h.dead_of_placed hplaced
  rw [h.resolves] at hdead
  cases hdead

/-- A stateful one is not placed at all. -/
theorem Scheduled.unplaced {r nodeId nodeAddr : String} {template : JailTemplate}
    {address : Ipv4Addr} {standbyNodeId standbyAddr : Option String}
    (h : Scheduled w now r nodeId nodeAddr template address standbyNodeId standbyAddr)
    (hvolumes : template.volumes ≠ []) : w.placements.lookup r = none := by
  obtain ⟨s, record, i, -, rfl, -, hidx, hmissing⟩ := h.missing
  by_contra hplaced
  obtain ⟨n, hn⟩ := Option.ne_none_iff_exists'.1 hplaced
  refine hmissing ?_
  simp only [Worker.presentIndices, if_neg hvolumes, List.mem_toFinset, List.mem_map]
  exact ⟨_, mem_placed.2 ⟨hn, hidx⟩, rfl⟩

/-- What a pass promises of a tear-down: a placed replica of a service
there is. -/
def TearsDownReplica (w : Worker) (a : ReplicaAction) : Prop :=
  ∀ r nodeId nodeAddr, a = .tearDown r nodeId nodeAddr →
    w.placements.lookup r = some nodeId ∧
      ∃ s record, w.services.get s = some record ∧ (replicaIndex s r).isSome

/-- **A pass tears down replicas only.** -/
theorem reconcileServices_tearDown :
    ∀ a ∈ w.reconcileServices now, TearsDownReplica w a := by
  refine reconcileServices_forall (fun _ _ _ _ _ _ => ?_) fun hget hi hplaced _ => ?_
  · rintro _ _ _ ⟨⟩
  · rintro _ _ _ ⟨⟩
    refine ⟨hplaced, _, _, hget, ?_⟩
    rw [mem_presentIndices (mem_toRemove hi)]
    rfl

/-- An action of a deletion: a placed replica of the service, on a node
that resolves. -/
theorem mem_deleteActions {ord : IterOrder} {name : String} {a : ReplicaAction} :
    a ∈ w.deleteActions now ord name ↔ ∃ r nodeId nodeAddr, a = .tearDown r nodeId nodeAddr ∧
      w.placements.lookup r = some nodeId ∧ (replicaIndex name r).isSome = true ∧
      w.registry.resolve nodeId now = .ok nodeAddr := by
  simp only [Worker.deleteActions, List.mem_filterMap]
  constructor
  · rintro ⟨⟨r, nodeId⟩, he, ha⟩
    split at ha
    · rename_i i nodeAddr hidx hresolve
      cases ha
      exact ⟨r, nodeId, nodeAddr, rfl, Table.mem_iter.1 he, by rw [hidx]; rfl, hresolve⟩
    · cases ha
  · rintro ⟨r, nodeId, nodeAddr, rfl, hplaced, hidx, hresolve⟩
    obtain ⟨i, hi⟩ := Option.isSome_iff_exists.1 hidx
    refine ⟨(r, nodeId), Table.mem_iter.2 hplaced, ?_⟩
    simp only [hi, hresolve]

theorem deleteActions_planned {ord : IterOrder} {name : String} :
    ∀ a ∈ w.deleteActions now ord name, Planned w now a := by
  intro a ha
  obtain ⟨r, nodeId, nodeAddr, rfl, hplaced, -, hresolve⟩ := mem_deleteActions.1 ha
  exact ⟨hplaced, hresolve⟩

theorem deleteActions_tearDown {ord : IterOrder} {name : String} {record : ServiceRecord}
    (hget : w.services.get name = some record) :
    ∀ a ∈ w.deleteActions now ord name, TearsDownReplica w a := by
  intro a ha
  obtain ⟨r, nodeId, nodeAddr, rfl, hplaced, hidx, -⟩ := mem_deleteActions.1 ha
  rintro _ _ _ ⟨⟩
  exact ⟨hplaced, name, record, hget, hidx⟩

/-! ## The names of a plan -/

/-- The jail an action is of. -/
def ReplicaAction.name : ReplicaAction → String
  | .schedule name .. => name
  | .tearDown name .. => name

/-- A pass through some indices adds an action for some of them, in
order. -/
theorem names_foldl {f : Worker.Plan → ℕ → Worker.Plan} {s : String}
    (hf : ∀ p i, (f p i).actions = p.actions ∨
      ∃ a, a.name = replicaName s i ∧ (f p i).actions = p.actions ++ [a]) (l : List ℕ) :
    ∀ p : Worker.Plan, ∃ l', l'.Sublist (l.map (replicaName s)) ∧
      (l.foldl f p).actions.map ReplicaAction.name = p.actions.map ReplicaAction.name ++ l' := by
  induction l with
  | nil => intro p; exact ⟨[], List.Sublist.refl _, (List.append_nil _).symm⟩
  | cons i l ih =>
    intro p
    obtain ⟨l', hsub, heq⟩ := ih (f p i)
    rcases hf p i with hp | ⟨a, hname, hp⟩
    · exact ⟨l', hsub.cons _, by rw [List.foldl_cons, heq, hp]⟩
    · refine ⟨replicaName s i :: l', hsub.cons_cons _, ?_⟩
      rw [List.foldl_cons, heq, hp, List.map_append, List.append_assoc]
      simp only [List.map_cons, List.map_nil, hname, List.cons_append, List.nil_append]

theorem names_planService (w : Worker) (now : Instant) (p : Worker.Plan)
    (service : String × ServiceRecord) :
    ∃ l', l'.Sublist (((diffReplicas service.2.desiredReplicas
        (w.presentIndices now service.1 service.2)).1 ++
        (diffReplicas service.2.desiredReplicas
          (w.presentIndices now service.1 service.2)).2).map (replicaName service.1)) ∧
      (w.planService now p service).actions.map ReplicaAction.name =
        p.actions.map ReplicaAction.name ++ l' := by
  obtain ⟨s, record⟩ := service
  simp only [Worker.planService]
  have hadd : ∀ p i, (w.scheduleReplica now s record p i).actions = p.actions ∨
      ∃ a, a.name = replicaName s i ∧
        (w.scheduleReplica now s record p i).actions = p.actions ++ [a] := by
    intro p i
    rcases scheduleReplica_cases w now s record p i with
      h | ⟨_, _, _, _, _, -, -, -, -, -, h⟩
    · exact Or.inl (by rw [h])
    · exact Or.inr ⟨_, rfl, congrArg Worker.Plan.actions h⟩
  have hremove : ∀ p i, (w.tearDownReplica now s p i).actions = p.actions ∨
      ∃ a, a.name = replicaName s i ∧
        (w.tearDownReplica now s p i).actions = p.actions ++ [a] := by
    intro p i
    rcases tearDownReplica_cases w now s p i with h | ⟨_, _, -, -, h⟩
    · exact Or.inl (by rw [h])
    · exact Or.inr ⟨_, rfl, congrArg Worker.Plan.actions h⟩
  obtain ⟨l₁, hsub₁, heq₁⟩ := names_foldl hadd
    (diffReplicas record.desiredReplicas (w.presentIndices now s record)).1
    { p with busy := nodesHostingService s w.placements }
  obtain ⟨l₂, hsub₂, heq₂⟩ := names_foldl hremove
    (diffReplicas record.desiredReplicas (w.presentIndices now s record)).2
    ((diffReplicas record.desiredReplicas (w.presentIndices now s record)).1.foldl
      (w.scheduleReplica now s record) { p with busy := nodesHostingService s w.placements })
  refine ⟨l₁ ++ l₂, ?_, by rw [heq₂, heq₁, List.append_assoc]⟩
  rw [List.map_append]
  exact hsub₁.append hsub₂

/-- **A pass has one action for a replica at most.** -/
theorem nodup_reconcileServices :
    ((w.reconcileServices now).map ReplicaAction.name).Nodup := by
  have hnames : ∀ (l : List (String × ServiceRecord)) (p : Worker.Plan), ∃ l',
      l'.Sublist (l.flatMap fun service => ((diffReplicas service.2.desiredReplicas
        (w.presentIndices now service.1 service.2)).1 ++
        (diffReplicas service.2.desiredReplicas
          (w.presentIndices now service.1 service.2)).2).map (replicaName service.1)) ∧
      (l.foldl (w.planService now) p).actions.map ReplicaAction.name =
        p.actions.map ReplicaAction.name ++ l' := by
    intro l
    induction l with
    | nil => intro p; exact ⟨[], List.Sublist.refl _, (List.append_nil _).symm⟩
    | cons service l ih =>
      intro p
      obtain ⟨l₁, hsub₁, heq₁⟩ := names_planService w now p service
      obtain ⟨l₂, hsub₂, heq₂⟩ := ih (w.planService now p service)
      refine ⟨l₁ ++ l₂, ?_, by rw [List.foldl_cons, heq₂, heq₁, List.append_assoc]⟩
      rw [List.flatMap_cons]
      exact hsub₁.append hsub₂
  obtain ⟨l', hsub, heq⟩ := hnames w.services.list ⟨[], w.usedAddresses, ∅⟩
  rw [Worker.reconcileServices, heq, List.map_nil, List.nil_append]
  refine List.Nodup.sublist hsub (List.nodup_flatMap.2 ⟨fun service _ => ?_, ?_⟩)
  · exact (nodup_diffReplicas _ _).map fun i j hij => (replicaName_inj hij).2
  · have hservices := List.pairwise_map.1 (nodup_services_list w.services)
    refine hservices.imp fun {a b} hne => ?_
    intro r ha hb
    obtain ⟨i, -, rfl⟩ := List.mem_map.1 ha
    obtain ⟨j, -, heq⟩ := List.mem_map.1 hb
    exact hne (replicaName_inj heq).1.symm

/-- So has a deletion. -/
theorem nodup_deleteActions (ord : IterOrder) (name : String) :
    ((w.deleteActions now ord name).map ReplicaAction.name).Nodup := by
  have hkeys := List.pairwise_map.1 (Table.nodup_iter_keys w.placements ord)
  refine List.pairwise_map.2 (List.Pairwise.filterMap _ ?_ hkeys)
  intro e e' hne a ha b hb
  split at ha
  · split at hb
    · cases ha
      cases hb
      exact hne
    · cases hb
  · cases ha

/-- No action of such a plan is about the replica of an earlier one. -/
theorem name_notMem_of_nodup {as : List ReplicaAction} {a : ReplicaAction}
    (h : ((as ++ [a]).map ReplicaAction.name).Nodup) :
    (as.map ReplicaAction.name).Nodup ∧ a.name ∉ as.map ReplicaAction.name := by
  rw [List.map_append, List.map_singleton, ← List.concat_eq_append, List.nodup_concat] at h
  exact h.symm

/-- The ingress's jail is no replica. -/
theorem replicaName_ne_ingress (s : String) (i : ℕ) : replicaName s i ≠ "ingress" := by
  intro h
  have hmem : '-' ∈ (replicaName s i).toList := by
    rw [toList_replicaName]
    exact List.mem_append_right _ List.mem_cons_self
  rw [h] at hmem
  exact absurd hmem (by decide)

/-- A service owns names of its replicas only. -/
theorem isSome_replicaIndex_of_ownerOf {name s : String} {placements : Placements}
    {services : Services} (h : ownerOf name placements services = some (.service s)) :
    (replicaIndex s name).isSome = true := by
  simp only [ownerOf] at h
  split at h
  · cases h
  split at h
  · rename_i hfind
    cases h
    have hidx := List.find?_some hfind
    exact hidx
  · cases h

/-- What is promoted is a replica. -/
theorem Prepared.ne_ingress {r : String} {prep : ForceRepinPrep} (h : Prepared w now r prep) :
    r ≠ "ingress" := by
  obtain ⟨s, -, howner, -⟩ := h.owned
  obtain ⟨i, hi⟩ := Option.isSome_iff_exists.1 (isSome_replicaIndex_of_ownerOf howner)
  rw [eq_replicaName_of_replicaIndex hi]
  exact replicaName_ne_ingress s i

/-- So is what is scheduled. -/
theorem Scheduled.ne_ingress {r nodeId nodeAddr : String} {template : JailTemplate}
    {address : Ipv4Addr} {standbyNodeId standbyAddr : Option String}
    (h : Scheduled w now r nodeId nodeAddr template address standbyNodeId standbyAddr) :
    r ≠ "ingress" := by
  obtain ⟨s, record, i, -, -, rfl, -, -⟩ := h.missing
  exact replicaName_ne_ingress s i

/-! ## The addresses of a plan -/

/-- The replica a schedule is of, and where it puts it. -/
def ReplicaAction.slot? : ReplicaAction → Option (String × String × Ipv4Addr)
  | .schedule name nodeId _ _ address .. => some (name, nodeId, address)
  | .tearDown .. => none

/-- What a plan schedules. -/
def slots (as : List ReplicaAction) : List (String × String × Ipv4Addr) :=
  as.filterMap ReplicaAction.slot?

theorem slots_append (as bs : List ReplicaAction) : slots (as ++ bs) = slots as ++ slots bs :=
  List.filterMap_append

/-- **A plan that shares no address.** Each schedule is of a replica no
earlier one is of, at an address of its node that no earlier one takes,
and that the table `u` has for nobody but replicas scheduled earlier. -/
inductive Assigned (u : UsedAddresses) : List ReplicaAction → Prop
  | nil : Assigned u []
  | snoc {as : List ReplicaAction} {a : ReplicaAction} (h : Assigned u as)
      (hname : ∀ x ∈ a.slot?, ∀ y ∈ slots as, y.1 ≠ x.1)
      (hslot : ∀ x ∈ a.slot?, ∀ y ∈ slots as, y.2 ≠ x.2)
      (hfree : ∀ x ∈ a.slot?, ∀ r, u.byJail.lookup r = some x.2 → ∃ y ∈ slots as, y.1 = r) :
      Assigned u (as ++ [a])

/-- A pass under way: what it has scheduled, of which replicas, and how
its working copy of the table differs from `u`. -/
structure Built (u : UsedAddresses) (seen : Set (String × ℕ)) (p : Worker.Plan) : Prop where
  assigned : Assigned u p.actions
  consistent : p.workingUsed.Consistent
  planned : ∀ x ∈ slots p.actions, p.workingUsed.byJail.lookup x.1 = some x.2
  kept : ∀ r, (∀ x ∈ slots p.actions, x.1 ≠ r) →
    p.workingUsed.byJail.lookup r = u.byJail.lookup r
  names : ∀ x ∈ slots p.actions, ∃ y ∈ seen, x.1 = replicaName y.1 y.2

theorem Built.mono {u : UsedAddresses} {seen seen' : Set (String × ℕ)} {p : Worker.Plan}
    (h : Built u seen p) (hsub : seen ⊆ seen') : Built u seen' p :=
  { h with
    names := fun x hx => by
      obtain ⟨y, hy, heq⟩ := h.names x hx
      exact ⟨y, hsub hy, heq⟩ }

/-- The address comes from the working copy, which has every earlier
schedule of the pass in it. -/
theorem Built.scheduleReplica {u : UsedAddresses} {seen : Set (String × ℕ)} {p : Worker.Plan}
    (h : Built u seen p) (s : String) (record : ServiceRecord) {i : ℕ} (hnew : (s, i) ∉ seen) :
    Built u (insert (s, i) seen) (w.scheduleReplica now s record p i) := by
  rcases scheduleReplica_cases w now s record p i with
    heq | ⟨nodeId, nodeAddr, podCidr, address, standby, -, -, haddress, -, -, heq⟩
  · rw [heq]
    exact h.mono (Set.subset_insert _ _)
  · have hunused := isUsed_of_firstFreeAddress haddress
    have hactions := congrArg Worker.Plan.actions heq
    have hused := congrArg Worker.Plan.workingUsed heq
    have hslots : slots (w.scheduleReplica now s record p i).actions =
        slots p.actions ++ [(replicaName s i, nodeId, address)] := by
      rw [hactions, slots_append]
      rfl
    -- The replica is planned for the first time, so none of the names so
    -- far is its own.
    have hname : ∀ y ∈ slots p.actions, y.1 ≠ replicaName s i := by
      intro y hy heq
      obtain ⟨z, hz, hyz⟩ := h.names y hy
      obtain ⟨hs, hi⟩ := replicaName_inj (hyz.symm.trans heq)
      exact hnew (by rw [← hs, ← hi]; exact hz)
    -- Free in the table the pass works on, hence nobody's, there or in the plan.
    have hnobody : ∀ r, p.workingUsed.byJail.lookup r ≠ some (nodeId, address) :=
      fun r => h.consistent.byJail_ne_of_isUsed hunused
    refine ⟨?_, ?_, ?_, ?_, ?_⟩
    · rw [hactions]
      refine .snoc h.assigned ?_ ?_ ?_
      · rintro _ ⟨⟩
        exact hname
      · rintro _ ⟨⟩ y hy heq
        exact hnobody y.1 (by rw [h.planned y hy, heq])
      · rintro _ ⟨⟩ r hr
        by_contra hnone
        push Not at hnone
        exact hnobody r (by rw [h.kept r hnone, hr])
    · rw [hused]
      exact h.consistent.record fun r hr => absurd hr (hnobody r)
    · intro x hx
      rw [hslots] at hx
      rw [hused, UsedAddresses.byJail_record]
      rcases List.mem_append.1 hx with hx | hx
      · rw [if_neg (hname x hx), h.planned x hx]
      · rw [List.mem_singleton.1 hx, if_pos rfl]
    · intro r hr
      rw [hslots] at hr
      rw [hused, UsedAddresses.byJail_record,
        if_neg fun heq => hr _ List.mem_concat_self heq.symm]
      exact h.kept r fun x hx => hr x (List.mem_append_left _ hx)
    · intro x hx
      rw [hslots] at hx
      rcases List.mem_append.1 hx with hx | hx
      · obtain ⟨y, hy, heq⟩ := h.names x hx
        exact ⟨y, Set.mem_insert_of_mem _ hy, heq⟩
      · rw [List.mem_singleton.1 hx]
        exact ⟨(s, i), Set.mem_insert _ _, rfl⟩

theorem Built.tearDownReplica {u : UsedAddresses} {seen : Set (String × ℕ)} {p : Worker.Plan}
    (h : Built u seen p) (s : String) (i : ℕ) :
    Built u seen (w.tearDownReplica now s p i) := by
  rcases tearDownReplica_cases w now s p i with heq | ⟨nodeId, nodeAddr, -, -, heq⟩
  · rwa [heq]
  · have hslots : slots (w.tearDownReplica now s p i).actions = slots p.actions := by
      rw [heq, slots_append]
      exact List.append_nil _
    have hused : (w.tearDownReplica now s p i).workingUsed = p.workingUsed := by rw [heq]
    refine ⟨?_, ?_, ?_, ?_, ?_⟩
    · rw [heq]
      exact .snoc h.assigned (by rintro _ ⟨⟩) (by rintro _ ⟨⟩) (by rintro _ ⟨⟩)
    · rw [hused]
      exact h.consistent
    · rw [hused, hslots]
      exact h.planned
    · rw [hused, hslots]
      exact h.kept
    · rw [hslots]
      exact h.names

/-- The schedules of one service. -/
theorem Built.foldl_scheduleReplica {u : UsedAddresses} (s : String) (record : ServiceRecord) :
    ∀ (l : List ℕ) {seen : Set (String × ℕ)} {p : Worker.Plan}, l.Nodup → Built u seen p →
      (∀ i ∈ l, (s, i) ∉ seen) →
      Built u (seen ∪ {y | y.1 = s}) (l.foldl (w.scheduleReplica now s record) p) := by
  intro l
  induction l with
  | nil => intro seen p _ h _; exact h.mono Set.subset_union_left
  | cons i l ih =>
    intro seen p hnodup h hnew
    obtain ⟨hi, hl⟩ := List.nodup_cons.1 hnodup
    have hstep : Built u (insert (s, i) seen) (w.scheduleReplica now s record p i) :=
      h.scheduleReplica s record (hnew i List.mem_cons_self)
    refine (ih hl hstep ?_).mono ?_
    · rintro j hj (heq | hseen)
      · cases heq
        exact hi hj
      · exact hnew j (List.mem_cons_of_mem _ hj) hseen
    · rintro y ((rfl | hy) | hy)
      · exact Or.inr rfl
      · exact Or.inl hy
      · exact Or.inr hy

/-- One service more, the replicas so far being those of the services
`done`. -/
theorem Built.planService {u : UsedAddresses} {done : Set String} {p : Worker.Plan} {s : String}
    (h : Built u {y | y.1 ∈ done} p) (record : ServiceRecord) (hs : s ∉ done) :
    Built u {y | y.1 ∈ insert s done} (w.planService now p (s, record)) := by
  simp only [Worker.planService]
  refine List.foldlRecOn _ _ ?_ fun p hp i _ => hp.tearDownReplica s i
  have hfresh : Built u {y | y.1 ∈ done} { p with busy := nodesHostingService s w.placements } :=
    ⟨h.assigned, h.consistent, h.planned, h.kept, h.names⟩
  refine (hfresh.foldl_scheduleReplica s record _ (nodup_toAdd _ _) fun i _ => hs).mono ?_
  rintro y (hy | rfl)
  · exact Or.inr hy
  · exact Or.inl rfl

/-- **The rule for a pass.** What holds before any service is planned, and
is carried from the services `done` to one more, holds of the whole pass. -/
theorem reconcileServices_rule {I : Set String → Worker.Plan → Prop}
    (hstart : I ∅ ⟨[], w.usedAddresses, ∅⟩)
    (hservice : ∀ {done : Set String} {p : Worker.Plan} {s : String} {record : ServiceRecord},
      w.services.get s = some record → s ∉ done → I done p →
        I (insert s done) (w.planService now p (s, record))) :
    ∃ done, I done (w.services.list.foldl (w.planService now) ⟨[], w.usedAddresses, ∅⟩) := by
  have hpass : ∀ (l : List (String × ServiceRecord)) (done : Set String) {p : Worker.Plan},
      (l.map Prod.fst).Nodup → (∀ x ∈ l, w.services.get x.1 = some x.2 ∧ x.1 ∉ done) → I done p →
      ∃ done', I done' (l.foldl (w.planService now) p) := by
    intro l
    induction l with
    | nil => intro done p _ _ hp; exact ⟨done, hp⟩
    | cons service l ih =>
      intro done p hnodup hnew hp
      obtain ⟨s, record⟩ := service
      rw [List.map_cons, List.nodup_cons] at hnodup
      obtain ⟨hget, hs⟩ := hnew _ List.mem_cons_self
      refine ih (insert s done) hnodup.2 (fun x hx => ?_) (hservice hget hs hp)
      obtain ⟨hgetx, hx'⟩ := hnew x (List.mem_cons_of_mem _ hx)
      refine ⟨hgetx, ?_⟩
      rintro (rfl | hmem)
      · exact hnodup.1 (List.mem_map.2 ⟨x, hx, rfl⟩)
      · exact hx' hmem
  refine hpass _ ∅ (nodup_services_list _) (fun x hx => ⟨mem_services_list.1 hx, ?_⟩) hstart
  exact Set.notMem_empty _

/-- **A pass shares no address**, counting against the table as it was
when the pass was planned. -/
theorem reconcileServices_assigned (h : w.usedAddresses.Consistent) :
    Assigned w.usedAddresses (w.reconcileServices now) := by
  have hstart : Built w.usedAddresses {y | y.1 ∈ (∅ : Set String)} ⟨[], w.usedAddresses, ∅⟩ :=
    ⟨.nil, h, by simp [slots], fun _ _ => rfl, by simp [slots]⟩
  obtain ⟨done, hpass⟩ := reconcileServices_rule (I := fun done p =>
    Built w.usedAddresses {y | y.1 ∈ done} p) hstart fun _ hs hp => hp.planService _ hs
  exact hpass.assigned

end Reconcile

end ControlPlane

end Keel
