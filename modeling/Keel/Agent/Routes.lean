import Keel.Agent.Model.Registration
/-!
# Routes and the peer list

The registration loop keeps a map from node ids to subnets and decides
from that map alone. The map is always that of the last peer list
(`installed_reconcile`). The network is not: a peer that comes back at
another address keeps its old gateway, and one that comes back with
another subnet leaves the route to the old one behind, in the map of no
one.

These are the only ways. Over any run of peer lists, with every command
carried out, the routes are those of the last list after every pass
exactly when every two lists in a row are as `Keeps` says
(`routes_follow_iff`).
-/

namespace Keel

namespace Agent

open ControlPlane (NodeStatus)

/-- No two peers of one id or of one subnet. -/
structure DistinctPeers (peers : List NodeStatus) : Prop where
  ids : (peers.map NodeStatus.id).Nodup
  podCidrs : (peers.map NodeStatus.podCidr).Nodup

/-- The routes are those to the peers that are alive, and no others. -/
def Routed (selfId : String) (peers : List NodeStatus) (routes : Table String) : Prop :=
  ∀ podCidr gateway, routes.lookup podCidr = some gateway ↔
    ∃ p ∈ routed selfId peers, p.podCidr = podCidr ∧ hostPart p.addr = gateway

/-- A peer alive in both lists keeps its subnet and its host; or its
subnet changes and another has the old one. -/
def Keeps (selfId : String) (prev next : List NodeStatus) : Prop :=
  ∀ p ∈ routed selfId prev, ∀ q ∈ routed selfId next, p.id = q.id →
    if p.podCidr = q.podCidr then hostPart p.addr = hostPart q.addr
    else ∃ q' ∈ routed selfId next, q'.podCidr = p.podCidr

instance (selfId : String) (prev next : List NodeStatus) : Decidable (Keeps selfId prev next) :=
  inferInstanceAs (Decidable (∀ _ ∈ _, ∀ _ ∈ _, _ → _))

instance (peers : List NodeStatus) : Decidable (DistinctPeers peers) :=
  decidable_of_iff ((peers.map NodeStatus.id).Nodup ∧ (peers.map NodeStatus.podCidr).Nodup)
    ⟨fun h => ⟨h.1, h.2⟩, fun h => ⟨h.1, h.2⟩⟩

namespace DistinctPeers

variable {peers : List NodeStatus} {selfId : String} {p q : NodeStatus}

theorem eq_of_id (h : DistinctPeers peers) (hp : p ∈ peers) (hq : q ∈ peers) (heq : p.id = q.id) :
    p = q :=
  List.inj_on_of_nodup_map h.ids hp hq heq

theorem eq_of_podCidr (h : DistinctPeers peers) (hp : p ∈ peers) (hq : q ∈ peers)
    (heq : p.podCidr = q.podCidr) : p = q :=
  List.inj_on_of_nodup_map h.podCidrs hp hq heq

theorem sublist (h : DistinctPeers peers) {l : List NodeStatus} (hl : l.Sublist peers) :
    DistinctPeers l where
  ids := h.ids.sublist (hl.map _)
  podCidrs := h.podCidrs.sublist (hl.map _)

/-- The first peer with a subnet is the one with it. -/
theorem find_podCidr (h : DistinctPeers peers) (hp : p ∈ peers) :
    (peers.find? fun peer => peer.podCidr = p.podCidr) = some p := by
  have hsome : (peers.find? fun peer => peer.podCidr = p.podCidr).isSome = true :=
    List.find?_isSome.2 ⟨p, hp, decide_eq_true rfl⟩
  obtain ⟨q, hq⟩ := Option.isSome_iff_exists.1 hsome
  have heq : q.podCidr = p.podCidr := by simpa using List.find?_some hq
  rw [hq, h.eq_of_podCidr (List.mem_of_find?_eq_some hq) hp heq]

end DistinctPeers

/-! ## What one pass does -/

namespace Routes

variable {r : Routes} {replies : ℕ → Reply}

theorem lookup_forget (installed : Table String) (podCidr id : String) :
    (forget installed podCidr).lookup id =
      if installed.lookup id = some podCidr then none else installed.lookup id := by
  have hfold : ∀ (ids : List String) (t : Table String), (ids.foldl (fun t id => t.erase id)
      t).lookup id = if id ∈ ids then none else t.lookup id := by
    intro ids
    induction ids with
    | nil => intro t; rfl
    | cons i is ih =>
      intro t
      rw [List.foldl_cons, ih, Table.lookup_erase_eq]
      by_cases hi : id = i <;> simp [hi]
  rw [forget, hfold]
  congr 1
  rw [List.mem_filter, decide_eq_true_eq, eq_iff_iff]
  constructor
  · exact And.right
  · intro h
    exact ⟨Table.mem_of_lookup h, h⟩

/-- The loop that removes, every command done. -/
theorem removeAll_done (hdone : ∀ i, replies i = .done) (podCidrs : List String) :
    ∀ (i : ℕ) (r : Routes), (removeAll replies i podCidrs r).1 = true ∧
      (∀ id, (removeAll replies i podCidrs r).2.installed.lookup id =
        (r.installed.lookup id).filter fun c => c ∉ podCidrs) ∧
      ∀ c, (removeAll replies i podCidrs r).2.net.routes.lookup c =
        if c ∈ podCidrs then none else r.net.routes.lookup c := by
  induction podCidrs with
  | nil =>
    intro i r
    refine ⟨rfl, fun id => ?_, fun c => rfl⟩
    cases hlookup : r.installed.lookup id <;> simp [removeAll, hlookup, Option.filter]
  | cons podCidr rest ih =>
    intro i r
    simp only [removeAll, remove, hdone]
    obtain ⟨hgoes, hinstalled, hroutes⟩ :=
      ih (i + 1) ⟨forget r.installed podCidr, r.net.removeRoute podCidr⟩
    refine ⟨hgoes, fun id => ?_, fun c => ?_⟩
    · rw [hinstalled, lookup_forget]
      cases hlookup : r.installed.lookup id with
      | none => simp
      | some c =>
        by_cases hc : c = podCidr <;> simp [hc, Option.filter]
    · rw [hroutes, FakeNetManager.removeRoute, Table.lookup_erase_eq]
      by_cases hc : c = podCidr <;> simp [hc]

/-- The loop that adds, every command done. -/
theorem addAll_done {peers : List NodeStatus} (hdone : ∀ i, replies i = .done)
    (hdistinct : DistinctPeers peers) {fresh : List NodeStatus} (hfresh : fresh.Sublist peers) :
    ∀ (i : ℕ) (r : Routes),
      (∀ id, (addAll replies peers i (fresh.map fun p => (p.podCidr, p.addr)) r).installed.lookup
        id = ((fresh.find? fun p => p.id = id).map NodeStatus.podCidr).or
          (r.installed.lookup id)) ∧
      ∀ c, (addAll replies peers i (fresh.map fun p => (p.podCidr, p.addr)) r).net.routes.lookup
        c = ((fresh.find? fun p => p.podCidr = c).map fun p => hostPart p.addr).or
          (r.net.routes.lookup c) := by
  induction fresh with
  | nil => exact fun i r => ⟨fun id => rfl, fun c => rfl⟩
  | cons p rest ih =>
    intro i r
    have hp : p ∈ peers := hfresh.subset List.mem_cons_self
    have hcons := hdistinct.sublist hfresh
    obtain ⟨hinstalled, hroutes⟩ := ih (List.sublist_of_cons_sublist hfresh) (i + 1)
      ⟨r.installed.insert p.id p.podCidr, r.net.addRoute p.podCidr (hostPart p.addr)⟩
    have hstep : addAll replies peers i ((p :: rest).map fun p => (p.podCidr, p.addr)) r =
        addAll replies peers (i + 1) (rest.map fun p => (p.podCidr, p.addr))
          ⟨r.installed.insert p.id p.podCidr, r.net.addRoute p.podCidr (hostPart p.addr)⟩ := by
      simp only [List.map_cons, addAll, add, hdone, hdistinct.find_podCidr hp]
    rw [hstep]
    refine ⟨fun id => ?_, fun c => ?_⟩
    · rw [hinstalled, Table.lookup_insert_eq, List.find?_cons]
      by_cases hid : p.id = id
      · -- No other peer has the id, so nothing is put over what this one put.
        have hnone : (rest.find? fun p => p.id = id) = none := by
          rw [List.find?_eq_none]
          intro q hq
          rw [decide_eq_true_eq]
          rintro hqid
          have hnodup := hcons.ids
          rw [List.map_cons, List.nodup_cons] at hnodup
          exact hnodup.1 (List.mem_map.2 ⟨q, hq, hqid.trans hid.symm⟩)
        rw [hnone, if_pos hid.symm]
        simp [hid]
      · rw [if_neg (Ne.symm hid)]
        simp [hid]
    · rw [hroutes, FakeNetManager.addRoute, Table.lookup_insert_eq, List.find?_cons]
      by_cases hc : p.podCidr = c
      · have hnone : (rest.find? fun p => p.podCidr = c) = none := by
          rw [List.find?_eq_none]
          intro q hq
          rw [decide_eq_true_eq]
          rintro hqc
          have hnodup := hcons.podCidrs
          rw [List.map_cons, List.nodup_cons] at hnodup
          exact hnodup.1 (List.mem_map.2 ⟨q, hq, hqc.trans hc.symm⟩)
        rw [hnone, if_pos hc.symm]
        simp [hc]
      · rw [if_neg (Ne.symm hc)]
        simp [hc]

/-- The map of installed routes is that of a peer list. -/
def Installed (selfId : String) (peers : List NodeStatus) (installed : Table String) : Prop :=
  ∀ id podCidr, installed.lookup id = some podCidr ↔
    ∃ p ∈ routed selfId peers, p.id = id ∧ p.podCidr = podCidr

/-- The peers a pass adds a route to. -/
def fresh (selfId : String) (peers : List NodeStatus) (installed : Table String) :
    List NodeStatus :=
  (routed selfId peers).filter fun peer => installed.lookup peer.id ≠ some peer.podCidr

theorem mem_fresh {selfId : String} {peers : List NodeStatus} {installed : Table String}
    {p : NodeStatus} : p ∈ fresh selfId peers installed ↔
      p ∈ routed selfId peers ∧ installed.lookup p.id ≠ some p.podCidr := by
  rw [fresh, List.mem_filter, decide_eq_true_eq]

/-- A subnet some id is down for that is alive no more. -/
def Stale (selfId : String) (peers : List NodeStatus) (installed : Table String)
    (podCidr : String) : Prop :=
  ∃ id, installed.lookup id = some podCidr ∧ ∀ p ∈ routed selfId peers, p.id ≠ id

theorem find_or_eq_some {α : Type} {f : α → String} {g : α → String} {l : List α} {k v : String}
    {o : Option String} (hnodup : (l.map f).Nodup) :
    ((l.find? fun p => f p = k).map g).or o = some v ↔
      (∃ p ∈ l, f p = k ∧ g p = v) ∨ (∀ p ∈ l, f p ≠ k) ∧ o = some v := by
  cases hfind : l.find? fun p => f p = k with
  | none =>
    have hnone : ∀ p ∈ l, f p ≠ k := by simpa using hfind
    constructor
    · exact fun h => Or.inr ⟨hnone, h⟩
    · rintro (⟨p, hp, hk, -⟩ | ⟨-, h⟩)
      · exact absurd hk (hnone p hp)
      · exact h
  | some p =>
    have hp := List.mem_of_find?_eq_some hfind
    have hk : f p = k := by simpa using List.find?_some hfind
    constructor
    · intro h
      exact Or.inl ⟨p, hp, hk, Option.some.inj h⟩
    · rintro (⟨q, hq, hqk, rfl⟩ | ⟨hnone, -⟩)
      · rw [List.inj_on_of_nodup_map hnodup hq hp (hqk.trans hk.symm)]
        rfl
      · exact absurd hk (hnone p hp)

/-- **What a pass comes to.** Fresh peers are put down and routed; of the
rest, what is not stale stays. -/
theorem reconcile_done {selfId : String} {p : Pass} (hdone : ∀ i, p.replies i = .done)
    (hdistinct : DistinctPeers p.peers) :
    (∀ id podCidr, (r.reconcile selfId p).installed.lookup id = some podCidr ↔
      (∃ q ∈ fresh selfId p.peers r.installed, q.id = id ∧ q.podCidr = podCidr) ∨
        (∀ q ∈ fresh selfId p.peers r.installed, q.id ≠ id) ∧
          r.installed.lookup id = some podCidr ∧
            ¬ Stale selfId p.peers r.installed podCidr) ∧
    ∀ podCidr gateway, (r.reconcile selfId p).net.routes.lookup podCidr = some gateway ↔
      (∃ q ∈ fresh selfId p.peers r.installed, q.podCidr = podCidr ∧ hostPart q.addr = gateway) ∨
        (∀ q ∈ fresh selfId p.peers r.installed, q.podCidr ≠ podCidr) ∧
          r.net.routes.lookup podCidr = some gateway ∧
            ¬ Stale selfId p.peers r.installed podCidr := by
  let toRemove := (diffRoutes selfId p.peers r.installed p.order).2
  have hstale : ∀ c, c ∈ toRemove ↔ Stale selfId p.peers r.installed c := by
    intro c
    simp only [toRemove, diffRoutes, Stale, List.mem_map, List.mem_filter, Prod.exists,
      exists_eq_right, Table.mem_iter, decide_eq_true_eq, not_exists, not_and, ne_eq]
  have hsub : (fresh selfId p.peers r.installed).Sublist p.peers :=
    List.filter_sublist.trans List.filter_sublist
  have hnodup := hdistinct.sublist hsub
  obtain ⟨hgoes, hkept, hleft⟩ := removeAll_done hdone toRemove 0 r
  obtain ⟨hinstalled, hroutes⟩ := addAll_done hdone hdistinct hsub toRemove.length
    (removeAll p.replies 0 toRemove r).2
  have hpass : r.reconcile selfId p = addAll p.replies p.peers toRemove.length
      ((fresh selfId p.peers r.installed).map fun p => (p.podCidr, p.addr))
      (removeAll p.replies 0 toRemove r).2 := by
    rw [reconcile]
    exact if_pos hgoes
  rw [hpass]
  refine ⟨fun id c => ?_, fun c g => ?_⟩
  · rw [hinstalled, find_or_eq_some hnodup.ids, hkept, Option.filter_eq_some_iff]
    simp only [decide_eq_true_eq, hstale]
  · rw [hroutes, find_or_eq_some hnodup.podCidrs, hleft, ← hstale]
    by_cases hc : c ∈ toRemove <;> simp [hc]

variable {selfId : String} {prev : List NodeStatus} {p : Pass}

/-- **The map is that of the last list**, whatever became of the
network. -/
theorem installed_reconcile (hdone : ∀ i, p.replies i = .done) (hprev : DistinctPeers prev)
    (hdistinct : DistinctPeers p.peers) (h : Installed selfId prev r.installed) :
    Installed selfId p.peers (r.reconcile selfId p).installed := by
  have hdistinct' := hdistinct.sublist (List.filter_sublist : (routed selfId p.peers).Sublist _)
  have hprev' := hprev.sublist (List.filter_sublist : (routed selfId prev).Sublist _)
  intro id c
  rw [(reconcile_done hdone hdistinct).1]
  constructor
  · rintro (⟨q, hq, hid, hc⟩ | ⟨hnone, hold, hstale⟩)
    · exact ⟨q, (mem_fresh.1 hq).1, hid, hc⟩
    · -- The id is alive still, and its entry is the one it would be given.
      obtain ⟨q, hq, hid⟩ : ∃ q ∈ routed selfId p.peers, q.id = id := by
        by_contra hdead
        exact hstale ⟨id, hold, fun q hq hid => hdead ⟨q, hq, hid⟩⟩
      by_cases hsame : r.installed.lookup q.id = some q.podCidr
      · rw [hid, hold] at hsame
        exact ⟨q, hq, hid, (Option.some.inj hsame).symm⟩
      · exact absurd hid (hnone q (mem_fresh.2 ⟨hq, hsame⟩))
  · rintro ⟨q, hq, rfl, rfl⟩
    by_cases hsame : r.installed.lookup q.id = some q.podCidr
    · refine Or.inr ⟨fun q' hq' hid => ?_, hsame, ?_⟩
      · rw [hdistinct'.eq_of_id (mem_fresh.1 hq').1 hq hid, mem_fresh] at hq'
        exact hq'.2 hsame
      · rintro ⟨id, hid, hdead⟩
        obtain ⟨p₁, hp₁, rfl, hc₁⟩ := (h _ _).1 hid
        obtain ⟨p₂, hp₂, hid₂, hc₂⟩ := (h _ _).1 hsame
        rw [hprev'.eq_of_podCidr hp₁ hp₂ (hc₁.trans hc₂.symm), hid₂] at hdead
        exact hdead q hq rfl
    · exact Or.inl ⟨q, mem_fresh.2 ⟨hq, hsame⟩, rfl, rfl⟩

/-- **The network follows by one pass** exactly when the two lists are as
`Keeps` says. -/
theorem routed_reconcile_iff (hdone : ∀ i, p.replies i = .done) (hprev : DistinctPeers prev)
    (hdistinct : DistinctPeers p.peers) (h : Installed selfId prev r.installed)
    (hrouted : Routed selfId prev r.net.routes) :
    Routed selfId p.peers (r.reconcile selfId p).net.routes ↔ Keeps selfId prev p.peers := by
  have hdistinct' := hdistinct.sublist (List.filter_sublist : (routed selfId p.peers).Sublist _)
  have hprev' := hprev.sublist (List.filter_sublist : (routed selfId prev).Sublist _)
  have hinstalled : ∀ p₁ ∈ routed selfId prev, r.installed.lookup p₁.id = some p₁.podCidr :=
    fun p₁ hp₁ => (h _ _).2 ⟨p₁, hp₁, rfl, rfl⟩
  -- A subnet of the last list is stale exactly if its peer is alive no more.
  have hstale : ∀ p₁ ∈ routed selfId prev, Stale selfId p.peers r.installed p₁.podCidr ↔
      ∀ q ∈ routed selfId p.peers, q.id ≠ p₁.id := by
    intro p₁ hp₁
    constructor
    · rintro ⟨id, hid, hdead⟩
      obtain ⟨p₂, hp₂, rfl, hc⟩ := (h _ _).1 hid
      rwa [hprev'.eq_of_podCidr hp₂ hp₁ hc] at hdead
    · exact fun hdead => ⟨p₁.id, hinstalled p₁ hp₁, hdead⟩
  have hroutes := (@reconcile_done r selfId p hdone hdistinct).2
  constructor
  · intro hnext p₁ hp₁ q hq hid
    have hold := (hrouted _ _).2 ⟨p₁, hp₁, rfl, rfl⟩
    have halive : ¬ Stale selfId p.peers r.installed p₁.podCidr :=
      fun hdead => (hstale p₁ hp₁).1 hdead q hq hid.symm
    split
    · rename_i hc
      have hgateway := (hnext _ _).2 ⟨q, hq, rfl, rfl⟩
      rcases (hroutes _ _).1 hgateway with ⟨q', hq', hc', -⟩ | ⟨-, hkept, -⟩
      · rw [hdistinct'.eq_of_podCidr (mem_fresh.1 hq').1 hq hc', mem_fresh, ← hid, ← hc] at hq'
        exact absurd (hinstalled p₁ hp₁) hq'.2
      · rw [← hc, hold] at hkept
        exact Option.some.inj hkept
    · by_contra hnone
      have hkept := (hroutes _ _).2
        (Or.inr ⟨fun q' hq' hc' => hnone ⟨q', (mem_fresh.1 hq').1, hc'⟩, hold, halive⟩)
      obtain ⟨q', hq', hc', -⟩ := (hnext _ _).1 hkept
      exact hnone ⟨q', hq', hc'⟩
  · intro hkeeps c g
    rw [hroutes]
    constructor
    · rintro (⟨q, hq, hc, hg⟩ | ⟨hnone, hold, halive⟩)
      · exact ⟨q, (mem_fresh.1 hq).1, hc, hg⟩
      · obtain ⟨p₁, hp₁, rfl, rfl⟩ := (hrouted _ _).1 hold
        obtain ⟨q, hq, hid⟩ : ∃ q ∈ routed selfId p.peers, q.id = p₁.id := by
          by_contra hdead
          exact halive ((hstale p₁ hp₁).2 fun q hq hid => hdead ⟨q, hq, hid⟩)
        have hkept := hkeeps p₁ hp₁ q hq hid.symm
        split at hkept
        · rename_i hc
          exact ⟨q, hq, hc.symm, hkept.symm⟩
        · rename_i hc
          -- Another peer took the subnet over, so it is fresh.
          obtain ⟨q', hq', hc'⟩ := hkept
          refine absurd hc' (hnone q' (mem_fresh.2 ⟨hq', fun hsame => ?_⟩))
          obtain ⟨p₂, hp₂, hid₂, hc₂⟩ := (h _ _).1 hsame
          have heq := hprev'.eq_of_podCidr hp₂ hp₁ (hc₂.trans hc')
          rw [heq] at hid₂
          rw [hdistinct'.eq_of_id hq' hq (hid₂.symm.trans hid.symm)] at hc'
          exact hc hc'.symm
    · rintro ⟨q, hq, rfl, rfl⟩
      by_cases hsame : r.installed.lookup q.id = some q.podCidr
      · obtain ⟨p₁, hp₁, hid, hc⟩ := (h _ _).1 hsame
        refine Or.inr ⟨fun q' hq' hc' => ?_, ?_, ?_⟩
        · rw [hdistinct'.eq_of_podCidr (mem_fresh.1 hq').1 hq hc', mem_fresh] at hq'
          exact hq'.2 hsame
        · have hkept := hkeeps p₁ hp₁ q hq hid
          rw [if_pos hc] at hkept
          exact (hrouted _ _).2 ⟨p₁, hp₁, hc, hkept⟩
        · rw [← hc, hstale p₁ hp₁]
          exact fun hdead => hdead q hq hid.symm
      · exact Or.inl ⟨q, mem_fresh.2 ⟨hq, hsame⟩, rfl, rfl⟩

/-- A loop just started, with no route. -/
def start : Routes := ⟨∅, .new⟩

theorem run_concat (selfId : String) (r : Routes) (passes : List Pass) (p : Pass) :
    r.run selfId (passes ++ [p]) = (r.run selfId passes).reconcile selfId p := by
  rw [run, run, List.foldl_append, List.foldl_cons, List.foldl_nil]

/-- The last peer list of a run, empty before the first. -/
def lastPeers (passes : List Pass) : List NodeStatus :=
  (passes.getLast?.map Pass.peers).getD []

theorem lastPeers_concat (passes : List Pass) (p : Pass) : lastPeers (passes ++ [p]) = p.peers := by
  rw [lastPeers, List.getLast?_concat]
  rfl

/-- After every pass, the routes are those of its list. -/
def FollowsPeers (selfId : String) (passes : List Pass) : Prop :=
  ∀ past p, past ++ [p] <+: passes →
    Routed selfId p.peers (start.run selfId (past ++ [p])).net.routes

theorem followsPeers_concat {passes : List Pass} :
    FollowsPeers selfId (passes ++ [p]) ↔ FollowsPeers selfId passes ∧
      Routed selfId p.peers (start.run selfId (passes ++ [p])).net.routes := by
  simp only [FollowsPeers, List.prefix_concat_iff]
  constructor
  · intro h
    exact ⟨fun past q hq => h past q (Or.inr hq), h passes p (Or.inl rfl)⟩
  · rintro ⟨hbefore, hlast⟩ past q (heq | hq)
    · obtain ⟨rfl, hpq⟩ := List.append_inj' heq rfl
      rw [List.cons.inj hpq |>.1]
      exact hlast
    · exact hbefore past q hq

theorem followsPeers_nil : FollowsPeers selfId [] := by
  intro past q hq
  exact absurd (List.prefix_nil.1 hq) (List.append_ne_nil_of_right_ne_nil _ (List.cons_ne_nil _ _))

theorem distinctPeers_lastPeers {passes : List Pass}
    (hdistinct : ∀ p ∈ passes, DistinctPeers p.peers) : DistinctPeers (lastPeers passes) := by
  cases hlast : passes.getLast? with
  | none => simpa [lastPeers, hlast] using (⟨.nil, .nil⟩ : DistinctPeers [])
  | some p =>
    have hp := hdistinct p (List.mem_of_getLast? hlast)
    simpa [lastPeers, hlast] using hp

/-- Lists in a row, with the empty one before the first. -/
theorem isChain_concat {passes : List Pass} :
    ((passes ++ [p]).IsChain fun p q => Keeps selfId p.peers q.peers) ↔
      (passes.IsChain fun p q => Keeps selfId p.peers q.peers) ∧
        Keeps selfId (lastPeers passes) p.peers := by
  rw [List.isChain_append]
  refine and_congr_right fun _ => ?_
  cases hlast : passes.getLast? with
  | none => simp [lastPeers, hlast, Keeps, routed]
  | some q => simp [lastPeers, hlast]

theorem installed_run {passes : List Pass} (hdistinct : ∀ p ∈ passes, DistinctPeers p.peers)
    (hdone : ∀ p ∈ passes, ∀ i, p.replies i = .done) :
    Installed selfId (lastPeers passes) (start.run selfId passes).installed := by
  induction passes using List.reverseRecOn with
  | nil =>
    intro id c
    simp [start, run, lastPeers, routed]
  | append_singleton passes p ih =>
    simp only [List.mem_append, List.mem_singleton, or_imp, forall_and, forall_eq]
      at hdistinct hdone
    rw [run_concat, lastPeers_concat]
    exact installed_reconcile hdone.2 (distinctPeers_lastPeers hdistinct.1) hdistinct.2
      (ih hdistinct.1 hdone.1)

end Routes

/-- **Routes follow the peer list** through every pass of a run exactly
when no two lists in a row move a peer's host, or a peer off a subnet
that is left to no one. -/
theorem routes_follow_iff (selfId : String) (passes : List Routes.Pass)
    (hdistinct : ∀ p ∈ passes, DistinctPeers p.peers)
    (hdone : ∀ p ∈ passes, ∀ i, p.replies i = .done) :
    Routes.FollowsPeers selfId passes ↔
      passes.IsChain fun p q => Keeps selfId p.peers q.peers := by
  induction passes using List.reverseRecOn with
  | nil => exact iff_of_true Routes.followsPeers_nil .nil
  | append_singleton passes p ih =>
    simp only [List.mem_append, List.mem_singleton, or_imp, forall_and, forall_eq]
      at hdistinct hdone
    rw [Routes.followsPeers_concat, Routes.isChain_concat, ← ih hdistinct.1 hdone.1,
      Routes.run_concat]
    refine and_congr_right fun hfollows => ?_
    have hrouted : Routed selfId (Routes.lastPeers passes)
        (Routes.start.run selfId passes).net.routes := by
      rcases List.eq_nil_or_concat' passes with rfl | ⟨past, q, rfl⟩
      · intro c g
        simp [Routes.start, Routes.run, Routes.lastPeers, routed, FakeNetManager.new]
      · rw [Routes.lastPeers_concat]
        exact hfollows past q (List.prefix_refl _)
    exact Routes.routed_reconcile_iff hdone.2 (Routes.distinctPeers_lastPeers hdistinct.1)
      hdistinct.2 (Routes.installed_run hdistinct.1 hdone.1) hrouted

namespace Sample

/-- A peer that is alive. -/
def peer (id addr podCidr : String) : NodeStatus := ⟨id, addr, podCidr, .alive, 0, 4, 1024, 0, 0⟩

/-- A pass over some peers, every command done. -/
def fetched (peers : List NodeStatus) : Routes.Pass := ⟨peers, .listed, fun _ => .done⟩

end Sample

open Sample in
/-- One node joins, then another, and the first dies. -/
theorem routes_follow_sample :
    Routes.FollowsPeers "a" ([[peer "b" "10.1.0.2:7621" "10.0.2.0/24"],
      [peer "b" "10.1.0.2:7621" "10.0.2.0/24", peer "c" "10.1.0.3:7621" "10.0.3.0/24"],
      [peer "c" "10.1.0.3:7621" "10.0.3.0/24"]].map fetched) := by
  exact (routes_follow_iff "a" _ (List.forall_mem_map.2 (by decide +kernel))
    (List.forall_mem_map.2 fun _ _ _ => rfl)).2 (by decide +kernel)

namespace Sample

/-- A peer comes back at another address. -/
def readdressed : List (List NodeStatus) :=
  [[peer "b" "10.1.0.2:7621" "10.0.2.0/24"], [peer "b" "10.1.0.9:7621" "10.0.2.0/24"]]

/-- A peer comes back with another subnet. -/
def renumbered : List (List NodeStatus) :=
  [[peer "b" "10.1.0.2:7621" "10.0.2.0/24"], [peer "b" "10.1.0.2:7621" "10.0.9.0/24"]]

end Sample

open Sample in
/-- **A peer at another address keeps its old gateway**, and one with
another subnet its old route. -/
theorem routes_drift :
    (∀ peers ∈ readdressed ++ renumbered, DistinctPeers peers) ∧
      ¬ Routes.FollowsPeers "a" (readdressed.map fetched) ∧
      ¬ Routes.FollowsPeers "a" (renumbered.map fetched) := by
  refine ⟨by decide +kernel, fun h => ?_, fun h => ?_⟩
  · have hlast := h [fetched [peer "b" "10.1.0.2:7621" "10.0.2.0/24"]]
      (fetched [peer "b" "10.1.0.9:7621" "10.0.2.0/24"]) (List.prefix_refl _)
      "10.0.2.0/24" "10.1.0.9"
    exact absurd (hlast.2 (by decide +kernel)) (by decide +kernel)
  · have hlast := h [fetched [peer "b" "10.1.0.2:7621" "10.0.2.0/24"]]
      (fetched [peer "b" "10.1.0.2:7621" "10.0.9.0/24"]) (List.prefix_refl _)
      "10.0.2.0/24" "10.1.0.2"
    exact absurd (hlast.1 (by decide +kernel)) (by decide +kernel)

end Agent

end Keel
