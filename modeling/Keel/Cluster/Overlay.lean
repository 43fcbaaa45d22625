import Keel.Cluster.Enrolment
import Keel.Cluster.Gateways
/-!
# The overlay

A node's routes against the control plane's peer lists, whatever becomes
of the commands that change them. Every route leads the block of another
node to that node's own host; and one pass with every command done brings
the routes to those of the peers alive in its list, whatever went wrong in
the passes before (`overlay`). An agent started again on a machine that
has gone on does not take back the routes it finds, so those it still has
to a node that has gone since stay.
-/

namespace Keel

open ControlPlane
open Agent (Errand Call Circumstance RegistrationLoop Routes Reply DistinctPeers Routed routed
  diffRoutes hostPart fetchNodes)

namespace ControlPlane

/-- **A peer list that tells of nodes of the fleet**, each once, at its
address, on its block. -/
structure TruthfulPeers {N : Type} (nodes : N → NodeRegistration) (cidr : Ipv4Net)
    (peers : List NodeStatus) : Prop where
  distinct : DistinctPeers peers
  known : ∀ p ∈ peers, ∃ m, p.id = (nodes m).id ∧ p.addr = (nodes m).addr ∧
    p.podCidr = (derivePodCidr (nodes m).id cidr).display

theorem Registry.mem_list {r : Registry} {now : Instant} {p : NodeStatus} (h : p ∈ r.list now) :
    ∃ record, r.nodes.lookup p.id = some record ∧ p.addr = record.addr ∧
      p.podCidr = record.podCidr.display := by
  simp only [Registry.list, List.mem_insertionSort, List.mem_map] at h
  obtain ⟨⟨id, record⟩, hentry, rfl⟩ := h
  exact ⟨record, AList.mem_lookup_iff.2 hentry, rfl, rfl⟩

theorem Registry.nodup_list (r : Registry) (now : Instant) :
    ((r.list now).map NodeStatus.id).Nodup := by
  refine ((List.perm_insertionSort _ _).map NodeStatus.id).nodup_iff.2 ?_
  rw [List.map_map]
  exact r.nodes.nodupKeys

theorem Registry.Truthful.list {N : Type} {nodes : N → NodeRegistration} {cidr : Ipv4Net}
    {r : Registry} (h : r.Truthful nodes cidr) (now : Instant) :
    TruthfulPeers nodes cidr (r.list now) := by
  have hids := r.nodup_list now
  refine ⟨⟨hids, List.Nodup.map_on (fun p hp q hq heq => ?_) hids.of_map⟩, fun p hp => ?_⟩
  · -- Peers on one block are one node, which is listed once.
    obtain ⟨record, hrecord, -, hpod⟩ := mem_list hp
    obtain ⟨record', hrecord', -, hpod'⟩ := mem_list hq
    have hblock : record.podCidr = record'.podCidr :=
      Ipv4Net.display_inj (hpod.symm.trans (heq.trans hpod'))
    refine List.inj_on_of_nodup_map hids hp hq (h.blocks.distinct _ _ record.podCidr ?_ ?_)
    · rw [podCidr, hrecord, Option.map_some]
    · rw [podCidr, hrecord', Option.map_some, hblock]
  · obtain ⟨record, hrecord, haddr, hpod⟩ := mem_list hp
    obtain ⟨m, hid, haddr'⟩ := h.known _ record hrecord
    have hblock := h.blocks.derived p.id record.podCidr (by rw [podCidr, hrecord, Option.map_some])
    exact ⟨m, hid.symm, haddr.trans haddr'.symm, by rw [hpod, hblock, hid]⟩

end ControlPlane

/-! ## A pass, whatever its commands come to -/

namespace Agent.Routes

variable {r r' : Routes} {I : Routes → Prop} {selfId : String} {peers : List NodeStatus}

/-- A command that is not done changes nothing. -/
theorem remove_eq {reply : Reply} {podCidr : String} (h : r.remove reply podCidr = some r') :
    r' = r ∨ r' = ⟨forget r.installed podCidr, r.net.removeRoute podCidr⟩ := by
  cases reply with
  | done =>
    cases h
    exact Or.inr rfl
  | gone => cases h
  | failed =>
    cases h
    exact Or.inl rfl
  | silent =>
    cases h
    exact Or.inl rfl

/-- The peer a route is put down for is the one it is added for. -/
theorem add_eq (hdistinct : DistinctPeers peers) {p : NodeStatus} (hp : p ∈ peers) {reply : Reply}
    (h : r.add reply peers p.podCidr p.addr = some r') :
    r' = r ∨ r' = ⟨r.installed.insert p.id p.podCidr,
      r.net.addRoute p.podCidr (hostPart p.addr)⟩ := by
  cases reply with
  | done =>
    simp only [add, hdistinct.find_podCidr hp] at h
    cases h
    exact Or.inr rfl
  | gone => cases h
  | failed =>
    cases h
    exact Or.inl rfl
  | silent =>
    cases h
    exact Or.inl rfl

theorem removeAll_keeps (hremove : ∀ podCidr r, I r →
      I ⟨forget r.installed podCidr, r.net.removeRoute podCidr⟩) (replies : ℕ → Reply)
    (podCidrs : List String) : ∀ (i : ℕ) (r : Routes), I r →
      I (removeAll replies i podCidrs r).2 := by
  induction podCidrs with
  | nil => exact fun _ _ h => h
  | cons podCidr rest ih =>
    intro i r h
    simp only [removeAll]
    split
    · rename_i r' hstep
      rcases remove_eq hstep with rfl | rfl
      · exact ih _ _ h
      · exact ih _ _ (hremove podCidr r h)
    · exact h

theorem addAll_keeps (hdistinct : DistinctPeers peers)
    (hadd : ∀ p ∈ routed selfId peers, ∀ r, I r →
      I ⟨r.installed.insert p.id p.podCidr, r.net.addRoute p.podCidr (hostPart p.addr)⟩)
    (replies : ℕ → Reply) (l : List (String × String))
    (hl : ∀ x ∈ l, ∃ p ∈ routed selfId peers, x = (p.podCidr, p.addr)) :
    ∀ (i : ℕ) (r : Routes), I r → I (addAll replies peers i l r) := by
  induction l with
  | nil => exact fun _ _ h => h
  | cons x rest ih =>
    intro i r h
    obtain ⟨p, hp, rfl⟩ := hl x List.mem_cons_self
    have hrest := ih fun y hy => hl y (List.mem_cons_of_mem _ hy)
    simp only [addAll]
    split
    · rename_i r' hstep
      rcases add_eq hdistinct (List.mem_of_mem_filter hp) hstep with rfl | rfl
      · exact hrest _ _ h
      · exact hrest _ _ (hadd p hp r h)
    · exact h

/-- **The rule for a pass.** What every command done keeps, a pass keeps,
whatever becomes of its commands. -/
theorem reconcile_keeps {p : Pass} (hdistinct : DistinctPeers p.peers)
    (hremove : ∀ podCidr r, I r → I ⟨forget r.installed podCidr, r.net.removeRoute podCidr⟩)
    (hadd : ∀ q ∈ routed selfId p.peers, ∀ r, I r →
      I ⟨r.installed.insert q.id q.podCidr, r.net.addRoute q.podCidr (hostPart q.addr)⟩)
    (h : I r) : I (r.reconcile selfId p) := by
  have hremoved := removeAll_keeps hremove p.replies
    (diffRoutes selfId p.peers r.installed p.order).2 0 r h
  have hfresh : ∀ x ∈ (diffRoutes selfId p.peers r.installed p.order).1,
      ∃ q ∈ routed selfId p.peers, x = (q.podCidr, q.addr) := by
    intro x hx
    obtain ⟨q, hq, rfl⟩ := List.mem_map.1 hx
    exact ⟨q, List.mem_of_mem_filter hq, rfl⟩
  simp only [reconcile]
  split
  · exact addAll_keeps hdistinct hadd p.replies _ hfresh _ _ hremoved
  · exact hremoved

end Agent.Routes

namespace Fleet

variable {N A : Type} {nodes : N → NodeRegistration} {cidr : Ipv4Net} {n : N} {r : Routes}
  {peers : List NodeStatus}

/-! ## Routes of a fleet -/

/-- **Every route leads to another node**, its block to its host; and
every route the agent knows of is there. -/
structure Leads (nodes : N → NodeRegistration) (cidr : Ipv4Net) (n : N) (r : Routes) : Prop where
  installed : ∀ id podCidr, r.installed.lookup id = some podCidr →
    ∃ m, m ≠ n ∧ id = (nodes m).id ∧ podCidr = (derivePodCidr (nodes m).id cidr).display
  routes : ∀ podCidr gateway, r.net.routes.lookup podCidr = some gateway →
    ∃ m, m ≠ n ∧ podCidr = (derivePodCidr (nodes m).id cidr).display ∧
      gateway = hostPart (nodes m).addr
  carried : ∀ id podCidr, r.installed.lookup id = some podCidr →
    ∃ gateway, r.net.routes.lookup podCidr = some gateway

/-- The agent knows of every route there is. -/
def Owned (r : Routes) : Prop :=
  ∀ podCidr gateway, r.net.routes.lookup podCidr = some gateway →
    ∃ id, r.installed.lookup id = some podCidr

theorem Leads.start : Leads nodes cidr n ⟨∅, .new⟩ := ⟨nofun, nofun, nofun⟩

theorem Owned.start : Owned ⟨∅, .new⟩ := nofun

/-- An agent started again finds routes it knows nothing of. -/
theorem Leads.respawn (h : Leads nodes cidr n r) : Leads nodes cidr n ⟨∅, r.net⟩ :=
  ⟨nofun, h.routes, nofun⟩

theorem Leads.remove (h : Leads nodes cidr n r) (podCidr : String) :
    Leads nodes cidr n ⟨Routes.forget r.installed podCidr, r.net.removeRoute podCidr⟩ := by
  refine ⟨fun id c hc => ?_, fun c gateway hc => ?_, fun id c hc => ?_⟩
  · rw [Routes.lookup_forget] at hc
    split at hc
    · cases hc
    · exact h.installed id c hc
  · simp only [Agent.FakeNetManager.removeRoute, Table.lookup_erase_eq] at hc
    split at hc
    · cases hc
    · exact h.routes c gateway hc
  · rw [Routes.lookup_forget] at hc
    split at hc
    · cases hc
    · rename_i hne
      obtain ⟨gateway, hgateway⟩ := h.carried id c hc
      refine ⟨gateway, ?_⟩
      have hcne : c ≠ podCidr := by
        rintro rfl
        exact hne hc
      simp only [Agent.FakeNetManager.removeRoute, Table.lookup_erase_eq, if_neg hcne, hgateway]

theorem Owned.remove (h : Owned r) (podCidr : String) :
    Owned ⟨Routes.forget r.installed podCidr, r.net.removeRoute podCidr⟩ := by
  intro c gateway hc
  simp only [Agent.FakeNetManager.removeRoute, Table.lookup_erase_eq] at hc
  split at hc
  · cases hc
  · rename_i hne
    obtain ⟨id, hid⟩ := h c gateway hc
    refine ⟨id, ?_⟩
    simp only [Routes.lookup_forget, hid, Option.some.injEq, hne, if_false]

section Pass

variable (hpeers : TruthfulPeers nodes cidr peers) {p : NodeStatus}
  (hp : p ∈ routed (nodes n).id peers)

include hpeers hp

/-- A peer with a route is another node. -/
theorem TruthfulPeers.routed : ∃ m, m ≠ n ∧ p.id = (nodes m).id ∧ p.addr = (nodes m).addr ∧
    p.podCidr = (derivePodCidr (nodes m).id cidr).display := by
  obtain ⟨hmem, hself⟩ := List.mem_filter.1 hp
  obtain ⟨m, hid, haddr, hpod⟩ := hpeers.known p hmem
  simp only [Bool.and_eq_true, decide_eq_true_eq] at hself
  refine ⟨m, ?_, hid, haddr, hpod⟩
  rintro rfl
  exact hself.1 hid

theorem Leads.add (h : Leads nodes cidr n r) : Leads nodes cidr n
    ⟨r.installed.insert p.id p.podCidr, r.net.addRoute p.podCidr (hostPart p.addr)⟩ := by
  obtain ⟨m, hm, hid, haddr, hpod⟩ := TruthfulPeers.routed hpeers hp
  refine ⟨fun id c hc => ?_, fun c gateway hc => ?_, fun id c hc => ?_⟩
  · rw [Table.lookup_insert_eq] at hc
    split at hc
    · rename_i heq
      cases hc
      exact ⟨m, hm, heq.trans hid, hpod⟩
    · exact h.installed id c hc
  · simp only [Agent.FakeNetManager.addRoute, Table.lookup_insert_eq] at hc
    split at hc
    · rename_i heq
      cases hc
      exact ⟨m, hm, heq.trans hpod, congrArg hostPart haddr⟩
    · exact h.routes c gateway hc
  · simp only [Agent.FakeNetManager.addRoute, Table.lookup_insert_eq]
    split
    · exact ⟨_, rfl⟩
    · rename_i hne
      rw [Table.lookup_insert_eq] at hc
      split at hc
      · cases hc
        exact absurd rfl hne
      · exact h.carried id c hc

theorem Owned.add (h : Leads nodes cidr n r) (howned : Owned r) :
    Owned ⟨r.installed.insert p.id p.podCidr, r.net.addRoute p.podCidr (hostPart p.addr)⟩ := by
  obtain ⟨m, -, hid, -, hpod⟩ := TruthfulPeers.routed hpeers hp
  intro c gateway hc
  simp only [Agent.FakeNetManager.addRoute, Table.lookup_insert_eq] at hc ⊢
  split at hc
  · rename_i heq
    exact ⟨p.id, by rw [if_pos rfl, heq]⟩
  · rename_i hne
    obtain ⟨id, hlookup⟩ := howned c gateway hc
    refine ⟨id, ?_⟩
    rw [if_neg, hlookup]
    -- What the agent knew of the peer is what it puts down for it now.
    rintro rfl
    obtain ⟨m', -, hid', hpod'⟩ := h.installed _ c hlookup
    have hsame : derivePodCidr (nodes m).id cidr = derivePodCidr (nodes m').id cidr := by
      rw [← hid, hid']
    rw [hpod, hpod', hsame] at hne
    exact hne rfl

end Pass

section Done

variable {x : Routes.Pass} (hpeers : TruthfulPeers nodes cidr x.peers)
  (hblocks : Function.Injective fun m => derivePodCidr (nodes m).id cidr)
  (hdone : ∀ i, x.replies i = .done)

include hpeers hblocks hdone

/-- **A pass with every command done** routes every peer alive in its
list. -/
theorem lookup_reconcile (h : Leads nodes cidr n r) {p : NodeStatus}
    (hp : p ∈ routed (nodes n).id x.peers) :
    (r.reconcile (nodes n).id x).net.routes.lookup p.podCidr = some (hostPart p.addr) := by
  have hdistinct := hpeers.distinct.sublist
    (List.filter_sublist : (Agent.routed (nodes n).id x.peers).Sublist _)
  obtain ⟨m, -, hid, haddr, hpod⟩ := TruthfulPeers.routed hpeers hp
  rw [(Routes.reconcile_done hdone hpeers.distinct).2]
  by_cases hsame : r.installed.lookup p.id = some p.podCidr
  · refine Or.inr ⟨fun q hq hc => ?_, ?_, ?_⟩
    · rw [hdistinct.eq_of_podCidr (Routes.mem_fresh.1 hq).1 hp hc, Routes.mem_fresh] at hq
      exact hq.2 hsame
    · obtain ⟨gateway, hgateway⟩ := h.carried _ _ hsame
      obtain ⟨m', -, hpod', rfl⟩ := h.routes _ _ hgateway
      have heq : m' = m := hblocks (Ipv4Net.display_inj (hpod'.symm.trans hpod))
      rw [hgateway, heq, haddr]
    · rintro ⟨id, hlookup, hdead⟩
      obtain ⟨m', -, hid', hpod'⟩ := h.installed _ _ hlookup
      have heq : m' = m := hblocks (Ipv4Net.display_inj (hpod'.symm.trans hpod))
      exact hdead p hp (by rw [hid, hid', heq])
  · exact Or.inl ⟨p, Routes.mem_fresh.2 ⟨hp, hsame⟩, rfl, rfl⟩

/-- And no other, if the agent knows of every route there is. -/
theorem routed_reconcile (h : Leads nodes cidr n r) (howned : Owned r) :
    Routed (nodes n).id x.peers (r.reconcile (nodes n).id x).net.routes := by
  intro c gateway
  constructor
  · rw [(Routes.reconcile_done hdone hpeers.distinct).2]
    rintro (⟨q, hq, hc, hgateway⟩ | ⟨-, hold, hlive⟩)
    · exact ⟨q, (Routes.mem_fresh.1 hq).1, hc, hgateway⟩
    · obtain ⟨id, hlookup⟩ := howned c gateway hold
      obtain ⟨m, -, hid, hpod⟩ := h.installed id c hlookup
      obtain ⟨m', -, hpod', rfl⟩ := h.routes c gateway hold
      have heq : m' = m := hblocks (Ipv4Net.display_inj (hpod'.symm.trans hpod))
      obtain ⟨q, hq, hqid⟩ : ∃ q ∈ routed (nodes n).id x.peers, q.id = id := by
        by_contra hdead
        exact hlive ⟨id, hlookup, fun q hq hqid => hdead ⟨q, hq, hqid⟩⟩
      obtain ⟨k, -, hid', haddr', hpod''⟩ := TruthfulPeers.routed hpeers hq
      have hk : derivePodCidr (nodes k).id cidr = derivePodCidr (nodes m).id cidr := by
        rw [← hid', hqid, hid]
      refine ⟨q, hq, by rw [hpod'', hk, hpod], ?_⟩
      rw [haddr', hblocks hk, heq]
  · rintro ⟨q, hq, rfl, rfl⟩
    exact lookup_reconcile hpeers hblocks hdone h hq

end Done

/-! ## The loop's passes -/

variable [DecidableEq N] [Ipnet] {parse : String → Option A} {label : Label N} {w w' : Worker}
  {l l' : RegistrationLoop A}

/-- A peer list a loop waits for, or has been answered and not yet read. -/
def Lists (nodes : N → NodeRegistration) (cidr : Ipv4Net) (l : RegistrationLoop A) : Prop :=
  ∀ handler, l.call = some ⟨.nodes, some handler⟩ → handler = handleList ∨
    ∃ peers, handler = .ret ⟨200, .nodes peers⟩ ∧ TruthfulPeers nodes cidr peers

omit [DecidableEq N] in
theorem Moves.lists (hmove : Moves parse nodes n label w l w' l')
    (hw : w.registry.Truthful nodes cidr) (h : Lists nodes cidr l) : Lists nodes cidr l' := by
  intro handler hcall
  cases hmove with
  | still => exact h handler hcall
  | aside => exact h handler hcall
  | begun =>
    unfold RegistrationLoop.begin at hcall
    split at hcall
    · split at hcall
      · cases hcall
      · cases hcall
        exact Or.inl rfl
    · cases hcall
  | @served _ _ o errand ρ c k hcall' hc =>
    cases hcall
    rcases h _ hcall' with hh | ⟨peers, hh, -⟩
    · cases hh
      exact Or.inr ⟨_, rfl, hw.list o.now⟩
    · cases hh
  | forwarded hcall' =>
    cases hcall
    rcases h _ hcall' with hh | ⟨peers, hh, -⟩
    · cases hh
    · cases hh
  | heard =>
    rw [call_conclude] at hcall
    split at hcall <;> cases hcall
    exact Or.inl rfl
  | gaveUp =>
    rw [call_conclude] at hcall
    split at hcall <;> cases hcall
    exact Or.inl rfl
  | restarted =>
    obtain ⟨call, -, heq⟩ := Option.map_eq_some_iff.1 hcall
    cases congrArg Call.handler heq
  | rebooted => cases hcall
  | respawned => cases hcall

omit [DecidableEq N] in
/-- Only a peer list changes the routes. -/
theorem routes_conclude (l : RegistrationLoop A) (me : NodeRegistration) (x : Circumstance)
    (errand : Errand) (response : Option Response) :
    (l.conclude parse me x errand response).routes =
      match errand, response.bind fetchNodes with
      | .nodes, some peers => l.routes.reconcile me.id ⟨peers, x.order, x.replies⟩
      | _, _ => l.routes := by
  cases errand with
  | register =>
    simp only [RegistrationLoop.conclude]
    split <;> rfl
  | heartbeat =>
    simp only [RegistrationLoop.conclude]
    split <;> rfl
  | nodes =>
    simp only [RegistrationLoop.conclude]
    split
    · rename_i hresponse
      rw [hresponse]
    · rename_i hresponse
      rw [hresponse]

omit [DecidableEq N] [Ipnet] in
/-- What a loop hears is a peer list that tells of the fleet. -/
theorem Lists.heard (h : Lists nodes cidr l) {response : Response}
    (hcall : l.call = some ⟨.nodes, some (.ret response)⟩) {peers : List NodeStatus}
    (hresponse : fetchNodes response = some peers) : TruthfulPeers nodes cidr peers := by
  rcases h _ hcall with hh | ⟨peers', hh, hpeers⟩
  · cases hh
  · cases hh
    cases hresponse
    exact hpeers

omit [DecidableEq N] in
/-- What a move does to the routes. -/
theorem Moves.routes (hmove : Moves parse nodes n label w l w' l') (h : Lists nodes cidr l) :
    l'.routes = l.routes ∨
    (∃ x : Routes.Pass, TruthfulPeers nodes cidr x.peers ∧
      l'.routes = l.routes.reconcile (nodes n).id x) ∨
    l'.routes = ⟨∅, .new⟩ ∨ label = .respawn n ∧ l'.routes = ⟨∅, l.routes.net⟩ := by
  cases hmove with
  | still => exact Or.inl rfl
  | aside => exact Or.inl rfl
  | begun =>
    refine Or.inl ?_
    unfold RegistrationLoop.begin
    split
    · split <;> rfl
    · rfl
  | served => exact Or.inl rfl
  | forwarded => exact Or.inl rfl
  | @heard _ _ x errand response hcall =>
    rw [routes_conclude]
    split
    · rename_i peers hresponse
      have hresponse : fetchNodes response = some peers := hresponse
      exact Or.inr (Or.inl ⟨⟨peers, _, _⟩, h.heard hcall hresponse, rfl⟩)
    · exact Or.inl rfl
  | @gaveUp _ _ x errand handler hcall =>
    refine Or.inl ?_
    rw [routes_conclude]
    cases errand <;> rfl
  | restarted => exact Or.inl rfl
  | rebooted => exact Or.inr (Or.inr (Or.inl rfl))
  | respawned => exact Or.inr (Or.inr (Or.inr ⟨rfl, rfl⟩))

omit [DecidableEq N] [Ipnet] in
theorem Leads.pass (h : Leads nodes cidr n r) {x : Routes.Pass}
    (hpeers : TruthfulPeers nodes cidr x.peers) :
    Leads nodes cidr n (r.reconcile (nodes n).id x) :=
  Routes.reconcile_keeps hpeers.distinct (fun podCidr _ h => h.remove podCidr)
    (fun _ hq _ h => h.add hpeers hq) h

omit [DecidableEq N] [Ipnet] in
theorem Owned.pass (h : Leads nodes cidr n r) (howned : Owned r) {x : Routes.Pass}
    (hpeers : TruthfulPeers nodes cidr x.peers) : Owned (r.reconcile (nodes n).id x) :=
  (Routes.reconcile_keeps (I := fun r => Leads nodes cidr n r ∧ Owned r) hpeers.distinct
    (fun podCidr _ h => ⟨h.1.remove podCidr, h.2.remove podCidr⟩)
    (fun _ hq _ h => ⟨h.1.add hpeers hq, Owned.add hpeers hq h.1 h.2⟩) ⟨h, howned⟩).2

variable (parse nodes) in
theorem leads_run (serviceCidr : Ipv4Net) (labels : List (Label N)) (n : N) :
    Lists nodes cidr (((start cidr serviceCidr : Fleet N A).run parse nodes labels).loops n) ∧
      Leads nodes cidr n
        (((start cidr serviceCidr : Fleet N A).run parse nodes labels).loops n).routes := by
  refine (run_keeps n (P := fun _ => True)
    (I := fun _ l => Lists nodes cidr l ∧ Leads nodes cidr n l.routes)
    (fun _ hw hmove h => ⟨hmove.lists hw h.1, ?_⟩) (fun _ _ => trivial) (.start serviceCidr)
    ⟨nofun, .start⟩).2
  rcases hmove.routes h.1 with heq | ⟨x, hpeers, heq⟩ | heq | ⟨-, heq⟩
  · rw [heq]
    exact h.2
  · rw [heq]
    exact h.2.pass hpeers
  · rw [heq]
    exact .start
  · rw [heq]
    exact h.2.respawn

variable (parse) in
theorem owned_run (serviceCidr : Ipv4Net) {labels : List (Label N)} {n : N}
    (hlabels : ∀ label ∈ labels, label ≠ .respawn n) :
    Owned (((start cidr serviceCidr : Fleet N A).run parse nodes labels).loops n).routes := by
  refine (run_keeps n (P := fun label => label ≠ .respawn n)
    (I := fun _ l => Lists nodes cidr l ∧ Leads nodes cidr n l.routes ∧ Owned l.routes)
    (fun hlabel hw hmove h => ⟨hmove.lists hw h.1, ?_⟩) hlabels (.start serviceCidr)
    ⟨nofun, .start, .start⟩).2.2.2
  rcases hmove.routes h.1 with heq | ⟨x, hpeers, heq⟩ | heq | ⟨hrespawn, -⟩
  · rw [heq]
    exact h.2
  · rw [heq]
    exact ⟨h.2.1.pass hpeers, h.2.2.pass h.2.1 hpeers⟩
  · rw [heq]
    exact ⟨.start, .start⟩
  · exact absurd hrespawn hlabel

/-! ## The overlay -/

/-- **The routes of a node**, at any moment. -/
structure Overlay (parse : String → Option A) (nodes : N → NodeRegistration) (cidr : Ipv4Net)
    (n : N) (labels : List (Label N)) (f : Fleet N A) : Prop where
  /-- A route leads another node's block to that node's host. -/
  leads : ∀ podCidr gateway, (f.loops n).routes.net.routes.lookup podCidr = some gateway →
    ∃ m, m ≠ n ∧ podCidr = (derivePodCidr (nodes m).id cidr).display ∧
      gateway = hostPart (nodes m).addr
  /-- A pass with every command done routes the peers alive in its list;
  and no others, unless the agent alone was started again. -/
  follows : ∀ x response peers, (f.loops n).call = some ⟨.nodes, some (.ret response)⟩ →
    fetchNodes response = some peers → (∀ i, x.replies i = .done) →
    (∀ p ∈ routed (nodes n).id peers,
      ((f.step parse nodes (.hear n true x)).loops n).routes.net.routes.lookup p.podCidr =
        some (hostPart p.addr)) ∧
    ((∀ label ∈ labels, label ≠ .respawn n) →
      Routed (nodes n).id peers ((f.step parse nodes (.hear n true x)).loops n).routes.net.routes)

/-- **The overlay holds in every run**, where no two ids hash to one
block. -/
theorem overlay (hblocks : Function.Injective fun m => derivePodCidr (nodes m).id cidr)
    (serviceCidr : Ipv4Net) (labels : List (Label N)) (n : N) :
    Overlay parse nodes cidr n labels
      ((start cidr serviceCidr : Fleet N A).run parse nodes labels) := by
  obtain ⟨hlists, hleads⟩ := leads_run (A := A) nodes parse serviceCidr labels n
  refine ⟨hleads.routes, fun x response peers hcall hresponse hdone => ?_⟩
  have hpeers := hlists.heard hcall hresponse
  have hpass : (((start cidr serviceCidr : Fleet N A).run parse nodes labels).step parse nodes
      (.hear n true x)).loops n =
      (((start cidr serviceCidr : Fleet N A).run parse nodes labels).loops n).conclude parse
        (nodes n) x .nodes (some response) := by
    simp only [step, hear, hcall, loops_setLoop, if_true]
  rw [hpass, routes_conclude, Option.bind_some, hresponse]
  refine ⟨fun p hp => ?_, fun hlabels => ?_⟩
  · exact lookup_reconcile hpeers hblocks hdone hleads hp
  · exact routed_reconcile hpeers hblocks hdone hleads (owned_run parse serviceCidr hlabels)

end Fleet

open Fleet.Sample in
open scoped Agent.Sample in
/-- Two nodes have registered, and the first asks for the peer list. -/
theorem Fleet.overlay_two : Overlay (A := String) some nodes cidr true
    (enrol true choice circumstance ++ enrol false choice circumstance ++ [.serve true choice])
    ((start cidr serviceCidr).run some nodes (enrol true choice circumstance ++
      enrol false choice circumstance ++ [.serve true choice])) := by
  refine overlay (fun n m h => ?_) serviceCidr _ true
  cases n <;> cases m <;> first | rfl | exact absurd h (by decide +kernel)

end Keel
