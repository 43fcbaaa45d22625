import Keel.Agent.Model.Registration
/-!
# The proxies and the service table

After a call of `reconcile_services` that goes well the node relays to
exactly the services of the table. Whether it listens where the table says
and has the aliases the table asks for depends on what earlier calls left:
a known service is never moved, and an alias that is no proxied service's
is never removed.

What has to hold before such a call is `Settled`, and it is exact
(`follows_table_iff`), whatever became of the calls before.
-/

namespace Keel

namespace Agent

open ControlPlane (ServiceProxyEntry ServiceReplica)

/-- No two entries of one name or of one virtual address. -/
structure DistinctEntries (entries : List ServiceProxyEntry) : Prop where
  names : (entries.map ServiceProxyEntry.name).Nodup
  vips : (entries.map ServiceProxyEntry.vip).Nodup

namespace FakeNetManager

variable (n : FakeNetManager) (bridge address : String)

def aliasesOn : Finset String := (n.aliases.lookup bridge).getD ∅

theorem aliasesOn_addAlias :
    (n.addAlias bridge address).aliasesOn bridge = insert address (n.aliasesOn bridge) := by
  rw [aliasesOn, addAlias, AList.lookup_insert]
  rfl

theorem aliasesOn_removeAlias :
    (n.removeAlias bridge address).aliasesOn bridge = (n.aliasesOn bridge).erase address := by
  rw [removeAlias]
  split
  · rename_i set hset
    rw [aliasesOn, AList.lookup_insert, aliasesOn, hset]
    rfl
  · rename_i hnone
    rw [aliasesOn, hnone]
    rfl

end FakeNetManager

namespace Proxies

variable {A : Type} {parse : String → Option A} {s : Proxies A}

/-- The virtual addresses aliased on the bridge. -/
def aliased (s : Proxies A) : Finset String := s.net.aliasesOn proxyBridge

/-- Every alias and bind operation of the call succeeds. -/
structure Call.Clean (c : Call) : Prop where
  removed : ∀ i, c.removed i = .done
  added : ∀ i, c.added i = .done
  bound : ∀ i, c.bound i = true

/-- The node relays to the services of a table, where the table says. -/
structure FollowsTable (parse : String → Option A) (entries : List ServiceProxyEntry)
    (s : Proxies A) : Prop where
  names : ∀ name, name ∈ s.proxied ↔ name ∈ entries.map ServiceProxyEntry.name
  services : ∀ e ∈ entries, ∃ service, s.proxied.lookup e.name = some service ∧
    service.listening = (e.vip, e.port) ∧ service.replicas = replicaSocketAddrs parse e
  aliases : ∀ vip, vip ∈ s.aliased ↔ vip ∈ entries.map ServiceProxyEntry.vip

/-- A service relayed to that the table does not have. -/
def Gone (s : Proxies A) (entries : List ServiceProxyEntry) (service : ProxiedService A) : Prop :=
  ∃ name, s.proxied.lookup name = some service ∧ name ∉ entries.map ServiceProxyEntry.name

/-- What a call needs of what it finds: an entry known already is
listened for where it says, at an alias that is there and no service that
goes has; and every other alias is an entry's or goes with a service. -/
structure Settled (entries : List ServiceProxyEntry) (s : Proxies A) : Prop where
  known : ∀ e ∈ entries, ∀ service, s.proxied.lookup e.name = some service →
    service.listening = (e.vip, e.port) ∧ e.vip ∈ s.aliased ∧
      ∀ service', s.Gone entries service' → service'.vip ≠ e.vip
  owned : ∀ vip ∈ s.aliased, vip ∈ entries.map ServiceProxyEntry.vip ∨
    ∃ service, s.Gone entries service ∧ service.vip = vip

/-- Every service relayed to is on the one bridge. -/
def OnBridge (s : Proxies A) : Prop :=
  ∀ name service, s.proxied.lookup name = some service → service.bridge = proxyBridge

/-! ## Calls, step by step -/

theorem OnBridge.drop (h : s.OnBridge) (reply : Reply) (name : String) :
    (s.drop reply name).OnBridge := by
  intro n service hlookup
  rw [Proxies.drop] at hlookup
  split at hlookup
  · exact h n service hlookup
  · rw [Table.lookup_erase_eq] at hlookup
    split at hlookup
    · cases hlookup
    · exact h n service hlookup

theorem OnBridge.serve (h : s.OnBridge) (reply : Reply) (bound : Bool) (entry : ServiceProxyEntry) :
    (s.serve parse reply bound entry).OnBridge := by
  intro n service hlookup
  rw [Proxies.serve] at hlookup
  split at hlookup
  · rename_i old hold
    rw [Table.lookup_insert_eq] at hlookup
    split at hlookup
    · cases hlookup
      exact h _ old hold
    · exact h n service hlookup
  · split at hlookup
    · exact h n service hlookup
    · cases bound with
      | false => exact h n service hlookup
      | true =>
        rw [if_pos rfl, Table.lookup_insert_eq] at hlookup
        split at hlookup
        · cases hlookup
          rfl
        · exact h n service hlookup

theorem OnBridge.reconcile (h : s.OnBridge) (c : Call) : (s.reconcile parse c).OnBridge := by
  have hdrop : ∀ (l : List (String × ℕ)) (s : Proxies A), s.OnBridge →
      (l.foldl (fun s e => s.drop (c.removed e.2) e.1) s).OnBridge := by
    intro l
    induction l with
    | nil => exact fun s h => h
    | cons e l ih => exact fun s h => ih _ (h.drop _ _)
  have hserve : ∀ (l : List (ServiceProxyEntry × ℕ)) (s : Proxies A), s.OnBridge →
      (l.foldl (fun s e => s.serve parse (c.added e.2) (c.bound e.2) e.1) s).OnBridge := by
    intro l
    induction l with
    | nil => exact fun s h => h
    | cons e l ih => exact fun s h => ih _ (h.serve _ _ _)
  exact hserve _ _ (hdrop _ _ h)

theorem onBridge_run (calls : List Call) : ((start : Proxies A).run parse calls).OnBridge := by
  induction calls using List.reverseRecOn with
  | nil =>
    intro name service hlookup
    cases hlookup
  | append_singleton calls c ih =>
    rw [run, List.foldl_append]
    exact ih.reconcile c

/-! ## A clean call -/

theorem lookup_drop (reply : Reply) (name n : String) :
    (s.drop reply name).proxied.lookup n = if n = name then none else s.proxied.lookup n := by
  rw [drop]
  split
  · rename_i hnone
    split
    · rename_i heq
      rw [heq, hnone]
    · rfl
  · exact Table.lookup_erase_eq ..

theorem mem_aliased_drop (h : s.OnBridge) (name vip : String) :
    vip ∈ (s.drop .done name).aliased ↔
      vip ∈ s.aliased ∧ ∀ service, s.proxied.lookup name = some service → service.vip ≠ vip := by
  rw [drop]
  cases hlookup : s.proxied.lookup name with
  | none => simp
  | some service =>
    simp only [if_true, aliased, h name service hlookup, FakeNetManager.aliasesOn_removeAlias,
      Finset.mem_erase, Option.some.injEq, forall_eq']
    rw [and_comm, ne_comm]

/-- The loop over the services that have gone. -/
def dropAll (s : Proxies A) (names : List String) : Proxies A :=
  names.foldl (fun s name => s.drop .done name) s

theorem lookup_dropAll (names : List String) (n : String) :
    ∀ s : Proxies A, (s.dropAll names).proxied.lookup n =
      if n ∈ names then none else s.proxied.lookup n := by
  induction names with
  | nil => exact fun s => rfl
  | cons name names ih =>
    intro s
    rw [dropAll, List.foldl_cons]
    refine (ih _).trans ?_
    rw [lookup_drop]
    by_cases hn : n = name <;> simp [hn]

theorem mem_aliased_dropAll (names : List String) (vip : String) :
    ∀ s : Proxies A, s.OnBridge → (vip ∈ (s.dropAll names).aliased ↔
      vip ∈ s.aliased ∧ ∀ name ∈ names, ∀ service, s.proxied.lookup name = some service →
        service.vip ≠ vip) := by
  induction names with
  | nil =>
    intro s _
    simp [dropAll]
  | cons name names ih =>
    intro s h
    rw [dropAll, List.foldl_cons]
    refine (ih _ (h.drop _ _)).trans ?_
    rw [mem_aliased_drop h, List.forall_mem_cons, and_assoc]
    refine and_congr_right fun _ => and_congr_right fun hname => ?_
    refine forall₂_congr fun n _ => forall_congr' fun service => ?_
    rw [lookup_drop]
    by_cases hn : n = name
    · rw [if_pos hn, hn]
      exact iff_of_true (fun h => by cases h) (hname service)
    · rw [if_neg hn]

/-- What a call makes of a service, found or not. -/
def served (parse : String → Option A) (entry : ServiceProxyEntry) :
    Option (ProxiedService A) → ProxiedService A
  | some service => { service with replicas := replicaSocketAddrs parse entry }
  | none => ⟨replicaSocketAddrs parse entry, (entry.vip, entry.port), proxyBridge, entry.vip⟩

theorem lookup_serve (entry : ServiceProxyEntry) (n : String) :
    (s.serve parse .done true entry).proxied.lookup n =
      if n = entry.name then some (served parse entry (s.proxied.lookup n))
      else s.proxied.lookup n := by
  have hinsert : ∀ service, (s.proxied.insert entry.name service).lookup n =
      if n = entry.name then some service else s.proxied.lookup n :=
    fun service => Table.lookup_insert_eq ..
  rw [serve]
  split
  · rename_i service hservice
    rw [hinsert]
    split
    · rename_i hn
      rw [hn, hservice]
      rfl
    · rfl
  · rename_i hnone
    simp only [reduceCtorEq, if_false, if_true]
    rw [hinsert]
    split
    · rename_i hn
      rw [hn, hnone]
      rfl
    · rfl

theorem mem_aliased_serve (entry : ServiceProxyEntry) (vip : String) :
    vip ∈ (s.serve parse .done true entry).aliased ↔
      vip ∈ s.aliased ∨ s.proxied.lookup entry.name = none ∧ entry.vip = vip := by
  rw [serve]
  cases hlookup : s.proxied.lookup entry.name with
  | some service => simp [aliased]
  | none =>
    simp only [reduceCtorEq, if_false, if_true, aliased, FakeNetManager.aliasesOn_addAlias,
      Finset.mem_insert, true_and]
    rw [or_comm, eq_comm]

/-- The loop over the table. -/
def serveAll (parse : String → Option A) (s : Proxies A) (entries : List ServiceProxyEntry) :
    Proxies A :=
  entries.foldl (fun s e => s.serve parse .done true e) s

theorem lookup_serveAll_of_notMem {entries : List ServiceProxyEntry} {n : String} :
    ∀ {s : Proxies A}, n ∉ entries.map ServiceProxyEntry.name →
      (s.serveAll parse entries).proxied.lookup n = s.proxied.lookup n := by
  induction entries with
  | nil => exact fun _ => rfl
  | cons e entries ih =>
    intro s hn
    rw [List.map_cons, List.mem_cons, not_or] at hn
    rw [serveAll, List.foldl_cons]
    refine (ih hn.2).trans ?_
    rw [lookup_serve, if_neg hn.1]

theorem lookup_serveAll {entries : List ServiceProxyEntry} {e : ServiceProxyEntry} :
    ∀ {s : Proxies A}, (entries.map ServiceProxyEntry.name).Nodup → e ∈ entries →
      (s.serveAll parse entries).proxied.lookup e.name =
        some (served parse e (s.proxied.lookup e.name)) := by
  induction entries with
  | nil => exact fun _ he => absurd he List.not_mem_nil
  | cons e' entries ih =>
    intro s hnodup he
    rw [List.map_cons, List.nodup_cons] at hnodup
    rw [serveAll, List.foldl_cons]
    rcases List.mem_cons.1 he with rfl | he
    · refine (lookup_serveAll_of_notMem hnodup.1).trans ?_
      rw [lookup_serve, if_pos rfl]
    · refine (ih hnodup.2 he).trans ?_
      have hne : e.name ≠ e'.name := by
        intro heq
        exact hnodup.1 (List.mem_map.2 ⟨e, he, heq⟩)
      rw [lookup_serve, if_neg hne]

theorem mem_aliased_serveAll {entries : List ServiceProxyEntry} {vip : String} :
    ∀ {s : Proxies A}, (entries.map ServiceProxyEntry.name).Nodup →
      (vip ∈ (s.serveAll parse entries).aliased ↔
        vip ∈ s.aliased ∨ ∃ e ∈ entries, s.proxied.lookup e.name = none ∧ e.vip = vip) := by
  induction entries with
  | nil =>
    intro s _
    simp [serveAll]
  | cons e entries ih =>
    intro s hnodup
    rw [List.map_cons, List.nodup_cons] at hnodup
    rw [serveAll, List.foldl_cons]
    refine (ih hnodup.2).trans ?_
    rw [mem_aliased_serve, List.exists_mem_cons_iff, or_assoc]
    refine or_congr_right (or_congr_right (exists_congr fun e' => and_congr_right fun he' => ?_))
    have hne : e'.name ≠ e.name := by
      intro heq
      exact hnodup.1 (List.mem_map.2 ⟨e', he', heq⟩)
    rw [lookup_serve, if_neg hne]

/-- **A clean call** drops what has gone and serves the table. -/
theorem reconcile_clean {c : Call} (hclean : c.Clean) :
    s.reconcile parse c = (s.dropAll (s.gone c)).serveAll parse c.desired := by
  have hdrop : ∀ (names : List String) (s : Proxies A),
      names.zipIdx.foldl (fun s e => s.drop (c.removed e.2) e.1) s = s.dropAll names := by
    intro names s
    simp only [hclean.removed]
    rw [dropAll, ← List.foldl_map (f := Prod.fst) (g := fun s name => drop s .done name),
      List.zipIdx_map_fst]
  have hserve : ∀ (s : Proxies A),
      c.desired.zipIdx.foldl (fun s e => s.serve parse (c.added e.2) (c.bound e.2) e.1) s =
        s.serveAll parse c.desired := by
    intro s
    simp only [hclean.added, hclean.bound]
    rw [serveAll, ← List.foldl_map (f := Prod.fst) (g := fun s e => serve parse s .done true e),
      List.zipIdx_map_fst]
  rw [reconcile, hdrop, hserve]

theorem mem_gone {c : Call} {name : String} :
    name ∈ s.gone c ↔ (∃ service, s.proxied.lookup name = some service) ∧
      name ∉ c.desired.map ServiceProxyEntry.name := by
  simp only [gone, List.mem_filter, List.mem_map, Prod.exists, Table.mem_iter, decide_eq_true_eq,
    exists_and_right, exists_eq_right]

theorem lookup_reconcile {c : Call} (hclean : c.Clean) (hdistinct : DistinctEntries c.desired)
    {e : ServiceProxyEntry} (he : e ∈ c.desired) :
    (s.reconcile parse c).proxied.lookup e.name =
      some (served parse e (s.proxied.lookup e.name)) := by
  have hstays : e.name ∉ s.gone c := fun hgone => (mem_gone.1 hgone).2 (List.mem_map_of_mem he)
  rw [reconcile_clean hclean, lookup_serveAll hdistinct.names he, lookup_dropAll, if_neg hstays]

theorem lookup_reconcile_of_notMem {c : Call} (hclean : c.Clean) {name : String}
    (hname : name ∉ c.desired.map ServiceProxyEntry.name) :
    (s.reconcile parse c).proxied.lookup name = none := by
  rw [reconcile_clean hclean, lookup_serveAll_of_notMem hname, lookup_dropAll]
  split
  · rfl
  · rename_i hstays
    by_contra hsome
    exact hstays (mem_gone.2 ⟨Option.ne_none_iff_exists'.1 hsome, hname⟩)

theorem mem_aliased_reconcile {c : Call} (hclean : c.Clean) (hdistinct : DistinctEntries c.desired)
    (hbridge : s.OnBridge) (vip : String) :
    vip ∈ (s.reconcile parse c).aliased ↔
      (vip ∈ s.aliased ∧ ∀ service, s.Gone c.desired service → service.vip ≠ vip) ∨
        ∃ e ∈ c.desired, s.proxied.lookup e.name = none ∧ e.vip = vip := by
  rw [reconcile_clean hclean, mem_aliased_serveAll hdistinct.names,
    mem_aliased_dropAll _ _ _ hbridge]
  refine or_congr (and_congr_right fun _ => ?_) (exists_congr fun e => and_congr_right fun he => ?_)
  · constructor
    · rintro h service ⟨name, hlookup, hname⟩
      exact h name (mem_gone.2 ⟨⟨service, hlookup⟩, hname⟩) service hlookup
    · intro h name hgone service hlookup
      exact h service ⟨name, hlookup, (mem_gone.1 hgone).2⟩
  · have hstays : e.name ∉ s.gone c := fun hgone => (mem_gone.1 hgone).2 (List.mem_map_of_mem he)
    rw [lookup_dropAll, if_neg hstays]

/-- **What a clean call needs**, and all it needs. -/
theorem followsTable_reconcile_iff {c : Call} (hclean : c.Clean)
    (hdistinct : DistinctEntries c.desired) (hbridge : s.OnBridge) :
    (s.reconcile parse c).FollowsTable parse c.desired ↔ s.Settled c.desired := by
  have haliased : ∀ vip, vip ∈ (s.reconcile parse c).aliased ↔ _ :=
    mem_aliased_reconcile hclean hdistinct hbridge
  constructor
  · intro h
    constructor
    · intro e he service hservice
      obtain ⟨service', hlookup, hlistening, -⟩ := h.services e he
      rw [lookup_reconcile hclean hdistinct he, hservice] at hlookup
      cases hlookup
      refine ⟨hlistening, ?_⟩
      -- The alias is there after the call, and no new entry brought it.
      have hafter := (haliased e.vip).1 ((h.aliases e.vip).2 (List.mem_map_of_mem he))
      rcases hafter with h | ⟨e', he', hnone, hvip⟩
      · exact h
      · rw [List.inj_on_of_nodup_map hdistinct.vips he' he hvip, hservice] at hnone
        cases hnone
    · intro vip hvip
      by_contra hno
      rw [not_or] at hno
      exact hno.1 ((h.aliases vip).1 ((haliased vip).2
        (Or.inl ⟨hvip, fun service hgone heq => hno.2 ⟨service, hgone, heq⟩⟩)))
  · intro h
    constructor
    · intro name
      constructor
      · intro hmem
        by_contra hname
        have hsome := AList.lookup_isSome.2 hmem
        rw [lookup_reconcile_of_notMem hclean hname] at hsome
        cases hsome
      · intro hname
        obtain ⟨e, he, rfl⟩ := List.mem_map.1 hname
        rw [← AList.lookup_isSome, lookup_reconcile hclean hdistinct he]
        rfl
    · intro e he
      refine ⟨_, lookup_reconcile hclean hdistinct he, ?_, ?_⟩
      · cases hlookup : s.proxied.lookup e.name with
        | none => rfl
        | some service => exact (h.known e he service hlookup).1
      · cases s.proxied.lookup e.name <;> rfl
    · intro vip
      rw [haliased]
      constructor
      · rintro (⟨hvip, hstays⟩ | ⟨e, he, -, rfl⟩)
        · rcases h.owned vip hvip with hentry | ⟨service, hgone, heq⟩
          · exact hentry
          · exact absurd heq (hstays service hgone)
        · exact List.mem_map_of_mem he
      · intro hvip
        obtain ⟨e, he, rfl⟩ := List.mem_map.1 hvip
        cases hlookup : s.proxied.lookup e.name with
        | none => exact Or.inr ⟨e, he, hlookup, rfl⟩
        | some service =>
          obtain ⟨-, halias, hother⟩ := h.known e he service hlookup
          exact Or.inl ⟨halias, hother⟩

end Proxies

/-- **The proxies follow the service table** after a call that goes well,
whatever became of the calls before, exactly when they left it what
`Settled` says. -/
theorem follows_table_iff {A : Type} (parse : String → Option A) (past : List Proxies.Call)
    (c : Proxies.Call) (hclean : c.Clean) (hdistinct : DistinctEntries c.desired) :
    (Proxies.start.run parse (past ++ [c])).FollowsTable parse c.desired ↔
      (Proxies.start.run parse past).Settled c.desired := by
  rw [Proxies.run, List.foldl_append, List.foldl_cons, List.foldl_nil]
  exact Proxies.followsTable_reconcile_iff hclean hdistinct (Proxies.onBridge_run past)

namespace Sample

/-- How `a.b.c.d:port` is read. -/
def socketAddr (s : String) : Option (Ipv4Addr × ℕ) :=
  match s.toList.splitOn ':' with
  | [host, port] =>
    match (host.splitOn '.').mapM digits?, digits? port with
    | some [a, b, c, d], some port =>
      if a < 256 ∧ b < 256 ∧ c < 256 ∧ d < 256 ∧ port < 65536 then
        some (Ipv4Addr.ofOctets a b c d, port)
      else none
    | _, _ => none
  | _ => none

/-- `web` at a virtual address, with one replica. -/
def web (vip : String) : ServiceProxyEntry := ⟨"web", vip, 8080, [⟨"web-0", "n1", "10.0.2.2"⟩]⟩

/-- A call in which nothing fails, but binding where it is said to. -/
def called (desired : List ServiceProxyEntry) (bound : Bool) : Proxies.Call :=
  ⟨desired, .listed, fun _ => .done, fun _ => .done, fun _ => bound⟩

end Sample

open Sample in
theorem follows_table_sample :
    (Proxies.start.run socketAddr ([] ++ [called [web "10.0.250.7"] true])).FollowsTable socketAddr
      [web "10.0.250.7"] := by
  refine (follows_table_iff socketAddr [] (called [web "10.0.250.7"] true)
    ⟨fun _ => rfl, fun _ => rfl, fun _ => rfl⟩ ⟨by decide +kernel, by decide +kernel⟩).2 ⟨?_, ?_⟩
  · rintro e - service hlookup
    cases hlookup
  · intro vip hvip
    exact absurd hvip (Finset.notMem_empty vip)

open Sample in
/-- **A service that comes back at another address is not moved**, and
the alias of one that could not be bound before it went stays. -/
theorem proxies_drift :
    (¬ (Proxies.start.run socketAddr [called [web "10.0.250.7"] true,
        called [web "10.0.250.8"] true]).FollowsTable socketAddr [web "10.0.250.8"]) ∧
      ¬ (Proxies.start.run socketAddr [called [web "10.0.250.7"] false,
        called [] true]).FollowsTable socketAddr [] := by
  constructor
  · intro h
    obtain ⟨service, hlookup, hlistening, -⟩ := h.services (web "10.0.250.8") List.mem_cons_self
    have hstays : (Option.map ProxiedService.listening ((Proxies.start.run socketAddr
        [called [web "10.0.250.7"] true, called [web "10.0.250.8"] true]).proxied.lookup
          "web")) = some ("10.0.250.7", 8080) := by
      decide +kernel
    rw [show "web" = (web "10.0.250.8").name from rfl, hlookup, Option.map_some,
      hlistening] at hstays
    exact absurd hstays (by decide +kernel)
  · intro h
    have hleft : "10.0.250.7" ∈ (Proxies.start.run socketAddr
        [called [web "10.0.250.7"] false, called [] true]).aliased := by
      decide +kernel
    exact absurd ((h.aliases _).1 hleft) List.not_mem_nil

end Agent

end Keel
