import Keel.Cluster.Helpers
import Keel.ControlPlane.Helpers.Plan
import Keel.ControlPlane.Subnets
/-!
# Where discovery says a replica is

`healthy_replicas` joins three tables: the node of an entry is the one the
replica is placed on, its health is what that node last reported, and its
address is the one recorded for the replica, whichever node that was
recorded for. The three are written by separate commands, so an entry can
pair a node with an address of another one (`discovery_lies`): between
the two commands of a move, and after an operator deleted a replica,
whose address stays on record, and put it elsewhere.

In every run, requests overlapping in any way, in which no command brings
a node that reports a replica running together with an address of another
node (`KeepsJoined`), every entry is of the node the replica is placed on,
with an address recorded for that node and inside its pod network
(`discovery_truthful`).
-/

namespace Keel

namespace ControlPlane

/-! ## The property and the condition -/

/-- **Every entry tells the truth**: its node is the one the replica is
placed on, and its address was recorded for that node, within the node's
pod network. -/
def Worker.Discovers (w : Worker) (now : Instant) (s : String) : Prop :=
  ∀ entry ∈ w.healthyReplicas now s, w.placements.lookup entry.name = some entry.node ∧
    ∃ address podCidr, w.usedAddresses.byJail.lookup entry.name = some (entry.node, address) ∧
      entry.address = address.display ∧ w.registry.podCidr entry.node = some podCidr ∧
      podCidr.contains address = true

/-- What a heartbeat reports, the last word on a jail counting. -/
def reported (jails : List JailHealth) : Table Bool :=
  jails.foldl (fun m j => m.insert j.name j.running) ∅

/-- **The tables stay joined**: a command places a jail on a node that
reports it running, gives an address to a jail that is reported running,
or reports a jail running where it is placed, only if the address then on
record is that node's. -/
def Command.KeepsJoined (w : Worker) : {ρ : Type} → Command ρ → Prop
  | _, .recordPlacement r n => w.registry.isJailRunning n r = true →
    ∀ x ∈ w.usedAddresses.byJail.lookup r, x.1 = n
  | _, .recordReplicaAddress r n _ =>
    ∀ n' ∈ w.placements.lookup r, w.registry.isJailRunning n' r = true → n' = n
  | _, .heartbeat id _ _ jails => ∀ j ∈ jails, (reported jails).lookup j.name = some true →
    w.placements.lookup j.name = some id → ∀ x ∈ w.usedAddresses.byJail.lookup j.name, x.1 = id
  | _, _ => True

/-- The command a handler sends next, if it sends one. -/
def Handler.KeepsJoined (w : Worker) {α : Type} : Handler α → Prop
  | .command c _ => c.KeepsJoined w
  | _ => True

instance decidableKeepsJoined (w : Worker) : {ρ : Type} → (c : Command ρ) →
    Decidable (c.KeepsJoined w)
  | _, .recordPlacement .. => inferInstanceAs (Decidable (_ → _))
  | _, .recordReplicaAddress .. => inferInstanceAs (Decidable (∀ _ ∈ _, _))
  | _, .heartbeat .. => inferInstanceAs (Decidable (∀ _ ∈ _, _))
  | _, .register .. | _, .list | _, .resolve _ | _, .resolveOrSchedule _ | _, .resolvePlacement _
  | _, .removePlacement _ | _, .ownerOf _ | _, .applyService .. | _, .reconcileServices
  | _, .discoverService _ | _, .listServices | _, .listServiceProxyEntries | _, .deleteService _
  | _, .releaseReplicaAddress _ | _, .recordStandby .. | _, .recordPendingFence ..
  | _, .pendingFencesForNode _ | _, .removePendingFence _ | _, .prepareForceRepin _ =>
    inferInstanceAs (Decidable True)

instance (w : Worker) {α : Type} : DecidablePred (Handler.KeepsJoined w (α := α))
  | .command c _ => inferInstanceAs (Decidable (c.KeepsJoined w))
  | .ret _ | .forward .. => inferInstanceAs (Decidable True)

/-! ## Addresses of plans -/

/-- The action's address, if it has one, is of its node's block. -/
def ReplicaAction.Inside (cidr : Ipv4Net) (a : ReplicaAction) : Prop :=
  ∀ x ∈ a.slot?, (derivePodCidr x.2.1 cidr).contains x.2.2 = true

/-- A command that records an address records one of the node's block. -/
def Command.AddressInside (cidr : Ipv4Net) : {ρ : Type} → Command ρ → Prop
  | _, .recordReplicaAddress _ n a => (derivePodCidr n cidr).contains a = true
  | _, _ => True

/-- A reply plans addresses of the nodes' blocks. -/
def Command.PlansInside (cidr : Ipv4Net) : {ρ : Type} → Command ρ → ρ → Prop
  | _, .reconcileServices, actions => ∀ a ∈ actions, a.Inside cidr
  | _, .deleteService _, .ok actions => ∀ a ∈ actions, a.Inside cidr
  | _, .prepareForceRepin _, .ok prep =>
    (derivePodCidr prep.standbyNodeId cidr).contains prep.address = true
  | _, _, _ => True

/-- **What a handler records is what it was planned.** -/
abbrev Handler.RecordsInside (cidr : Ipv4Net) {α : Type} (p : Handler α) : Prop :=
  p.Sends (Command.AddressInside cidr) (Command.PlansInside cidr)

section Handlers

variable {cidr : Ipv4Net}

theorem executeReplicaActions_inside {as : List ReplicaAction} (h : ∀ a ∈ as, a.Inside cidr) :
    Handler.RecordsInside cidr (executeReplicaActions as) := by
  refine Prog.sends_forEach fun a ha => ?_
  cases a with
  | schedule name nodeId nodeAddr template address prefixLen standbyNodeId standbyAddr =>
    have haddress := h _ ha (name, nodeId, address) rfl
    simp only [executeReplicaAction, Prog.bind_eq, Prog.call_bind, Prog.sends_forward]
    intro answer
    rcases answer with e | ⟨status, text⟩
    · exact Prog.sends_ret
    · simp only
      split
      · refine ⟨trivial, fun _ _ => ⟨haddress, fun _ _ => ?_⟩⟩
        cases standbyNodeId with
        | none => exact Prog.sends_ret
        | some standbyId => exact Prog.sends_send.2 trivial
      · exact Prog.sends_ret
  | tearDown name nodeId nodeAddr =>
    simp only [executeReplicaAction, Prog.bind_eq, Prog.call_bind, Prog.sends_forward]
    intro answer
    rcases answer with e | ⟨status, text⟩
    · exact Prog.sends_ret
    · simp only
      split
      · exact ⟨trivial, fun _ _ => Prog.sends_send.2 trivial⟩
      · exact Prog.sends_ret

theorem reconcileAndExecute_inside : Handler.RecordsInside cidr reconcileAndExecute :=
  ⟨trivial, fun _ h => executeReplicaActions_inside h⟩

theorem checkAndExecuteFencing_inside (nodeId : String) :
    Handler.RecordsInside cidr (checkAndExecuteFencing nodeId) := by
  refine ⟨trivial, fun replicaNames _ => ?_⟩
  simp only [Prog.ret_bind]
  split
  · exact Prog.sends_ret
  refine ⟨trivial, fun addr _ => ?_⟩
  rcases addr with e | addr
  · exact Prog.sends_ret
  refine Prog.sends_forEach fun r _ => ?_
  simp only [executeFence, Prog.bind_eq, Prog.call_bind, Prog.sends_forward]
  intro answer
  rcases answer with e | ⟨status, text⟩
  · exact Prog.sends_ret
  simp only
  split
  · exact Prog.sends_send.2 trivial
  · exact Prog.sends_ret

theorem handleForward_inside (id : String) (method : Method) (path : NodePath) (body : Body) :
    Handler.RecordsInside cidr (handleForward id method path body) := by
  refine ⟨trivial, fun addr _ => ?_⟩
  rcases addr with e | addr
  · exact Prog.sends_ret
  intro answer
  rcases answer with e | ⟨status, text⟩ <;> exact Prog.sends_ret

theorem rejectIfServiceOwned_inside (name : String) :
    Handler.RecordsInside cidr (rejectIfServiceOwned name) := by
  refine ⟨trivial, fun owner _ => ?_⟩
  rcases owner with _ | _ | _ <;> exact Prog.sends_ret

theorem promote_inside {name : String} {prep : ForceRepinPrep}
    (h : (derivePodCidr prep.standbyNodeId cidr).contains prep.address = true) :
    Handler.RecordsInside cidr (promote name prep) := by
  simp only [promote, Prog.bind_eq, Prog.call_bind, Prog.sends_forward]
  intro answer
  rcases answer with e | ⟨status, text⟩
  · exact Prog.sends_ret
  simp only
  split
  · exact ⟨trivial, fun _ _ => ⟨h, fun _ _ => ⟨trivial, fun _ _ => ⟨trivial, fun _ _ =>
      Prog.sends_ret⟩⟩⟩⟩
  · exact Prog.sends_ret

/-- **Every handler records what it was planned.** -/
theorem handler_inside (request : Request) : Handler.RecordsInside cidr request.handler := by
  cases request with
  | register body =>
    rcases body with e | r
    · exact Prog.sends_ret
    refine ⟨trivial, fun reply _ => ?_⟩
    rcases reply with e | podCidr <;> exact Prog.sends_ret
  | heartbeat id body =>
    rcases body with e | h
    · exact Prog.sends_ret
    refine ⟨trivial, fun reply _ => ?_⟩
    rcases reply with e | ⟨⟩
    · exact Prog.sends_ret
    simp only [Prog.ret_bind]
    refine Prog.sends_bind reconcileAndExecute_inside fun _ => ?_
    refine Prog.sends_bind (checkAndExecuteFencing_inside id) fun _ => ?_
    exact ⟨trivial, fun _ _ => Prog.sends_ret⟩
  | listNodes => exact ⟨trivial, fun _ _ => Prog.sends_ret⟩
  | putNodeJail id name body =>
    refine Prog.sends_bind (rejectIfServiceOwned_inside name) fun response => ?_
    rcases response with _ | response
    · refine Prog.sends_bind (handleForward_inside ..) fun response => ?_
      simp only
      split
      · exact ⟨trivial, fun _ _ => Prog.sends_ret⟩
      · exact Prog.sends_ret
    · exact Prog.sends_ret
  | deleteNodeJail id name =>
    refine Prog.sends_bind (handleForward_inside ..) fun response => ?_
    simp only
    split
    · exact ⟨trivial, fun _ _ => Prog.sends_ret⟩
    · exact Prog.sends_ret
  | getNodeJails id => exact handleForward_inside ..
  | getNodeJail id name => exact handleForward_inside ..
  | getNodeVolume id name => exact handleForward_inside ..
  | deleteNodeVolume id name => exact handleForward_inside ..
  | putJail name body =>
    refine Prog.sends_bind (rejectIfServiceOwned_inside name) fun response => ?_
    rcases response with _ | response
    · refine ⟨trivial, fun reply _ => ?_⟩
      rcases reply with (e | e) | ⟨nodeId, addr⟩
      · exact Prog.sends_ret
      · exact Prog.sends_ret
      · intro answer
        rcases answer with e | ⟨status, text⟩
        · exact Prog.sends_ret
        · simp only [Prog.ret_bind]
          split
          · exact ⟨trivial, fun _ _ => Prog.sends_ret⟩
          · exact Prog.sends_ret
    · exact Prog.sends_ret
  | getJail name =>
    refine ⟨trivial, fun reply _ => ?_⟩
    rcases reply with e | ⟨nodeId, addr⟩
    · exact Prog.sends_ret
    intro answer
    rcases answer with e | ⟨status, text⟩ <;> exact Prog.sends_ret
  | deleteJail name =>
    refine ⟨trivial, fun reply _ => ?_⟩
    rcases reply with e | ⟨nodeId, addr⟩
    · exact Prog.sends_ret
    intro answer
    rcases answer with e | ⟨status, text⟩
    · exact Prog.sends_ret
    simp only [Prog.ret_bind]
    split
    · exact ⟨trivial, fun _ _ => Prog.sends_ret⟩
    · exact Prog.sends_ret
  | putService name body =>
    simp only [Request.handler, handleApplyService]
    split
    · exact Prog.sends_ret
    split
    · exact Prog.sends_ret
    refine ⟨trivial, fun reply _ => ?_⟩
    rcases reply with e | ⟨⟩
    · exact Prog.sends_ret
    simp only [Prog.ret_bind]
    exact Prog.sends_bind reconcileAndExecute_inside fun _ => Prog.sends_ret
  | getService name =>
    refine ⟨trivial, fun reply _ => ?_⟩
    rcases reply with e | replicas <;> exact Prog.sends_ret
  | deleteService name =>
    -- A deletion's plan is all tear-downs, which record no address.
    refine ⟨trivial, fun reply h => ?_⟩
    rcases reply with e | actions
    · exact Prog.sends_ret
    simp only [Prog.ret_bind]
    exact Prog.sends_bind (executeReplicaActions_inside h) fun _ => Prog.sends_ret
  | listServices => exact ⟨trivial, fun _ _ => Prog.sends_ret⟩
  | forceRepin name =>
    refine ⟨trivial, fun reply h => ?_⟩
    rcases reply with e | prep
    · exact Prog.sends_ret
    intro answer
    rcases answer with e | ⟨status, text⟩
    · exact Prog.sends_ret
    simp only [Prog.ret_bind]
    split
    · exact promote_inside h
    split <;> exact Prog.sends_ret
  | noRoute method path => exact Prog.sends_ret

end Handlers

/-! ## The registry -/

namespace Registry

variable (r : Registry)

/-- A node that registers reports nothing. -/
theorem isJailRunning_register {id addr : String} {replicateAddr : Option String} {cpu : ℚ}
    {memory : ℕ} {now : Instant} {n jail : String}
    (h : (r.register id addr replicateAddr cpu memory now).2.isJailRunning n jail = true) :
    r.isJailRunning n jail = true := by
  simp only [register] at h
  split at h
  · exact h
  · simp only [isJailRunning, Table.lookup_insert_eq] at h
    split at h
    · cases h
    · exact h

/-- A heartbeat is the node's last word on its jails. -/
theorem isJailRunning_heartbeat {id : String} {cpu : ℚ} {memory : ℕ} {jails : List JailHealth}
    {now : Instant} {n jail : String}
    (h : (r.heartbeat id cpu memory jails now).2.isJailRunning n jail = true) :
    n = id ∧ (reported jails).lookup jail = some true ∨ r.isJailRunning n jail = true := by
  simp only [heartbeat] at h
  split at h
  · simp only [isJailRunning, Table.lookup_insert_eq] at h
    split at h
    · rename_i hn
      refine Or.inl ⟨hn, ?_⟩
      rw [reported]
      simp only [Option.bind_some] at h
      cases hlookup : (jails.foldl (fun m j => m.insert j.name j.running) ∅ :
          Table Bool).lookup jail with
      | none => rw [hlookup] at h; cases h
      | some b => rw [hlookup] at h; exact congrArg some h
    · exact Or.inr h
  · exact Or.inr h

end Registry

theorem mem_of_reported {jails : List JailHealth} {jail : String}
    (h : (reported jails).lookup jail = some true) : ∃ j ∈ jails, j.name = jail := by
  by_contra hnone
  push Not at hnone
  have hlookup : ∀ (l : List JailHealth) (m : Table Bool), (∀ j ∈ l, j.name ≠ jail) →
      (l.foldl (fun m j => m.insert j.name j.running) m).lookup jail = m.lookup jail := by
    intro l
    induction l with
    | nil => intro m _; rfl
    | cons j l ih =>
      intro m hl
      rw [List.foldl_cons, ih _ fun j' hj' => hl j' (List.mem_cons_of_mem _ hj'),
        Table.lookup_insert_eq, if_neg (hl j List.mem_cons_self).symm]
  rw [reported, hlookup jails ∅ hnone] at h
  cases h

/-! ## Joined tables -/

/-- **The invariant.** The nodes' networks are their blocks, every address
on record is of its node's block, and a jail that is reported running
where it is placed has no address of another node. -/
structure Worker.Joined (cidr : Ipv4Net) (w : Worker) : Prop where
  blocks : w.registry.Blocks cidr
  inside : ∀ r n a, w.usedAddresses.byJail.lookup r = some (n, a) →
    (derivePodCidr n cidr).contains a = true
  joined : ∀ r n n' a, w.placements.lookup r = some n → w.registry.isJailRunning n r = true →
    w.usedAddresses.byJail.lookup r = some (n', a) → n' = n

namespace Worker.Joined

variable {cidr : Ipv4Net} {w : Worker} (h : w.Joined cidr)

include h

theorem discovers (now : Instant) (s : String) : w.Discovers now s := by
  intro entry hentry
  simp only [healthyReplicas, List.mem_insertionSort, List.mem_filterMap] at hentry
  obtain ⟨⟨r, n⟩, he, hentry⟩ := hentry
  split at hentry
  · cases hentry
  split at hentry
  · rename_i hup
    rw [Bool.and_eq_true] at hup
    obtain ⟨a, ha, rfl⟩ := Option.map_eq_some_iff.1 hentry
    obtain ⟨⟨n', a'⟩, hbyJail, rfl⟩ := Option.map_eq_some_iff.1 ha
    have hplaced : w.placements.lookup r = some n := AList.mem_lookup_iff.2 he
    obtain rfl := h.joined r n n' a' hplaced hup.2 hbyJail
    -- The node resolves, so it is registered.
    have hpod : ∃ podCidr, w.registry.podCidr n' = some podCidr := by
      have hresolve := hup.1
      rw [Registry.resolve] at hresolve
      rw [Registry.podCidr]
      cases hnode : w.registry.nodes.lookup n' with
      | none => rw [hnode] at hresolve; cases hresolve
      | some record => exact ⟨record.podCidr, rfl⟩
    obtain ⟨podCidr, hpod⟩ := hpod
    refine ⟨hplaced, a', podCidr, hbyJail, rfl, hpod, ?_⟩
    rw [h.blocks.derived n' podCidr hpod]
    exact h.inside r n' a' hbyJail
  · cases hentry

/-- A host of a node's pod network is of the node's block. -/
theorem contains_of_hosts {n : String} {a : Ipv4Addr}
    (ha : ∃ podCidr, w.registry.podCidr n = some podCidr ∧ a ∈ podCidr.hosts) :
    (derivePodCidr n cidr).contains a = true := by
  obtain ⟨podCidr, hpod, hhost⟩ := ha
  rw [← h.blocks.derived n podCidr hpod]
  exact podCidr.contains_of_mem_hosts hhost

theorem planned {now : Instant} {a : ReplicaAction} (ha : Planned w now a) : a.Inside cidr := by
  cases a with
  | schedule r nodeId nodeAddr template address =>
    rintro _ ⟨⟩
    exact h.contains_of_hosts ha.inside
  | tearDown =>
    rintro _ ⟨⟩

/-- **What the worker plans is inside.** -/
theorem plansInside (now : Instant) (ord : IterOrder) {ρ : Type} (c : Command ρ) :
    c.PlansInside cidr (w.handleCommand now ord c).1 := by
  cases c with
  | reconcileServices => exact fun a ha => h.planned (reconcileServices_planned a ha)
  | deleteService name =>
    simp only [handleCommand, deleteService]
    split
    · trivial
    · exact fun a ha => h.planned (deleteActions_planned a ha)
  | prepareForceRepin r =>
    simp only [handleCommand]
    cases hprep : w.prepareForceRepin now r with
    | error e => trivial
    | ok prep => exact h.contains_of_hosts (prepareForceRepin_ok hprep).inside
  | _ => trivial

/-- A write that leaves placements, addresses and the registry alone. -/
theorem congr {w' : Worker} (hplacements : w'.placements = w.placements)
    (hused : w'.usedAddresses = w.usedAddresses) (hregistry : w'.registry = w.registry) :
    w'.Joined cidr :=
  ⟨by rw [hregistry]; exact h.blocks, by rw [hused]; exact h.inside,
    by rw [hplacements, hused, hregistry]; exact h.joined⟩

/-- **A command keeps the tables joined.** -/
theorem handleCommand (now : Instant) (ord : IterOrder) {ρ : Type} {c : Command ρ}
    (hkeeps : c.KeepsJoined w) (hinside : c.AddressInside cidr) :
    (w.handleCommand now ord c).2.Joined cidr := by
  cases c with
  | register id addr replicateAddr cpu memory =>
    refine ⟨h.blocks.call (.register id addr replicateAddr cpu memory now), h.inside, ?_⟩
    intro r n n' a hplaced hrunning hbyJail
    exact h.joined r n n' a hplaced (w.registry.isJailRunning_register hrunning) hbyJail
  | heartbeat id cpu memory jails =>
    refine ⟨h.blocks.call (.heartbeat id cpu memory jails now), h.inside, ?_⟩
    intro r n n' a hplaced hrunning hbyJail
    -- What the heartbeat reports is asked for; the rest was reported before.
    rcases w.registry.isJailRunning_heartbeat hrunning with ⟨rfl, hreported⟩ | hrunning
    · obtain ⟨j, hj, rfl⟩ := mem_of_reported hreported
      exact hkeeps j hj hreported hplaced (n', a) hbyJail
    · exact h.joined r n n' a hplaced hrunning hbyJail
  | recordPlacement jailName nodeId =>
    refine ⟨h.blocks, h.inside, fun r n n' a hplaced hrunning hbyJail => ?_⟩
    simp only [Worker.handleCommand, Table.lookup_insert_eq] at hplaced
    -- The replica moves, to a node its address may not be of.
    split at hplaced
    · rename_i hr
      cases hplaced
      rw [hr] at hrunning hbyJail
      exact hkeeps hrunning (n', a) hbyJail
    · exact h.joined r n n' a hplaced hrunning hbyJail
  | removePlacement jailName =>
    refine ⟨h.blocks, h.inside, fun r n n' a hplaced hrunning hbyJail => ?_⟩
    simp only [Worker.handleCommand, Table.lookup_erase_eq] at hplaced
    split at hplaced
    · cases hplaced
    · exact h.joined r n n' a hplaced hrunning hbyJail
  | recordReplicaAddress jailName nodeId address =>
    refine ⟨h.blocks, fun r n a hbyJail => ?_, fun r n n' a hplaced hrunning hbyJail => ?_⟩
    -- A new address is one of the node it is recorded for, by how it was chosen.
    · simp only [Worker.handleCommand, UsedAddresses.byJail_record] at hbyJail
      split at hbyJail
      · cases hbyJail
        exact hinside
      · exact h.inside r n a hbyJail
    · simp only [Worker.handleCommand, UsedAddresses.byJail_record] at hbyJail
      split at hbyJail
      · rename_i hr
        cases hbyJail
        rw [hr] at hplaced hrunning
        exact (hkeeps n hplaced hrunning).symm
      · exact h.joined r n n' a hplaced hrunning hbyJail
  | releaseReplicaAddress jailName =>
    refine ⟨h.blocks, fun r n a hbyJail => ?_, fun r n n' a hplaced hrunning hbyJail => ?_⟩
    · simp only [Worker.handleCommand, UsedAddresses.byJail_release] at hbyJail
      split at hbyJail
      · cases hbyJail
      · exact h.inside r n a hbyJail
    · simp only [Worker.handleCommand, UsedAddresses.byJail_release] at hbyJail
      split at hbyJail
      · cases hbyJail
      · exact h.joined r n n' a hplaced hrunning hbyJail
  | applyService name replicas template port =>
    simp only [Worker.handleCommand, applyService]
    split
    · exact h
    · exact h.congr rfl rfl rfl
  | deleteService name =>
    simp only [Worker.handleCommand, deleteService]
    split
    · exact h
    · exact h.congr rfl rfl rfl
  | _ => exact h.congr rfl rfl rfl

end Worker.Joined

end ControlPlane

/-! ## Every step, every run -/

namespace Cluster

variable {N : Type}

/-- The command a step sends, if any, keeps the tables joined. -/
def KeepsJoined (c : Cluster N) : Label N → Prop
  | .advance i _ _ _ => ∀ p ∈ c.handlers[i]?, ControlPlane.Handler.KeepsJoined c.worker p
  | _ => True

instance (c : Cluster N) : DecidablePred c.KeepsJoined
  | .advance .. => inferInstanceAs (Decidable (∀ _ ∈ _, _))
  | .serve _ | .ask .. | .timer .. | .assign .. | .wake .. | .exit .. | .answer .. | .abandon ..
  | .send .. | .answerOrphan .. | .receive .. | .record .. | .restart .. =>
    inferInstanceAs (Decidable True)

/-- The tables are joined, and every handler under way records what it was
planned. -/
structure Discovering (cidr : Ipv4Net) (c : Cluster N) : Prop where
  worker : c.worker.Joined cidr
  handlers : ∀ p ∈ c.handlers, ControlPlane.Handler.RecordsInside cidr p

variable [DecidableEq N] [Ipnet] {net : Net N} {c : Cluster N} {cidr : Ipv4Net}

theorem Discovering.advance (h : Discovering cidr c) {i : ℕ} {o : ControlPlane.Choice}
    {m : Agent.Machine} {delivery : Delivery} (hkeeps : c.KeepsJoined (.advance i o m delivery)) :
    Discovering cidr (c.advance net i o m delivery) := by
  have hset : ∀ {p : ControlPlane.Handler ControlPlane.Response},
      ControlPlane.Handler.RecordsInside cidr p → ∀ q ∈ c.handlers.set i p,
        ControlPlane.Handler.RecordsInside cidr q := by
    intro p hp q hq
    rcases List.mem_or_eq_of_mem_set hq with hq | rfl
    · exact h.handlers q hq
    · exact hp
  rw [Cluster.advance]
  split
  · exact h
  · exact ⟨h.worker, fun p hp => h.handlers p (List.mem_of_mem_eraseIdx hp)⟩
  · rename_i ρ command k hi
    have hnext := h.handlers _ (List.mem_of_getElem? hi)
    refine ⟨h.worker.handleCommand o.now o.order (hkeeps _ hi) hnext.1, hset (hnext.2 _ ?_)⟩
    exact h.worker.plansInside o.now o.order command
  · rename_i f k hi
    have hnext := h.handlers _ (List.mem_of_getElem? hi)
    refine ⟨?_, hset (hnext _)⟩
    simp only [(c.forward_control net m delivery f).1]
    exact h.worker

theorem Discovering.step (h : Discovering cidr c) {label : Label N}
    (hkeeps : c.KeepsJoined label) : Discovering cidr (c.step net label) := by
  cases hcontrol : label.control with
  | false =>
    obtain ⟨hworker, hhandlers⟩ := c.step_control net hcontrol
    exact ⟨by rw [hworker]; exact h.worker, by rw [hhandlers]; exact h.handlers⟩
  | true =>
    cases label with
    | serve request =>
      refine ⟨h.worker, fun p hp => ?_⟩
      rcases List.mem_append.1 hp with hp | hp
      · exact h.handlers p hp
      · rw [List.mem_singleton.1 hp]
        exact ControlPlane.handler_inside request
    | advance i o m delivery => exact h.advance hkeeps
    | _ => cases hcontrol

end Cluster

/-- **Discovery tells the truth**, whatever requests overlap, in every run
in which no command brings a node that reports a replica running together
with an address of another node. -/
theorem Cluster.discovery_truthful {N : Type} [DecidableEq N] [Ipnet] (net : Net N)
    (clusterCidr serviceCidr : Ipv4Net) (pools : N → String) (zfs : N → Agent.FakeZfsManager)
    (labels : List (Label N))
    (hkeeps : Along net KeepsJoined (start clusterCidr serviceCidr pools zfs) labels)
    (now : ControlPlane.Instant) (s : String) :
    ((start clusterCidr serviceCidr pools zfs).run net labels).worker.Discovers now s := by
  have hstart : Discovering clusterCidr (start clusterCidr serviceCidr pools zfs) :=
    ⟨⟨ControlPlane.Registry.Blocks.new clusterCidr, nofun, nofun⟩, nofun⟩
  have hrun := hkeeps.invariant (fun c label h hkeeps => h.step hkeeps) hstart
  exact hrun.worker.discovers now s

namespace Cluster.Sample

open ControlPlane.Sample (register heartbeat service jail clock)

/-- A heartbeat that reports `web-0` running. -/
def reports (id : String) : ControlPlane.Request := .heartbeat id (.ok ⟨0, 0, [⟨"web-0", true⟩]⟩)

/-- Handler `i` goes on, at `secs`. -/
def goesOn (i secs : ℕ) : Label (Fin 4) :=
  .advance i (clock secs 200 0) Agent.Sample.machine .delivered

/-- `web-0` is created on `a`, and `b` and `c` register a little later. -/
def webCreated : List (Label (Fin 4)) :=
  serve 0 (register "a") ++ serve 1 (service "web" 1 []) ++ serve 10 (register "b") ++
    serve 10 (register "c")

/-- `a` is taken for dead, and a heartbeat of `c` has put `web-0` on `b`
and not yet recorded it. -/
def webMoving : List (Label (Fin 4)) :=
  webCreated ++ .serve (heartbeat "c") :: List.replicate 3 (goesOn 0 16)

/-- The move recorded, before `b` reports. -/
def webMoved : List (Label (Fin 4)) :=
  webMoving ++ List.replicate 9 (goesOn 0 16) ++ serve 17 (reports "b")

/-- `b` reports while the move is being recorded. -/
def webMovedMeanwhile : List (Label (Fin 4)) :=
  webMoving ++ [.serve (reports "b"), goesOn 1 16, goesOn 0 16]

/-- An operator deletes `web-0`, and puts it on `b`. -/
def webPutElsewhere : List (Label (Fin 4)) :=
  webCreated ++ serve 11 (.deleteJail "web-0") ++
    serve 12 (.putNodeJail "b" "web-0" (.ok (jail "web-0"))) ++ serve 13 (reports "b")

end Cluster.Sample

open Cluster.Sample Agent.Sample in
theorem Cluster.discovery_truthful_sample :
    (Sample.start.run net webMoved).worker.healthyReplicas (18 * ControlPlane.second) "web" =
      [⟨"web-0", "b", "10.0.229.2"⟩] ∧
    (Sample.start.run net webMoved).worker.Discovers (18 * ControlPlane.second) "web" :=
  ⟨by decide +kernel, discovery_truthful _ _ _ _ _ _ (by decide +kernel) _ _⟩

/-- An entry whose address is on record for another node. -/
theorem ControlPlane.not_discovers {w : ControlPlane.Worker} {now : ControlPlane.Instant}
    {s : String} (entry : ControlPlane.ServiceReplica) {x : String × Ipv4Addr}
    (hentry : entry ∈ w.healthyReplicas now s)
    (hrecord : w.usedAddresses.byJail.lookup entry.name = some x) (hne : x.1 ≠ entry.node) :
    ¬ w.Discovers now s := by
  intro h
  obtain ⟨-, address, -, hlookup, -⟩ := h entry hentry
  rw [hrecord] at hlookup
  cases hlookup
  exact hne rfl

open Cluster.Sample Agent.Sample in
/-- **Discovery pairs `b` with an address of `a`**: between the two
commands that record a move, and after an operator's `DELETE` and `PUT`. -/
theorem Cluster.discovery_lies :
    ¬ (Sample.start.run net webMovedMeanwhile).worker.Discovers (16 * ControlPlane.second) "web" ∧
      ¬ (Sample.start.run net webPutElsewhere).worker.Discovers (14 * ControlPlane.second) "web" := by
  constructor
  · exact ControlPlane.not_discovers ⟨"web-0", "b", "10.0.44.2"⟩
      (x := ("a", Ipv4Addr.ofOctets 10 0 44 2)) (by decide +kernel) (by decide +kernel)
      (by decide)
  · exact ControlPlane.not_discovers ⟨"web-0", "b", "10.0.44.2"⟩
      (x := ("a", Ipv4Addr.ofOctets 10 0 44 2)) (by decide +kernel) (by decide +kernel)
      (by decide)

end Keel
