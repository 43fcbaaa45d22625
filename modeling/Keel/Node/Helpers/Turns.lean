import Keel.Node.Helpers.Mirror
import Keel.Node.Model.Daemon
/-!
# The turns of the cluster's agent

`Agentd` is the agent the cluster is made of: its records, its volumes,
its replication loops and its listener, and nothing of jails, networks and
mounts. What the machine makes of a command is a value it is handed. The
agent's process on its machine is that agent as far as it goes
(`Refines`), and a command the process takes, on a machine where any call
may fail or be the last, is a turn of that agent for some such value.
-/

namespace Keel

namespace Agent

/-- What the cluster has an agent do. -/
inductive Agentd.Turn : Type 1
  | command (m : Machine) {ρ : Type} (c : Command ρ)
  | assign (podCidr : Option Ipv4Net)
  | wake (i : ℕ) (snapshots connects : Bool) (fresh : Stamp)
  | acknowledge (i : ℕ) (ack : Ack)
  | conclude (i : ℕ) (prunes : Bool) (result : SendOnce)
  | exit (i : ℕ)
  | answer (saved : Bool) (header : Header) (peerAddr : String)
  | receive (works : Bool) (header : Header) (input : Option SendStream)
  | record (saved : Bool) (header : Header)
  | restart

namespace Agentd

variable [Ipnet] (a : Agentd)

def turn : Turn → Agentd
  | .command m c => (handleCommand m c a).2
  | .assign podCidr => { a with podCidr }
  | .wake i snapshots connects fresh => a.wake i snapshots connects fresh
  | .acknowledge i ack =>
    match a.threads[i]? with
    | some ⟨loop, .sending addr none⟩ => a.setThread i ⟨loop, .sending addr (some ack)⟩
    | _ => a
  | .conclude i prunes result => a.conclude i prunes result
  | .exit i => a.exit i
  | .answer saved header peerAddr => a.setListener (a.listener.answer saved header peerAddr).2
  | .receive works header input => a.setListener (a.listener.receive works header input).2
  | .record saved header => a.setListener (a.listener.record saved header)
  | .restart => a.restart

def turns (ts : List Turn) : Agentd := ts.foldl turn a

theorem turns_append (ts ts' : List Turn) : a.turns (ts ++ ts') = (a.turns ts).turns ts' :=
  List.foldl_append

end Agentd

/-- What an answer tells: the error or its absence, or the records. -/
inductive Answer
  | result (r : Except ReconcileError Unit)
  | jails (records : List JailRecord)
  | done
deriving DecidableEq

def Command.answer : {ρ : Type} → Command ρ → ρ → Answer
  | _, .apply _, r => .result r
  | _, .get _, records => .jails records
  | _, .delete _, r => .result r
  | _, .tick, _ => .done
  | _, .getVolume _, r => .result r
  | _, .deleteVolume _, r => .result r
  | _, .setReplicateTo _ _, r => .result r
  | _, .resumeReplicationLoops, _ => .done

end Agent

namespace Node

open Agent (JailRecord Agentd Thread Answer volumes volumeDatasetPath FakeZfsManager)

/-- The commands of the cluster's agent. -/
def Command.asAgent : Command → Option (Σ ρ : Type, Agent.Command ρ)
  | .apply spec => some ⟨_, .apply spec⟩
  | .get name => some ⟨_, .get name⟩
  | .delete name => some ⟨_, .delete name⟩
  | .tick => some ⟨_, .tick⟩
  | .getVolume name => some ⟨_, .getVolume name⟩
  | .deleteVolume name => some ⟨_, .deleteVolume name⟩
  | .setReplicateTo name replicateTo => some ⟨_, .setReplicateTo name replicateTo⟩
  | .resumeReplicationLoops => some ⟨_, .resumeReplicationLoops⟩
  | _ => none

def Reply.seen : Reply → Option Answer
  | .result r => some (.result (Node.seen r))
  | .jails statuses => some (.jails (statuses.map JailStatus.record))
  | .done => some .done
  | .resources _ _ => none
  | .ingresses _ => none

/-- A thread where the cluster's is, or one that found no worker. -/
def Follows (t t' : Thread) : Prop := t = t' ∨ t.phase = .exited

/-- Threads that each follow one of the cluster's, in order. -/
def Followed (ts ts' : List Thread) : Prop :=
  ∀ (i : ℕ) (t : Thread), ts[i]? = some t → ∃ t', ts'[i]? = some t' ∧ Follows t t'

namespace Followed

variable {ts ts' : List Thread}

theorem append (h : Followed ts ts') (hlen : ts.length = ts'.length) (t : Thread) :
    Followed (ts ++ [t]) (ts' ++ [t]) := by
  intro i u hu
  rw [List.getElem?_append] at hu
  split at hu
  · rename_i hi
    obtain ⟨u', hu', hfollows⟩ := h i u hu
    refine ⟨u', ?_, hfollows⟩
    rw [List.getElem?_append_left (by omega)]
    exact hu'
  · rename_i hi
    refine ⟨u, ?_, Or.inl rfl⟩
    rw [List.getElem?_append_right (by omega), ← hlen]
    exact hu

/-- One more of the cluster's. -/
theorem append_right (h : Followed ts ts') (t : Thread) : Followed ts (ts' ++ [t]) := by
  intro i u hu
  obtain ⟨u', hu', hfollows⟩ := h i u hu
  refine ⟨u', ?_, hfollows⟩
  rw [List.getElem?_append_left (List.getElem?_eq_some_iff.1 hu').1]
  exact hu'

theorem set (h : Followed ts ts') (i : ℕ) (t : Thread) : Followed (ts.set i t) (ts'.set i t) := by
  intro j u hu
  by_cases hij : i = j
  · subst hij
    have hlt : i < ts.length := by
      have := (List.getElem?_eq_some_iff.1 hu).1
      rwa [List.length_set] at this
    obtain ⟨u', hu', -⟩ := h i ts[i] (List.getElem?_eq_getElem hlt)
    rw [List.getElem?_set_self hlt] at hu
    cases hu
    exact ⟨t, List.getElem?_set_self (List.getElem?_eq_some_iff.1 hu').1, Or.inl rfl⟩
  · rw [List.getElem?_set_ne hij] at hu
    obtain ⟨u', hu', hfollows⟩ := h j u hu
    refine ⟨u', ?_, hfollows⟩
    rw [List.getElem?_set_ne hij]
    exact hu'

/-- One that found no worker. -/
theorem exit (h : Followed ts ts') (i : ℕ) {t : Thread} (ht : t.phase = .exited) :
    Followed (ts.set i t) ts' := by
  intro j u hu
  by_cases hij : i = j
  · subst hij
    have hlt : i < ts.length := by
      have := (List.getElem?_eq_some_iff.1 hu).1
      rwa [List.length_set] at this
    obtain ⟨u', hu', -⟩ := h i ts[i] (List.getElem?_eq_getElem hlt)
    rw [List.getElem?_set_self hlt] at hu
    cases hu
    exact ⟨u', hu', Or.inr ht⟩
  · rw [List.getElem?_set_ne hij] at hu
    exact h j u hu

/-- A thread that is there still is where the cluster's is. -/
theorem get (h : Followed ts ts') {i : ℕ} {t : Thread} (hi : ts[i]? = some t)
    (ht : t.phase ≠ .exited) : ts'[i]? = some t := by
  obtain ⟨t', ht', hfollows⟩ := h i t hi
  rw [hfollows.resolve_right ht]
  exact ht'

end Followed

section Refinement

variable {Text : Type} [Ipnet] [SerdeYaml Text JailRecord] [SerdeYaml Text IngressRecord]

/-- **The process as the cluster's agent.** What outlives it is always
the agent's; what the listener and the loops have, while it is there; and
the records and the loops' names, while its worker is. -/
structure Refines (pool : String) (d : Daemon Text) (a : Agentd) : Prop where
  onPool : a.reconciler.pool = pool
  stored : Stored a.reconciler a.zfs d.host
  savedTargets : d.targets.saved = a.targets.saved
  podCidr : d.alive = true → d.podCidr = a.podCidr
  targets : d.alive = true → d.targets = a.targets
  threads : d.alive = true → Followed d.threads a.threads
  datasets : d.alive = true → ∀ t ∈ a.threads, t.loop.dataset ∈ volumes pool
  worker : ∀ r, d.sys.memory = some r → d.alive = true ∧
    (d.replicating = a.replicating ∧ d.threads.length = a.threads.length) ∧
      Mirrors a.reconciler a.zfs r d.host

variable {pool : String} (choices : ℕ → Option (Outcome Text)) {d : Daemon Text} {a : Agentd}
variable {R : Agent.Reconciler} {z : FakeZfsManager} {α : Type}

/-! ## The worker's calls -/

omit [SerdeYaml Text JailRecord] [SerdeYaml Text IngressRecord] in
/-- A method returns to the worker, or leaves the process without one. -/
theorem Daemon.call_cases {m : Method Text α} {r : Reconciler} (hr : d.sys.memory = some r)
    {Q : Except ReconcileError α → Reconciler → Trace (Op Text) (Host Text) → Prop}
    {X : Stop → Trace (Op Text) (Host Text) → Prop} (h : m.wp Host.outside Q X r d.sys.trace) :
    (∃ result r' t', d.call choices m = (some result, { d with sys := ⟨some r', t'⟩ }) ∧
      Q result r' t') ∨
    ∃ x t' alive, d.call choices m = (none, { d with sys := ⟨none, t'⟩, alive }) ∧ X x t' ∧
      (alive = true → d.alive = true) := by
  have hmeets : Ended.Meets Q X (m.run Host.outside choices r d.sys.trace) := Host.meets_of_wp h
  simp only [Daemon.call, hr]
  generalize m.run Host.outside choices r d.sys.trace = e at hmeets
  obtain ⟨ending, t'⟩ := e
  cases ending with
  | returned result r' => exact Or.inl ⟨result, r', t', rfl, hmeets⟩
  | stopped x =>
    refine Or.inr ?_
    cases x with
    | panicked p => exact ⟨_, t', d.alive, rfl, hmeets, id⟩
    | crashed => exact ⟨_, t', false, rfl, hmeets, fun h => absurd h (by decide)⟩

omit [Ipnet] [SerdeYaml Text IngressRecord] in
/-- The worker has gone on. -/
theorem Refines.returned (h : Refines pool d a) {r r' : Reconciler} (hr : d.sys.memory = some r)
    {t' : Trace (Op Text) (Host Text)} (hm : Mirrors R z r' t'.world) (hpool : R.pool = pool) :
    Refines pool { d with sys := ⟨some r', t'⟩ } { a with reconciler := R, zfs := z } := by
  obtain ⟨halive, hreplicating, -⟩ := h.worker r hr
  refine ⟨hpool, hm.stored, h.savedTargets, h.podCidr, h.targets, h.threads, h.datasets, ?_⟩
  intro r'' hr''
  cases hr''
  exact ⟨halive, hreplicating, hm⟩

omit [Ipnet] [SerdeYaml Text IngressRecord] in
/-- There is no worker any more. -/
theorem Refines.stopped (h : Refines pool d a) {t' : Trace (Op Text) (Host Text)} {alive : Bool}
    (halive : alive = true → d.alive = true) (hs : Stored R z t'.world) (hpool : R.pool = pool) :
    Refines pool { d with sys := ⟨none, t'⟩, alive } { a with reconciler := R, zfs := z } := by
  refine ⟨hpool, hs, h.savedTargets, fun hup => h.podCidr (halive hup),
    fun hup => h.targets (halive hup), fun hup => h.threads (halive hup),
    fun hup => h.datasets (halive hup), fun r hr => ?_⟩
  cases hr

omit [Ipnet] [SerdeYaml Text IngressRecord] in
/-- The process ends. -/
theorem Refines.down (h : Refines pool d a) : Refines pool d.down a := by
  have hdown : ∀ {P : Prop}, d.down.alive = true → P := fun h' => absurd h' Bool.false_ne_true
  refine ⟨h.onPool, h.stored, h.savedTargets, hdown, hdown, hdown, hdown, fun r hr => ?_⟩
  cases hr

omit [Ipnet] in
theorem reconciler_keep_pool (R : Agent.Reconciler) (saves : Bool) (name : String)
    (record : JailRecord) : (R.keep saves name record).2.pool = R.pool := by
  unfold Agent.Reconciler.keep
  split <;> rfl

theorem reconciler_apply_pool (R : Agent.Reconciler) (saves : Bool) (spec : JailSpec) :
    (R.apply saves spec).2.pool = R.pool := by
  unfold Agent.Reconciler.apply
  split
  · rfl
  · rw [reconciler_keep_pool]

omit [Ipnet] in
theorem reconciler_delete_pool (R : Agent.Reconciler) (m : Agent.Machine) (name : String) :
    (R.delete m name).2.pool = R.pool := by
  unfold Agent.Reconciler.delete
  split
  · rfl
  split
  · rfl
  split <;> rfl

omit [Ipnet] in
theorem reconciler_setReplicateTo_pool (R : Agent.Reconciler) (saves : Bool) (name : String)
    (replicateTo : Option String) : (R.setReplicateTo saves name replicateTo).2.pool = R.pool := by
  unfold Agent.Reconciler.setReplicateTo
  split
  · rfl
  · rw [reconciler_keep_pool]

theorem reconciler_reconcile_pool (R : Agent.Reconciler) (m : Agent.Machine) (z : FakeZfsManager) :
    (R.reconcile m z).1.pool = R.pool := by
  show (R.ensureIngressJail m).pool = R.pool
  unfold Agent.Reconciler.ensureIngressJail
  split
  · rfl
  · exact reconciler_apply_pool R _ _

/-- **A change and the pass that follows it.** Either there is no reply
and the change is all there is, if that; or both have been made, and a
reply is that of the change. -/
theorem Refines.changed (h : Refines pool d a) (p : Pass) {M : Method Text Unit} {A : Type}
    {f : A → Except Agent.ReconcileError Unit × Agent.Reconciler}
    (hpool : ∀ x, (f x).2.pool = pool)
    (hM : ∀ r, d.sys.memory = some r → M.wp Host.outside (Mirrored f a.zfs)
      (fun _ t' => Stored a.reconciler a.zfs t'.world) r d.sys.trace) (m : Agent.Machine) :
    ((d.changed choices p M).1 = none ∧ Refines pool (d.changed choices p M).2 a) ∨
    ∃ x ingress ingressSaves provisioned,
      Refines pool (d.changed choices p M).2 { a with
        reconciler := ((f x).2.reconcile { m with ingress, ingressSaves, provisioned } a.zfs).1
        zfs := ((f x).2.reconcile { m with ingress, ingressSaves, provisioned } a.zfs).2 } ∧
      match (d.changed choices p M).1 with
      | some result => seen result = (f x).1 ∧ ∃ r, (d.changed choices p M).2.sys.memory = some r
      | none => (d.changed choices p M).2.sys.memory = none := by
  cases hr : d.sys.memory with
  | none =>
    refine Or.inl ?_
    simp only [Daemon.changed, Daemon.call, hr]
    exact ⟨trivial, h⟩
  | some r =>
    rcases Daemon.call_cases choices hr (hM r hr) with
      ⟨result, r₁, t₁, hcall, x, hseen, hm₁⟩ | ⟨-, t₁, alive, hcall, hs₁, halive⟩
    · refine Or.inr ⟨x, ?_⟩
      have h₁ : Refines pool { d with sys := ⟨some r₁, t₁⟩ } { a with reconciler := (f x).2 } :=
        h.returned hr hm₁ (hpool x)
      rcases Daemon.call_cases choices (d := { d with sys := ⟨some r₁, t₁⟩ }) rfl
        (wp_reconcile_mirrors hm₁ p m) with
        ⟨failures, r₂, t₂, hcall₂, -, ingress, ingressSaves, provisioned, hm₂⟩ |
          ⟨-, t₂, alive, hcall₂, ⟨ingress, ingressSaves, provisioned, hs₂⟩, halive⟩
      · refine ⟨ingress, ingressSaves, provisioned, ?_⟩
        simp only [Daemon.changed, hcall, hcall₂]
        refine ⟨h₁.returned rfl hm₂ ?_, hseen, r₂, rfl⟩
        rw [reconciler_reconcile_pool]
        exact hpool x
      · refine ⟨ingress, ingressSaves, provisioned, ?_⟩
        simp only [Daemon.changed, hcall, hcall₂]
        refine ⟨h₁.stopped halive hs₂ ?_, trivial⟩
        rw [reconciler_reconcile_pool]
        exact hpool x
    · refine Or.inl ?_
      simp only [Daemon.changed, hcall]
      exact ⟨trivial, h.stopped halive hs₁ h.onPool⟩

/-! ## The loops -/

omit [Ipnet] [SerdeYaml Text IngressRecord] in
/-- A new loop works on a volume, as those before it. -/
theorem Refines.spawned (h : Refines pool d a) (halive : d.alive = true) (name : String) :
    ∀ t ∈ a.threads ++ [⟨.spawn name (name ++ "-data") pool, .sleeping⟩],
      t.loop.dataset ∈ volumes pool := by
  intro t ht
  rcases List.mem_append.1 ht with ht | ht
  · exact h.datasets halive t ht
  · rw [List.mem_singleton.1 ht]
    exact ⟨name ++ "-data", rfl⟩

omit [Ipnet] [SerdeYaml Text IngressRecord] in
theorem Refines.startReplicating (h : Refines pool d a) {r : Reconciler}
    (hr : d.sys.memory = some r) (name : String) :
    Refines pool (d.startReplicating pool name) (a.startReplicating name) := by
  obtain ⟨halive, ⟨hreplicating, hlen⟩, hm⟩ := h.worker r hr
  have hpool : a.pool = pool := h.onPool
  unfold Daemon.startReplicating Agentd.startReplicating
  rw [hreplicating]
  split
  · exact h
  · rw [hpool]
    refine ⟨h.onPool, h.stored, h.savedTargets, h.podCidr, h.targets,
      fun hup => (h.threads hup).append hlen _, fun hup => h.spawned hup name, fun r' hr' => ?_⟩
    obtain ⟨hup, -, hm'⟩ := h.worker r' hr'
    refine ⟨hup, ⟨rfl, ?_⟩, hm'⟩
    simp only [List.length_append, hlen]

omit [Ipnet] [SerdeYaml Text IngressRecord] in
/-- The cluster's agent may have a loop that a worker that is gone did not
get to. -/
theorem Refines.startReplicating_right (h : Refines pool d a) (hr : d.sys.memory = none)
    (name : String) : Refines pool d (a.startReplicating name) := by
  have hpool : a.pool = pool := h.onPool
  unfold Agentd.startReplicating
  split
  · exact h
  · rw [hpool]
    refine ⟨h.onPool, h.stored, h.savedTargets, h.podCidr, h.targets,
      fun hup => (h.threads hup).append_right _, fun hup => h.spawned hup name, fun r' hr' => ?_⟩
    rw [hr] at hr'
    cases hr'

omit [Ipnet] [SerdeYaml Text JailRecord] [SerdeYaml Text IngressRecord] in
theorem Daemon.startReplicating_sys (d : Daemon Text) (pool name : String) :
    (d.startReplicating pool name).sys = d.sys := by
  unfold Daemon.startReplicating
  split <;> rfl

omit [Ipnet] [SerdeYaml Text IngressRecord] in
theorem Refines.startAll (statuses : List JailStatus) : ∀ {d : Daemon Text} {a : Agentd}
    {r : Reconciler}, Refines pool d a → d.sys.memory = some r →
    Refines pool (d.startAll pool statuses) (a.startAll ((statuses.map JailStatus.record).filter
      fun record => Agent.isStatefulAndReplicated record.spec.spec)) ∧
      (d.startAll pool statuses).sys = d.sys := by
  induction statuses with
  | nil => exact fun h _ => ⟨h, rfl⟩
  | cons status statuses ih =>
    intro d a r h hr
    simp only [Daemon.startAll, Agentd.startAll, List.map_cons, List.foldl_cons, List.filter_cons]
      at ih ⊢
    cases hstateful : Agent.isStatefulAndReplicated status.record.spec.spec with
    | false =>
      simp only [Bool.false_eq_true, if_false]
      exact ih h hr
    | true =>
      simp only [if_true, List.foldl_cons]
      have hsys := d.startReplicating_sys pool status.record.spec.metadata.name
      obtain ⟨hall, hsys'⟩ := ih (h.startReplicating hr status.record.spec.metadata.name)
        (by rw [hsys]; exact hr)
      exact ⟨hall, hsys'.trans hsys⟩

/-! ## Commands -/

/-- A reply is what the turn answers, or tells that ZFS could not be
called on for the one thing asked. -/
def Answered (a : Agentd) (c : Command) (reply : Reply) (ts : List Agentd.Turn) : Prop :=
  ∀ (ρ : Type) (c' : Agent.Command ρ), c.asAgent = some ⟨ρ, c'⟩ →
    (∃ m, ts = [.command m c'] ∧
      reply.seen = some (c'.answer (Agentd.handleCommand m c' a).1)) ∨
    ∃ r, reply = .result r ∧ ZfsFailed r ∧ ts = []

/-- What a command, replied to or not, is to the cluster's agent. -/
def Explained (pool : String) (a : Agentd) (c : Command) (x : Option Reply × Daemon Text) : Prop :=
  ∃ ts, Refines pool x.2 (a.turns ts) ∧ ∀ reply, x.1 = some reply → Answered a c reply ts

/-- A machine that makes nothing of anything. -/
def idle : Agent.Machine := ⟨true, true, .ok (), false, true, []⟩

omit [SerdeYaml Text IngressRecord] in
/-- A command that is no command of the cluster's agent and leaves it as
it was. -/
theorem Explained.aside {c : Command} (hc : c.asAgent = none) {x : Option Reply × Daemon Text}
    (h : Refines pool x.2 a) : Explained pool a c x := by
  refine ⟨[], h, fun reply _ ρ c' hc' => ?_⟩
  rw [hc] at hc'
  cases hc'

omit [SerdeYaml Text IngressRecord] in
/-- A method that leaves the records and the volumes. -/
theorem Refines.aside (h : Refines pool d a) {M : Method Text α}
    (hM : ∀ r, M.Keeps (Op.Tends pool ∅) (fun _ _ => True) True (Steady r)) :
    Refines pool (d.call choices M).2 a := by
  cases hr : d.sys.memory with
  | none =>
    simp only [Daemon.call, hr]
    exact h
  | some r =>
    obtain ⟨-, -, hm⟩ := h.worker r hr
    have hstored : ∀ {t' : Trace (Op Text) (Host Text)},
        Tended pool ∅ d.sys.trace.world t'.world → Stored a.reconciler a.zfs t'.world := by
      intro t' ht'
      rw [← h.onPool] at ht'
      exact hm.stored.of_tended ht'
    rcases Daemon.call_cases choices hr
      (wp_tends (hM r) ⟨rfl, rfl, rfl⟩) with
      ⟨result, r', t', hcall, hr', ht'⟩ | ⟨-, t', alive, hcall, ht', halive⟩
    · rw [hcall]
      exact h.returned hr (hm.of_steady hr' (hstored ht')) h.onPool
    · rw [hcall]
      exact h.stopped halive (hstored ht') h.onPool

omit [SerdeYaml Text IngressRecord] in
theorem Explained.asked (h : Refines pool d a) {c : Command} (hc : c.asAgent = none)
    {M : Method Text Unit}
    (hM : ∀ r, M.Keeps (Op.Tends pool ∅) (fun _ _ => True) True (Steady r)) :
    Explained pool a c (d.asked choices M) :=
  .aside hc (h.aside choices hM)

/-- A change to ingresses, and its pass: to the cluster's agent a turn of
its timer. -/
theorem Explained.ingress (h : Refines pool d a) (p : Pass) {c : Command} (hc : c.asAgent = none)
    {M : Method Text Unit}
    (hM : ∀ r, M.Keeps (Op.Tends pool ∅) (fun _ _ => True) True (Steady r)) :
    Explained pool a c
      ((d.changed choices p M).1.map Reply.result, (d.changed choices p M).2) := by
  have hwp : ∀ r, d.sys.memory = some r → M.wp Host.outside
      (Mirrored (fun x : Except Agent.ReconcileError Unit => (x, a.reconciler)) a.zfs)
      (fun _ t' => Stored a.reconciler a.zfs t'.world) r d.sys.trace := by
    intro r hr
    obtain ⟨-, -, hm⟩ := h.worker r hr
    have hstored : ∀ {t' : Trace (Op Text) (Host Text)},
        Tended pool ∅ d.sys.trace.world t'.world → Stored a.reconciler a.zfs t'.world := by
      intro t' ht'
      rw [← h.onPool] at ht'
      exact hm.stored.of_tended ht'
    refine Proc.wp_mono ?_ (fun _ _ ht' => hstored ht') (wp_tends (hM r) ⟨rfl, rfl, rfl⟩)
    rintro result r' t' ⟨hr', ht'⟩
    exact ⟨seen result, rfl, hm.of_steady hr' (hstored ht')⟩
  rcases h.changed choices p (fun _ => h.onPool) hwp idle with
    ⟨-, h'⟩ | ⟨x, ingress, ingressSaves, provisioned, h', -⟩
  · exact .aside hc h'
  · refine ⟨[.command { idle with ingress, ingressSaves, provisioned } .tick], h', ?_⟩
    intro reply _ ρ c' hc'
    rw [hc] at hc'
    cases hc'

omit [SerdeYaml Text IngressRecord] in
/-- A method of the worker that returns or is cut off as the cluster's
agent has it. -/
theorem Explained.of_call (h : Refines pool d a) {c : Command} {M : Method Text α}
    {Q : Except ReconcileError α → Reconciler → Trace (Op Text) (Host Text) → Prop}
    (f : Except ReconcileError α → Reply)
    (hM : ∀ r, d.sys.memory = some r → Mirrors a.reconciler a.zfs r d.host →
      M.wp Host.outside Q (fun _ t' => Stored a.reconciler a.zfs t'.world) r d.sys.trace)
    (hQ : ∀ r result r' t', d.sys.memory = some r → Q result r' t' →
      ∃ ts, Refines pool { d with sys := ⟨some r', t'⟩ } (a.turns ts) ∧
        Answered a c (f result) ts) :
    Explained pool a c ((d.call choices M).1.map f, (d.call choices M).2) := by
  cases hr : d.sys.memory with
  | none =>
    simp only [Daemon.call, hr]
    exact ⟨[], h, fun reply hreply => by cases hreply⟩
  | some r =>
    rcases Daemon.call_cases choices hr (hM r hr (h.worker r hr).2.2) with
      ⟨result, r', t', hcall, hresult⟩ | ⟨-, t', alive, hcall, hs, halive⟩
    · rw [hcall]
      obtain ⟨ts, h', hanswered⟩ := hQ r result r' t' hr hresult
      refine ⟨ts, h', fun reply hreply => ?_⟩
      cases hreply
      exact hanswered
    · rw [hcall]
      exact ⟨[], h.stopped halive hs h.onPool, fun reply hreply => by cases hreply⟩

/-- The turn of an apply, by what becomes of the record. -/
theorem handleCommand_apply (a : Agentd) (m : Agent.Machine) (spec : JailSpec)
    {x : Except Agent.ReconcileError Unit} {R : Agent.Reconciler}
    (h : a.reconciler.apply m.saves spec = (x, R)) :
    Agentd.handleCommand m (.apply spec) a =
      (x, if x.isOk && Agent.isStatefulAndReplicated spec.spec then
        Agentd.startReplicating
          { a with reconciler := (R.reconcile m a.zfs).1, zfs := (R.reconcile m a.zfs).2 }
          spec.metadata.name
        else { a with reconciler := (R.reconcile m a.zfs).1, zfs := (R.reconcile m a.zfs).2 }) := by
  show Agentd.apply a m spec = _
  rw [Agentd.apply, h]
  rfl

theorem Refines.apply (h : Refines pool d a) (p : Pass) (spec : JailSpec) :
    Explained pool a (.apply spec) (d.handleCommand pool choices p (.apply spec)) := by
  have hchanged := h.changed choices p (M := Reconciler.apply spec)
    (f := fun saves => a.reconciler.apply saves spec)
    (fun saves => (reconciler_apply_pool _ saves spec).trans h.onPool)
    (fun r hr => wp_apply_mirrors (h.worker r hr).2.2 spec) idle
  simp only [Daemon.handleCommand]
  generalize d.changed choices p (Reconciler.apply spec) = x at hchanged
  obtain ⟨reply, d'⟩ := x
  rcases hchanged with ⟨hnone, h'⟩ | ⟨saves, ingress, ingressSaves, provisioned, h', hreply⟩
  · dsimp only at hnone h'
    rw [hnone]
    exact ⟨[], h', fun reply hreply => by cases hreply⟩
  have hturn := handleCommand_apply a { idle with saves, ingress, ingressSaves, provisioned } spec
    (x := (a.reconciler.apply saves spec).1) (R := (a.reconciler.apply saves spec).2) rfl
  refine ⟨[.command { idle with saves, ingress, ingressSaves, provisioned } (.apply spec)], ?_, ?_⟩
  · rw [Agentd.turns, List.foldl_cons, List.foldl_nil, Agentd.turn, hturn]
    match reply with
    | none =>
      -- the worker went down in the pass, before it could start a loop
      dsimp only at hreply h' ⊢
      split
      · exact h'.startReplicating_right hreply _
      · exact h'
    | some (.ok ()) =>
      obtain ⟨hseen, r, hr⟩ := hreply
      rw [← hseen]
      dsimp only at h' ⊢
      cases hstateful : Agent.isStatefulAndReplicated spec.spec with
      | false => exact h'
      | true => exact h'.startReplicating hr _
    | some (.error e) =>
      obtain ⟨hseen, -⟩ := hreply
      rw [← hseen]
      exact h'
  · intro reply' hreply' ρ c' hc'
    cases hc'
    refine Or.inl ⟨_, rfl, ?_⟩
    rw [hturn]
    match reply with
    | none => cases hreply'
    | some (.ok ()) =>
      cases hreply'
      rw [← hreply.1]
      rfl
    | some (.error e) =>
      cases hreply'
      rw [← hreply.1]
      rfl

theorem Refines.delete (h : Refines pool d a) (p : Pass) (name : String) :
    Explained pool a (.delete name) (d.handleCommand pool choices p (.delete name)) := by
  have hchanged := h.changed choices p (M := Reconciler.delete name)
    (f := fun x : Except Agent.ReconcileError Unit × Bool =>
      a.reconciler.delete { idle with tearDown := x.1, removes := x.2 } name)
    (fun x => (reconciler_delete_pool _ _ name).trans h.onPool)
    (fun r hr => wp_delete_mirrors (h.worker r hr).2.2 name idle) idle
  simp only [Daemon.handleCommand]
  generalize d.changed choices p (Reconciler.delete name) = x at hchanged
  obtain ⟨reply, d'⟩ := x
  rcases hchanged with ⟨hnone, h'⟩ | ⟨x, ingress, ingressSaves, provisioned, h', hreply⟩
  · dsimp only at hnone h'
    rw [hnone]
    exact ⟨[], h', fun reply hreply => by cases hreply⟩
  refine ⟨[.command
    { idle with tearDown := x.1, removes := x.2, ingress, ingressSaves, provisioned }
    (.delete name)], h', ?_⟩
  intro reply' hreply' ρ c' hc'
  cases hc'
  refine Or.inl ⟨_, rfl, ?_⟩
  cases reply with
  | none => cases hreply'
  | some result =>
    cases hreply'
    exact congrArg (fun x => some (Answer.result x)) hreply.1

theorem Refines.setReplicateTo (h : Refines pool d a) (p : Pass) (name : String)
    (replicateTo : Option String) : Explained pool a (.setReplicateTo name replicateTo)
      (d.handleCommand pool choices p (.setReplicateTo name replicateTo)) := by
  refine Explained.of_call choices h Reply.result
    (fun r _ hm => wp_setReplicateTo_mirrors hm name replicateTo) ?_
  rintro r result r' t' hr ⟨saves, hseen, hm'⟩
  refine ⟨[.command { idle with saves } (.setReplicateTo name replicateTo)], ?_, ?_⟩
  · exact h.returned hr hm' ((reconciler_setReplicateTo_pool ..).trans h.onPool)
  · intro ρ c' hc'
    cases hc'
    exact Or.inl ⟨_, rfl, congrArg (fun x => some (Answer.result x)) hseen⟩

theorem Refines.getVolume (h : Refines pool d a) (p : Pass) (name : String) :
    Explained pool a (.getVolume name) (d.handleCommand pool choices p (.getVolume name)) := by
  refine Explained.of_call choices h Reply.result
    (fun r _ hm => wp_getVolume_mirrors hm name) ?_
  rintro r result r' t' hr ⟨hseen | hfailed, hm'⟩
  · refine ⟨[.command idle (.getVolume name)], h.returned hr hm' h.onPool, ?_⟩
    intro ρ c' hc'
    cases hc'
    exact Or.inl ⟨_, rfl, congrArg (fun x => some (Answer.result x)) hseen⟩
  · exact ⟨[], h.returned hr hm' h.onPool, fun _ _ _ => Or.inr ⟨result, rfl, hfailed, rfl⟩⟩

theorem Refines.deleteVolume (h : Refines pool d a) (p : Pass) (name : String) :
    Explained pool a (.deleteVolume name)
      (d.handleCommand pool choices p (.deleteVolume name)) := by
  refine Explained.of_call choices h Reply.result
    (fun r _ hm => wp_deleteVolume_mirrors hm name) ?_
  rintro r result r' t' hr (⟨hseen, hm'⟩ | ⟨hfailed, hm'⟩)
  · refine ⟨[.command idle (.deleteVolume name)], h.returned hr hm' h.onPool, ?_⟩
    intro ρ c' hc'
    cases hc'
    exact Or.inl ⟨_, rfl, congrArg (fun x => some (Answer.result x)) hseen⟩
  · exact ⟨[], h.returned hr hm' h.onPool, fun _ _ _ => Or.inr ⟨result, rfl, hfailed, rfl⟩⟩

omit [SerdeYaml Text IngressRecord] in
/-- What a question is answered, and that it changes nothing. -/
theorem Explained.question (h : Refines pool d a) {name : Option String}
    {M : Method Text (List JailStatus)}
    (hM : ∀ r, d.sys.memory = some r → Mirrors a.reconciler a.zfs r d.host →
      M.wp Host.outside (fun result r' t' => (∃ statuses, result = .ok statuses ∧
        statuses.map JailStatus.record = a.get name) ∧ Mirrors a.reconciler a.zfs r' t'.world)
        (fun x t' => x = .crashed ∧ Stored a.reconciler a.zfs t'.world) r d.sys.trace) :
    Explained pool a (.get name)
      ((d.call choices M).1.map fun r => .jails (Daemon.statuses r), (d.call choices M).2) := by
  refine Explained.of_call choices h (fun r => Reply.jails (Daemon.statuses r))
    (fun r hr hm => Proc.wp_mono (fun _ _ _ hx => hx) (fun _ _ hx => hx.2) (hM r hr hm)) ?_
  rintro r _ r' t' hr ⟨⟨statuses, rfl, hrecords⟩, hm'⟩
  refine ⟨[.command idle (.get name)], h.returned hr hm' h.onPool, ?_⟩
  intro ρ c' hc'
  cases hc'
  exact Or.inl ⟨_, rfl, congrArg (fun x => some (Answer.jails x)) hrecords⟩

theorem Refines.getOne (h : Refines pool d a) (p : Pass) (name : Option String) :
    Explained pool a (.get name) (d.handleCommand pool choices p (.get name)) := by
  cases name with
  | none => exact .question choices h fun r _ hm => wp_list_mirrors hm p.now
  | some name =>
    refine .question choices h fun r _ hm => ?_
    refine Proc.wp_seq (wp_get_mirrors hm name p.now) ?_ ?_ fun _ _ hx => hx
    · rintro status r' t' ⟨⟨_, hstatus, hrecord⟩, hm'⟩
      cases hstatus
      refine ⟨⟨_, rfl, ?_⟩, hm'⟩
      show status.toList.map JailStatus.record = (a.reconciler.records.lookup name).toList
      rw [← hrecord]
      cases status <;> rfl
    · rintro e r' t' ⟨⟨_, he, -⟩, -⟩
      cases he

/-- A pass by itself. -/
theorem Refines.tick (h : Refines pool d a) (p : Pass) :
    Explained pool a .tick (d.handleCommand pool choices p .tick) := by
  simp only [Daemon.handleCommand]
  cases hr : d.sys.memory with
  | none =>
    simp only [Daemon.call, hr]
    exact ⟨[], h, fun reply hreply => by cases hreply⟩
  | some r =>
    have hpool : ∀ m, (a.reconciler.reconcile m a.zfs).1.pool = pool :=
      fun m => (reconciler_reconcile_pool ..).trans h.onPool
    rcases Daemon.call_cases choices hr (wp_reconcile_mirrors (h.worker r hr).2.2 p idle) with
      ⟨result, r', t', hcall, -, ingress, ingressSaves, provisioned, hm'⟩ |
        ⟨-, t', alive, hcall, ⟨ingress, ingressSaves, provisioned, hs⟩, halive⟩
    · rw [hcall]
      refine ⟨[.command { idle with ingress, ingressSaves, provisioned } .tick],
        h.returned hr hm' (hpool _), ?_⟩
      intro reply hreply ρ c' hc'
      cases hreply
      cases hc'
      exact Or.inl ⟨_, rfl, rfl⟩
    · rw [hcall]
      exact ⟨[.command { idle with ingress, ingressSaves, provisioned } .tick],
        h.stopped halive hs (hpool _), fun reply hreply => by cases hreply⟩

/-- What comes of resuming the loops, and whether the worker gets to. -/
theorem Refines.resumed (h : Refines pool d a) (p : Pass) :
    ((d.handleCommand pool choices p .resumeReplicationLoops).1 = none ∧
      Refines pool (d.handleCommand pool choices p .resumeReplicationLoops).2 a) ∨
    (d.handleCommand pool choices p .resumeReplicationLoops).1 = some .done ∧
      Refines pool (d.handleCommand pool choices p .resumeReplicationLoops).2
        a.resumeReplicationLoops := by
  simp only [Daemon.handleCommand]
  cases hr : d.sys.memory with
  | none =>
    simp only [Daemon.call, hr]
    exact Or.inl ⟨trivial, h⟩
  | some r =>
    rcases Daemon.call_cases choices hr (wp_list_mirrors (h.worker r hr).2.2 p.now) with
      ⟨_, r', t', hcall, ⟨statuses, rfl, hrecords⟩, hm'⟩ | ⟨-, t', alive, hcall, ⟨-, hs⟩, halive⟩
    · rw [hcall]
      refine Or.inr ⟨rfl, ?_⟩
      have hreturned := h.returned hr hm' h.onPool
      have hall := (hreturned.startAll statuses rfl).1
      rw [hrecords] at hall
      exact hall
    · rw [hcall]
      exact Or.inl ⟨rfl, h.stopped halive hs h.onPool⟩

theorem Refines.resume (h : Refines pool d a) (p : Pass) :
    Explained pool a .resumeReplicationLoops
      (d.handleCommand pool choices p .resumeReplicationLoops) := by
  rcases h.resumed choices p with ⟨hnone, h'⟩ | ⟨hdone, h'⟩
  · refine ⟨[], h', fun reply hreply => ?_⟩
    rw [hnone] at hreply
    cases hreply
  · refine ⟨[.command idle .resumeReplicationLoops], h', ?_⟩
    intro reply hreply ρ c' hc'
    rw [hdone] at hreply
    cases hreply
    cases hc'
    exact Or.inl ⟨_, rfl, rfl⟩

/-- **Every command** is a turn, and its reply is what the turn answers. -/
theorem Refines.handleCommand (h : Refines pool d a) (p : Pass) (c : Command) :
    Explained pool a c (d.handleCommand pool choices p c) := by
  cases c with
  | apply spec => exact h.apply choices p spec
  | get name => exact h.getOne choices p name
  | delete name => exact h.delete choices p name
  | tick => exact h.tick choices p
  | committedResources =>
    refine .aside rfl (h.aside choices fun r => ?_)
    exact Reconciler.keeps_committedResources fun _ _ _ _ => trivial
  | addRoute subnet gatewayAddr =>
    exact .asked choices h rfl fun r => Proc.keeps_tryCall trivial
  | removeRoute subnet => exact .asked choices h rfl fun r => Proc.keeps_tryCall trivial
  | addServiceAlias bridge address =>
    exact .asked choices h rfl fun r => Proc.keeps_tryCall trivial
  | removeServiceAlias bridge address =>
    exact .asked choices h rfl fun r => Proc.keeps_tryCall trivial
  | getVolume name => exact h.getVolume choices p name
  | deleteVolume name => exact h.deleteVolume choices p name
  | setReplicateTo name replicateTo => exact h.setReplicateTo choices p name replicateTo
  | resumeReplicationLoops => exact h.resume choices p
  | applyIngress spec =>
    exact .ingress choices h p rfl fun r =>
      tends_of_ofIngress fun _ => Reconciler.keeps_applyIngress
  | getIngress name => exact .aside rfl h
  | deleteIngress name =>
    exact .ingress choices h p rfl fun r =>
      tends_of_ofIngress fun _ => Reconciler.keeps_deleteIngress

end Refinement

end Node

end Keel
