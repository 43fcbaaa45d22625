import Keel.Node.Helpers.Footprint
/-!
# Volumes outlive their jails

Whatever the machine answers, and wherever the process is cut off and
started again, no command but the one that deletes a volume has a
volume's dataset destroyed: what the reconciler destroys is named after a
jail, and no name of a jail's dataset is one of a volume's.
-/

namespace Keel

namespace Node

open Agent (JailRecord volumeDatasetPath)

variable {Text : Type}

/-- A call that does not destroy a volume. -/
def Op.Spares (pool : String) : {ρ : Type} → Op Text ρ → Prop
  | _, .destroyDataset dataset => ∀ volume, dataset ≠ volumeDatasetPath pool volume
  | _, _ => True

/-- The two kinds of dataset are named apart, whatever the names. -/
theorem jailDatasetPath_ne_volumeDatasetPath (pool jail volume : String) :
    jailDatasetPath pool jail ≠ volumeDatasetPath pool volume := by
  intro h
  have hchars := congrArg String.toList h
  simp only [jailDatasetPath, volumeDatasetPath, String.toList_append, List.append_assoc,
    List.append_cancel_left_eq] at hchars
  have hdiff := congrArg (fun cs => cs[6]?) hchars
  simp at hdiff

theorem Op.OfJail.spares {pool name : String} {record : JailRecord} {ρ : Type} {c : Op Text ρ}
    (h : c.OfJail pool name record) : c.Spares pool := by
  cases c with
  | destroyDataset dataset =>
    intro volume hvolume
    exact jailDatasetPath_ne_volumeDatasetPath pool name volume (h.symm.trans hvolume)
  | _ => trivial

theorem Op.OfFile.spares {pool name : String} {dir : Dir} {ρ : Type} {c : Op Text ρ}
    (h : c.OfFile dir name) : c.Spares pool := by
  cases c with
  | destroyDataset dataset => exact h.elim
  | _ => trivial

theorem Op.OfIngress.spares {pool : String} {ρ : Type} {c : Op Text ρ} (h : c.OfIngress) :
    c.Spares pool := by
  cases c with
  | destroyDataset dataset => exact h.elim
  | _ => trivial

theorem Op.Asks.spares {pool : String} {ρ : Type} {c : Op Text ρ} (h : c.Asks) :
    c.Spares pool := by
  cases c with
  | destroyDataset dataset => exact h.elim
  | _ => trivial

namespace Reconciler

variable {pool : String} {R : {ρ : Type} → Op Text ρ → ρ → Prop}

/-- The reconciler of an agent on a pool. -/
def On (pool : String) (r : Reconciler) : Prop := r.pool = pool

theorem spares_reconcileOne {name : String} {now : ℕ} :
    (reconcileOne name now : Method Text Unit).Keeps (Op.Spares pool) R True (On pool) := by
  refine keeps_reconcileOne (fun r record hr _ _ c hc => ?_) (fun r r' hr hr' => hr'.pool.trans hr)
    fun _ _ => ⟨fun _ => trivial, fun _ _ _ _ _ _ _ => trivial⟩
  rw [show r.pool = pool from hr] at hc
  exact hc.spares

theorem spares_delete {name : String} :
    (delete name : Method Text Unit).Keeps (Op.Spares pool) R True (On pool) := by
  refine Proc.keeps_bind keeps_find fun record => Proc.keeps_get_bind fun r hr => ?_
  rw [show r.pool = pool from hr]
  refine Proc.keeps_bind
    (keeps_tearDownJail.imp (fun _ => Op.OfJail.spares) fun _ _ _ h => h) fun _ => ?_
  refine Proc.keeps_bind
    (keeps_removeYaml.imp (fun _ => Op.OfFile.spares) fun _ _ _ h => h) fun _ => ?_
  exact Proc.keeps_modify fun r hr => hr

/-- Serving ingresses destroys nothing. -/
theorem spares_of_ofIngress {α : Type} {m : Method Text α}
    (hm : ∀ r₀, m.Keeps Op.OfIngress R True (AgreesOnJails r₀)) :
    m.Keeps (Op.Spares pool) R True (On pool) :=
  keeps_of_ofIngress hm (fun _ => Op.OfIngress.spares) fun _ _ hr hr' => hr'.pool.trans hr

variable [SerdeYaml Text JailRecord]

theorem spares_setReplicateTo {name : String} {replicateTo : Option String} :
    (setReplicateTo name replicateTo : Method Text Unit).Keeps (Op.Spares pool) R True (On pool) := by
  refine Proc.keeps_bind keeps_find fun record => ?_
  refine Proc.keeps_bind (keeps_save fun _ => Op.OfFile.spares) fun _ => ?_
  exact Proc.keeps_modify fun r hr => hr

variable [SerdeYaml Text IngressRecord]

theorem spares_new : (new pool : Method Text Unit).Keeps (Op.Spares pool) R True (On pool) := by
  have hload : ∀ {α : Type} {dir : Dir} {fromYaml : Text → Except String α},
      (loadYaml dir fromYaml).Keeps (Op.Spares pool) R True (On pool) :=
    keeps_loadYaml.imp (fun _ => Op.Asks.spares) fun _ _ _ h => h
  refine Proc.keeps_bind hload fun loaded => ?_
  refine Proc.keeps_bind (Proc.keeps_ofChecked fun _ _ => trivial) fun next => ?_
  exact Proc.keeps_bind hload fun ingressLoaded => Proc.keeps_modify fun _ _ => rfl

variable [Ipnet]

theorem spares_reconcile {p : Pass} :
    (reconcile p : Method Text _).Keeps (Op.Spares pool) R True (On pool) := by
  refine Proc.keeps_bind (Proc.keeps_bind ?_ fun _ => Proc.keeps_bind ?_ fun _ => ?_) fun _ => ?_
  · exact Proc.keeps_attempt (keeps_ensureIngressJail (fun _ => Op.OfFile.spares) fun _ _ _ hr => hr)
  · exact spares_of_ofIngress fun _ => keeps_reconcileCerts
  · exact spares_of_ofIngress fun _ =>
      keeps_reconcileIngressConfig.imp (fun _ => OfConfig.ofIngress) fun _ _ _ h => h
  · exact Proc.keeps_get_bind fun r _ => keeps_reconcileAll fun _ _ => spares_reconcileOne

end Reconciler

section Systems

variable {O W H : Type}

variable [Ipnet] [SerdeYaml Text JailRecord] [SerdeYaml Text IngressRecord]

/-- **No method but one** destroys a volume. -/
theorem Operation.spares {pool : String} {R : {ρ : Type} → Op Text ρ → ρ → Prop} {op : Operation}
    (hop : ∀ volume, op ≠ .deleteVolume volume) :
    (op.method : Method Text Unit).Keeps (Op.Spares pool) R True (Reconciler.On pool) := by
  cases op with
  | apply spec =>
    exact Reconciler.keeps_apply (fun _ => Op.OfFile.spares) (fun _ _ hr => hr) fun _ _ hr => hr
  | delete name => exact Reconciler.spares_delete
  | setReplicateTo name replicateTo => exact Reconciler.spares_setReplicateTo
  | applyIngress spec => exact Reconciler.spares_of_ofIngress fun _ => Reconciler.keeps_applyIngress
  | deleteIngress name =>
    exact Reconciler.spares_of_ofIngress fun _ => Reconciler.keeps_deleteIngress
  | ensureIngressJail =>
    exact Reconciler.keeps_ensureIngressJail (fun _ => Op.OfFile.spares) fun _ _ _ hr => hr
  | reconcile p => exact Proc.keeps_bind Reconciler.spares_reconcile fun _ => Proc.keeps_ret
  | get name now =>
    exact Proc.keeps_bind (Reconciler.keeps_get fun _ => trivial) fun _ => Proc.keeps_ret
  | list now =>
    exact Proc.keeps_bind (Reconciler.keeps_list fun _ => trivial) fun _ => Proc.keeps_ret
  | committedResources order =>
    exact Proc.keeps_bind (Reconciler.keeps_committedResources fun _ _ _ _ => trivial)
      fun _ => Proc.keeps_ret
  | getVolume name => exact Reconciler.keeps_getVolume fun _ => trivial
  | deleteVolume name => exact absurd rfl (hop name)
  | addRoute subnet gatewayAddr => exact Proc.keeps_tryCall trivial
  | removeRoute subnet => exact Proc.keeps_tryCall trivial
  | addAlias bridge address => exact Proc.keeps_tryCall trivial
  | removeAlias bridge address => exact Proc.keeps_tryCall trivial

/-- No method moves an agent to another pool. -/
theorem Operation.on {pool : String} {op : Operation} :
    (op.method : Method Text Unit).Keeps (fun _ => True) (fun _ _ => True) True
      (Reconciler.On pool) := by
  by_cases hop : ∀ volume, op ≠ .deleteVolume volume
  · exact (Operation.spares hop).imp (fun _ _ => trivial) fun _ _ _ h => h
  · obtain ⟨volume, hop⟩ := not_forall.1 hop
    rw [not_not.1 hop]
    exact Proc.keeps_get_bind fun _ _ => Proc.keeps_tryCall trivial

/-- The process, while it is up, is on a pool. -/
def System.OnPool (pool : String) (sys : System Text W) : Prop :=
  ∀ r, sys.memory = some r → r.pool = pool

/-- The process, while it is up, is as `K` says, and every call it has made
is of `C`. -/
structure System.Kept (C : {ρ : Type} → Op Text ρ → Prop) (K : Reconciler → Prop)
    (sys : System Text W) : Prop where
  memory : ∀ r, sys.memory = some r → K r
  calls : ∀ c ∈ sys.trace.calls, C c.2

/-- **The rule for what methods keep.** If a start keeps to calls of `C` and
to `K`, and so does the method an event runs, then the event does. -/
theorem System.Kept.step {C : {ρ : Type} → Op Text ρ → Prop} {K : Reconciler → Prop}
    {world : World Text O W H} {sys : System Text W} {e : Event H} (h : sys.Kept C K)
    (hblank : K (.blank world.pool))
    (hnew : (Reconciler.new world.pool : Method Text Unit).Keeps C (fun _ _ => True) True K)
    (hmethod : ∀ op, e = .operation op →
      (op.method : Method Text Unit).Keeps C (fun _ _ => True) True K) :
    (sys.step world e).Kept C K := by
  have hrun : ∀ {m : Method Text Unit} {r : Reconciler},
      m.Keeps C (fun _ _ => True) True K → K r →
        Ended.Meets (fun _ r t => K r ∧ t.Since [] C) (fun _ t => t.Since [] C)
          (m.run world.out world.choices r sys.trace) := by
    intro m r hm hr
    exact Proc.run_of_makes (fun _ _ => trivial) (hm r hr) (Trace.since_nil.2 h.calls)
  -- a memory and a trace that are fine, and a trace without a memory
  have hup : ∀ r (t : Trace (Op Text) W), K r ∧ t.Since [] C → System.Kept C K ⟨some r, t⟩ := by
    rintro r t ⟨hr, ht⟩
    refine ⟨fun r' hr' => ?_, Trace.since_nil.1 ht⟩
    cases hr'
    exact hr
  have hdown : ∀ t : Trace (Op Text) W, t.Since [] C → System.Kept C K ⟨none, t⟩ := by
    intro t ht
    exact ⟨fun r hr => absurd hr.symm (Option.some_ne_none r), Trace.since_nil.1 ht⟩
  cases e with
  | operation op =>
    cases hmemory : sys.memory with
    | none => simpa only [System.step, hmemory] using h
    | some r =>
      simp only [System.step, hmemory]
      exact System.of_ended (hrun (hmethod op rfl) (h.memory r hmemory)) (fun _ => hup)
        fun _ => hdown
  | start =>
    cases hmemory : sys.memory with
    | some r => simpa only [System.step, hmemory] using h
    | none =>
      simp only [System.step, hmemory]
      exact System.of_started (hrun hnew hblank) hup (fun _ _ t ht => hdown t ht.2) fun _ => hdown
  | kill => exact hdown sys.trace (Trace.since_nil.2 h.calls)
  | outside x => exact ⟨h.memory, h.calls⟩

theorem System.OnPool.step {world : World Text O W H} {sys : System Text W} {e : Event H}
    (h : sys.OnPool world.pool) : (sys.step world e).OnPool world.pool := by
  have hnew : (Reconciler.new world.pool : Method Text Unit).Keeps (fun _ => True)
      (fun _ _ => True) True (Reconciler.On world.pool) :=
    Reconciler.spares_new.imp (fun _ _ => trivial) fun _ _ _ h => h
  have hkept : sys.Kept (fun _ => True) (Reconciler.On world.pool) := ⟨h, fun _ _ => trivial⟩
  exact (hkept.step rfl hnew fun op _ => op.on).memory

/-- An agent never leaves its pool. -/
theorem System.onPool_after {world : World Text O W H} {machine : W} {events : List (Event H)} :
    ((System.fresh machine).after world events).OnPool world.pool :=
  System.after_induction (P := fun _ => True) world (fun _ _ _ h => h.step) (fun _ _ => trivial)
    fun r hr => absurd hr.symm (Option.some_ne_none r)

/-- No volume has been destroyed yet, and the process is on its pool. -/
structure System.Spared (pool : String) (sys : System Text W) : Prop where
  on : ∀ r, sys.memory = some r → r.pool = pool
  calls : ∀ c ∈ sys.trace.calls, c.2.Spares pool

theorem System.Spared.step {world : World Text O W H} {sys : System Text W} {e : Event H}
    (h : sys.Spared world.pool) (he : ∀ volume, e ≠ .operation (.deleteVolume volume)) :
    (sys.step world e).Spared world.pool := by
  have hmethod : ∀ op, e = .operation op → (op.method : Method Text Unit).Keeps
      (Op.Spares world.pool) (fun _ _ => True) True (Reconciler.On world.pool) := by
    rintro op rfl
    refine Operation.spares fun volume hop => ?_
    exact he volume (congrArg Event.operation hop)
  have hkept : sys.Kept (Op.Spares world.pool) (Reconciler.On world.pool) := ⟨h.on, h.calls⟩
  obtain ⟨hon, hcalls⟩ := hkept.step rfl Reconciler.spares_new hmethod
  exact ⟨hon, hcalls⟩

omit [Ipnet] [SerdeYaml Text JailRecord] [SerdeYaml Text IngressRecord] in
/-- Only its own command deletes a volume. -/
theorem Happening.ne_deleteVolume {happenings : List (Happening H)}
    (hcommands : ∀ p volume, Happening.command p (.deleteVolume volume) ∉ happenings) :
    ∀ e ∈ happenings.flatMap Happening.events,
      ∀ volume, e ≠ Event.operation (.deleteVolume volume) := by
  intro e he volume heq
  obtain ⟨happening, hmem, he⟩ := List.mem_flatMap.1 he
  rw [heq] at he
  cases happening with
  | command p c =>
    obtain ⟨op, hop, hop'⟩ := List.mem_map.1 he
    cases hop'
    cases c with
    | deleteVolume volume' => exact hcommands p volume' hmem
    | get name => cases name <;> simp [Command.operations] at hop
    | _ => simp [Command.operations] at hop
  | start => simp [Happening.events] at he
  | kill => simp [Happening.events] at he
  | outside x => simp [Happening.events] at he

/-- **Volumes outlive everything but an explicit delete.** Whatever the
machine is and does, no command but `deleteVolume`, no start and no stop
of the process has a volume's dataset destroyed. -/
theorem volumes_spared (world : World Text O W H) (machine : W) (happenings : List (Happening H))
    (hcommands : ∀ p volume, Happening.command p (.deleteVolume volume) ∉ happenings)
    (volume : String) :
    ⟨_, Op.destroyDataset (volumeDatasetPath world.pool volume)⟩ ∉
      ((System.fresh machine).after world
        (happenings.flatMap Happening.events)).trace.calls := by
  have hfresh : (System.fresh machine : System Text W).Spared world.pool :=
    ⟨fun r hr => absurd hr.symm (Option.some_ne_none r), fun c hc => absurd hc List.not_mem_nil⟩
  have hspared := System.after_induction world (fun sys e he h => System.Spared.step h he)
    (Happening.ne_deleteVolume hcommands) hfresh
  intro hcall
  exact hspared.calls _ hcall volume rfl

end Systems

section

open Agent.Sample (jail)
open scoped Agent.Sample Node.Sample

/-- A jail with a volume, applied and deleted on a machine where the
tenth call fails. -/
theorem volumes_spared_sample :
    ⟨_, Op.destroyDataset (volumeDatasetPath "zroot" "db-0-data")⟩ ∉
      ((System.fresh Sample.host).after (Host.world "zroot" (Sample.failing 9))
        ([.start, .command (Sample.pass 0) (.apply (jail "db-0" none)),
          .command (Sample.pass 0) (.delete "db-0"), .kill, .start].flatMap
            Happening.events)).trace.calls :=
  volumes_spared (Host.world "zroot" (Sample.failing 9)) Sample.host
    [.start, .command (Sample.pass 0) (.apply (jail "db-0" none)),
      .command (Sample.pass 0) (.delete "db-0"), .kill, .start] (by simp) "db-0-data"

end

end Node

end Keel
