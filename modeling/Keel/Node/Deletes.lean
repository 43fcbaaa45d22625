import Keel.Node.Disk
import Keel.Node.Helpers.Clear
/-!
# Deletes that failed

A delete can fail at any of its calls, and the pass after it can bring
back any part of what it has removed. Whatever is there and whatever is
gone by then, a delete of which no call fails removes it all.
-/

namespace Keel

namespace Node

open Agent (JailRecord volumeDatasetPath)

variable {Text : Type}

/-! ## A delete without failures -/

section Delete

variable [Ipnet] [SerdeYaml Text JailRecord]
variable {allows : {ρ : Type} → Outcome Text → Op Text ρ → Reconciler → Host Text → Prop}
variable {name : String} {record : JailRecord} {r : Reconciler} {t : Trace (Op Text) (Host Text)}

omit [SerdeYaml Text JailRecord] in
/-- A file that is not there passes for removed. -/
theorem does_remove (hworks : ¬ Fallible allows) :
    Does allows (.removeFile .state (stateFile name)) (store.remove name) r t := by
  rw [Does, store.remove, removeYaml, Proc.bind_eq]
  refine wp_ask_bind (fun _ => rfl) rfl ?_ fun _ _ _ => ?_
  · exact fun x m hx hfails => absurd (fallible_of_fails hx hfails) hworks
  · have hanswer : (t.world.removeFile .state (stateFile name)).1 = .ok () ∨
        (t.world.removeFile .state (stateFile name)).1 = .error .notFound := by
      rw [Host.removeFile]
      split
      · exact Or.inl rfl
      · exact Or.inr rfl
    rcases hanswer with hok | hnot
    · rw [hok]
      exact ⟨⟨(), rfl⟩, rfl, rfl⟩
    · rw [hnot]
      exact ⟨⟨(), rfl⟩, rfl, rfl⟩

omit [Ipnet] [SerdeYaml Text JailRecord] in
theorem Host.notMem_removeFile (h : Host Text) (file : String) :
    file ∉ (h.removeFile .state file).2.stateDir := by
  rw [removeFile]
  split
  · exact AList.mem_erase.not.2 fun hmem => hmem.1 rfl
  · rename_i hnot
    exact hnot

omit [Ipnet] [SerdeYaml Text JailRecord] in
theorem Cleared.removeFile {pool : String} {h : Host Text} (hcleared : Cleared pool name record h)
    (file : String) : Cleared pool name record (h.removeFile .state file).2 := by
  obtain ⟨stateDir, ingressDir, hremove, -⟩ := h.removeFile_eq .state file
  rw [hremove]
  exact ⟨hcleared.jail, hcleared.dataset, hcleared.mounts, hcleared.epair⟩

omit [SerdeYaml Text JailRecord] in
/-- **A delete** none of whose calls fails. -/
theorem wp_delete_works (hworks : ¬ Fallible allows) (hrecord : r.records.lookup name = some record)
    (hbusy : jailDatasetPath r.pool name ∉ t.world.zfs.busy) :
    (Reconciler.delete name : Method Text Unit).wp (Host.under allows)
      (fun result r' t' => result = .ok () ∧ name ∉ r'.records ∧ name ∉ r'.backoff ∧
        Cleared r.pool name record t'.world ∧ stateFile name ∉ t'.world.stateDir)
      (fun x _ => x = .crashed) r t := by
  rw [Reconciler.delete, Proc.bind_eq, Proc.wp_bind]
  refine wp_find (fun record' hrecord' => ?_) fun hnone => by cases hnone.symm.trans hrecord
  cases hrecord.symm.trans hrecord'
  simp only [Proc.bind_eq]
  rw [Proc.wp_get_bind]
  refine Proc.wp_seq (clear_tearDownJail hworks hbusy) ?_
    (fun e _ _ he => by cases he.1.choose_spec) fun _ _ hx => hx
  rintro _ _ t₁ ⟨-, rfl, hcleared⟩
  refine Proc.wp_seq (does_remove hworks) ?_ (fun e _ _ he => by cases he.1.choose_spec)
    fun _ _ hx => hx
  rintro _ r₂ t₂ ⟨-, rfl, ht₂⟩
  have hremoved : t₂.world = (t₁.world.removeFile .state (stateFile name)).2 := ht₂
  refine ⟨rfl, fun hmem => (AList.mem_erase.1 hmem).1 rfl,
    fun hmem => (AList.mem_erase.1 hmem).1 rfl, ?_, ?_⟩
  · rw [hremoved]
    exact hcleared.removeFile _
  · rw [hremoved]
    exact t₁.world.notMem_removeFile _

end Delete

/-! ## Volumes stay -/

section Life

variable [Ipnet] [SerdeYaml Text JailRecord] [SerdeYaml Text IngressRecord]
variable {pool : String} {choices : ℕ → Option (Outcome Text)} {machine : Host Text}

omit [SerdeYaml Text JailRecord] [SerdeYaml Text IngressRecord] in
/-- A method that destroys no volume. -/
theorem retained_of_spares {m : Method Text Unit} {r : Reconciler}
    {t : Trace (Op Text) (Host Text)}
    (hm : m.Keeps (Op.Spares pool) (fun _ _ => True) True (Reconciler.On pool)) (hr : r.pool = pool)
    {volume : String} (hmem : volumeDatasetPath pool volume ∈ t.world.zfs.datasets) :
    Ended.Meets (fun _ _ t' => volumeDatasetPath pool volume ∈ t'.world.zfs.datasets)
      (fun _ t' => volumeDatasetPath pool volume ∈ t'.world.zfs.datasets)
      (m.run Host.outside choices r t) := by
  refine Host.meets_of_wp (Proc.wp_mono (fun _ _ _ hq => hq.2.1) (fun _ _ hx => hx.2.1)
    (Proc.wp_of_makes (I := fun w => volumeDatasetPath pool volume ∈ w.zfs.datasets) ?_ (hm r hr)
      hmem t.since_self))
  intro ρ x c s w hc hw _
  exact ⟨trivial, w.mem_datasets_call x hc.retains hw⟩

/-- **One event** but an explicit delete leaves every volume. -/
theorem System.OnPool.retains {sys : System Text (Host Text)} (hon : sys.OnPool pool)
    {e : Event Exit} (he : ∀ volume, e ≠ .operation (.deleteVolume volume)) {volume : String}
    (hmem : volumeDatasetPath pool volume ∈ sys.trace.world.zfs.datasets) :
    volumeDatasetPath pool volume ∈
      (sys.step (Host.world pool choices) e).trace.world.zfs.datasets := by
  cases e with
  | operation op =>
    cases hmemory : sys.memory with
    | none => simpa only [System.step, hmemory] using hmem
    | some r =>
      have hspares : (op.method : Method Text Unit).Keeps (Op.Spares pool) (fun _ _ => True) True
          (Reconciler.On pool) :=
        Operation.spares fun volume hop => he volume (congrArg Event.operation hop)
      simp only [System.step, hmemory]
      exact System.of_ended (I := fun sys' =>
        volumeDatasetPath pool volume ∈ sys'.trace.world.zfs.datasets)
        (retained_of_spares hspares (hon r hmemory) hmem) (fun _ _ _ => id) fun _ _ => id
  | start =>
    cases hmemory : sys.memory with
    | some r => simpa only [System.step, hmemory] using hmem
    | none =>
      simp only [System.step, hmemory]
      have hblank : (Reconciler.blank pool).pool = pool := rfl
      exact System.of_started (I := fun sys' =>
        volumeDatasetPath pool volume ∈ sys'.trace.world.zfs.datasets)
        (retained_of_spares Reconciler.spares_new hblank hmem) (fun _ _ => id)
        (fun _ _ _ => id) fun _ _ => id
  | kill => exact hmem
  | outside x =>
    obtain ⟨jail⟩ := x
    obtain ⟨jails, hjails⟩ := sys.trace.world.withJail_eq jail
      fun jail => { jail with running := false }
    change _ ∈ (Host.happens (.exits jail) sys.trace.world).zfs.datasets
    rw [Host.happens, Host.markExited, hjails]
    exact hmem

/-- Whatever happens but that, every volume is there still. -/
theorem Host.life_retains {before : List (Event Exit)} {happenings : List (Happening Exit)}
    (hcommands : ∀ p volume, Happening.command p (.deleteVolume volume) ∉ happenings)
    {volume : String} (hmem : volumeDatasetPath pool volume ∈
      (machine.life pool choices before).trace.world.zfs.datasets) :
    volumeDatasetPath pool volume ∈ (machine.life pool choices
      (before ++ happenings.flatMap Happening.events)).trace.world.zfs.datasets := by
  have hon : (machine.life pool choices before).OnPool pool := System.onPool_after
  rw [life, System.after_append]
  refine (System.after_induction (Host.world pool choices)
    (I := fun sys => sys.OnPool pool ∧ volumeDatasetPath pool volume ∈ sys.trace.world.zfs.datasets)
    ?_ (Happening.ne_deleteVolume hcommands) ⟨hon, hmem⟩).2
  rintro sys e he ⟨hon, hmem⟩
  have hon' : (sys.step (Host.world pool choices) e).OnPool (Host.world pool choices).pool :=
    System.OnPool.step hon
  exact ⟨hon', hon.retains he hmem⟩

/-! ## The next delete -/

/-- **Deleted**: cleared away, and not on record, in memory or on disk. -/
structure Deleted (pool name : String) (record : JailRecord) (r : Reconciler) (h : Host Text) : Prop
    extends Cleared pool name record h where
  memory : name ∉ r.records
  backoff : name ∉ r.backoff
  file : stateFile name ∉ h.stateDir
  disk : h.Loads r.records.lookup

/-- **A delete converges.** After any life of an agent, on a machine any
call may fail on or go down at, with deletes of a jail that failed and
passes after them among what has happened: while its record is there, a
delete of it none of whose calls fails returns `Ok`, and nothing is left
of the jail but its volumes. -/
theorem delete_converges (pool : String) (choices : ℕ → Option (Outcome Text))
    {machine : Host Text} (hmachine : ∀ file content,
      machine.stateDir.lookup file = some content → extension file ≠ some "yaml")
    (before : List (Event Exit)) (happenings : List (Happening Exit))
    (hcommands : ∀ p volume, Happening.command p (.deleteVolume volume) ∉ happenings)
    {r : Reconciler} {t : Trace (Op Text) (Host Text)}
    (hreached : machine.life pool choices (before ++ happenings.flatMap Happening.events) =
      ⟨some r, t⟩) {name : String} {record : JailRecord}
    (hrecord : r.records.lookup name = some record) {final : ℕ → Option (Outcome Text)}
    (hfinal : Reliable final) (hbusy : jailDatasetPath pool name ∉ t.world.zfs.busy) :
    ∃ r' t', (Reconciler.delete name).run Host.outside final r t = (.returned (.ok ()) r', t') ∧
      Deleted pool name record r' t'.world ∧ ∀ volume, volumeDatasetPath pool volume ∈
        (machine.life pool choices before).trace.world.zfs.datasets →
          volumeDatasetPath pool volume ∈ t'.world.zfs.datasets := by
  obtain ⟨l, hl⟩ := Host.life_tracks pool choices hmachine
    (before ++ happenings.flatMap Happening.events)
  have hon : (machine.life pool choices
      (before ++ happenings.flatMap Happening.events)).OnPool pool := System.onPool_after
  rw [hreached] at hl hon
  have hpool : r.pool = pool := hon r rfl
  rw [← hpool] at hbusy
  obtain ⟨result, r', t', hrun, rfl, hmemory, hbackoff, hcleared, hfile⟩ := Host.returns_of_wp
    (wp_delete_works not_fallible_of_works hrecord hbusy) hfinal
  have hmeets : Ended.Meets _ _ ((Reconciler.delete name).run Host.outside final r t) :=
    Host.meets_of_wp (wp_delete (P := Validated) (hl.memory r rfl) name)
  rw [hrun] at hmeets
  obtain ⟨l', -, his', -⟩ := hmeets
  rw [hpool] at hcleared
  refine ⟨r', t', hrun, ⟨hcleared, hmemory, hbackoff, hfile, ?_⟩, fun volume hmem => ?_⟩
  · rw [funext his'.records]
    exact his'.holds.loads
  · have hthere : volumeDatasetPath pool volume ∈ t.world.zfs.datasets := by
      have hlife := Host.life_retains hcommands hmem
      rw [hreached] at hlife
      exact hlife
    have hretained : Ended.Meets _ _ ((Reconciler.delete name).run Host.outside final r t) :=
      retained_of_spares Reconciler.spares_delete hpool hthere
    rw [hrun] at hretained
    exact hretained

end Life

section

open Agent.Sample (jail)
open scoped Agent.Sample Node.Sample

/-- A jail that was up, a delete that gets no further than to its dataset,
and a pass that brings the jail up again. -/
theorem delete_converges_sample :
    ∃ r t record r' t', Sample.host.life "zroot" (Sample.failing 26)
        ([.start, .operation (.apply (jail "db-0" none)), .operation (.reconcile (Sample.pass 0))] ++
          [.command (Sample.pass (10 ^ 12)) (.delete "db-0")].flatMap Happening.events) =
        ⟨some r, t⟩ ∧
      r.records.lookup "db-0" = some record ∧ t.world.isRunning (jailName "db-0") = true ∧
      (Reconciler.delete "db-0").run Host.outside (fun _ => some .works) r t =
        (.returned (.ok ()) r', t') ∧ Deleted "zroot" "db-0" record r' t'.world ∧
      volumeDatasetPath "zroot" "db-0-data" ∈ t'.world.zfs.datasets := by
  obtain ⟨sys, hsys⟩ : ∃ sys, Sample.host.life "zroot" (Sample.failing 26)
      ([.start, .operation (.apply (jail "db-0" none)), .operation (.reconcile (Sample.pass 0))] ++
        [.command (Sample.pass (10 ^ 12)) (.delete "db-0")].flatMap Happening.events) = sys :=
    ⟨_, rfl⟩
  have hstate : (sys.memory.any fun r => (r.records.lookup "db-0").isSome &&
      (sys.trace.world.isRunning (jailName "db-0") &&
        decide (jailDatasetPath "zroot" "db-0" ∉ sys.trace.world.zfs.busy))) = true := by
    rw [← hsys]
    decide +kernel
  have hvolume : volumeDatasetPath "zroot" "db-0-data" ∈ (Sample.host.life "zroot"
      (Sample.failing 26) [.start, .operation (.apply (jail "db-0" none)),
        .operation (.reconcile (Sample.pass 0))]).trace.world.zfs.datasets := by decide +kernel
  obtain ⟨r, hr, hstate⟩ := (Option.any_eq_true _ _).1 hstate
  obtain ⟨hthere, hstate⟩ := Bool.and_eq_true_iff.1 hstate
  obtain ⟨hrunning, hbusy⟩ := Bool.and_eq_true_iff.1 hstate
  obtain ⟨record, hrecord⟩ := Option.isSome_iff_exists.1 hthere
  have hreached : Sample.host.life "zroot" (Sample.failing 26)
      ([.start, .operation (.apply (jail "db-0" none)), .operation (.reconcile (Sample.pass 0))] ++
        [.command (Sample.pass (10 ^ 12)) (.delete "db-0")].flatMap Happening.events) =
      ⟨some r, sys.trace⟩ := by rw [hsys, ← hr]
  have hfinal : Reliable fun _ => some (Outcome.works : Outcome Sample.Doc) :=
    fun _ => ⟨_, rfl, rfl⟩
  obtain ⟨r', t', hrun, hdeleted, hvolumes⟩ := delete_converges "zroot" (Sample.failing 26)
    (fun file content hfile => by cases hfile)
    [.start, .operation (.apply (jail "db-0" none)), .operation (.reconcile (Sample.pass 0))]
    [.command (Sample.pass (10 ^ 12)) (.delete "db-0")] (by simp) hreached hrecord hfinal
    (of_decide_eq_true hbusy)
  exact ⟨r, sys.trace, record, r', t', hreached, hrecord, hrunning, hrun, hdeleted,
    hvolumes "db-0-data" hvolume⟩

end

end Node

end Keel
