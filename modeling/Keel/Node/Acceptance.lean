import Keel.Node.Disk
/-!
# Two ways into an agent

A spec that comes through `keelctl` has passed `parse_and_validate`; one
that is sent to the agent itself meets the checks of `apply` only, which
are the same up to the volumes. So the two agree on a spec exactly if its
volumes are valid, or it is refused for something else
(`validation_paths_agree_iff`); what is let in beyond that goes on record.
-/

namespace Keel

namespace Node

open Agent (JailRecord)

section Acceptance

variable [Ipnet] {Text : Type}

/-! ## The two lists of checks -/

/-- The apply answers that the spec is invalid. -/
def Rejects [SerdeYaml Text JailRecord] (choices : ℕ → Option (Outcome Text)) (r : Reconciler)
    (t : Trace (Op Text) (Host Text)) (spec : JailSpec) : Prop :=
  ∃ e r' t', (Reconciler.apply spec : Method Text Unit).run Host.outside choices r t =
    (.returned (.error (.invalidSpec e)) r', t')

/-- **Where the two agree**: the volumes are valid, or a check they share
refuses the spec. -/
def VolumesSettled (spec : JailSpec) : Prop :=
  validateVolumes spec.spec.volumes = .ok () ∨ Reconciler.validate spec ≠ .ok ()

/-- The checks of `parse_and_validate` are those of `apply`, and the
volumes'. -/
theorem parseAndValidate_ok_iff {spec : JailSpec} :
    (parseAndValidate (.ok spec)).isOk = true ↔
      Reconciler.validate spec = .ok () ∧ validateVolumes spec.spec.volumes = .ok () := by
  rw [isOk_iff_exists]
  simp only [parseAndValidate, Reconciler.validate, Except.mapError, bind_eq_ok]
  constructor
  · rintro ⟨_, _, hread, u, hname, u', haddress, cpu, hcpu, memory, hmemory, u'', hvolumes, -⟩
    cases hread
    exact ⟨⟨u, hname, u', haddress, cpu, hcpu, memory, hmemory, rfl⟩, hvolumes⟩
  · rintro ⟨⟨u, hname, u', haddress, cpu, hcpu, memory, hmemory, -⟩, hvolumes⟩
    exact ⟨spec, spec, rfl, u, hname, u', haddress, cpu, hcpu, memory, hmemory, (), hvolumes, rfl⟩

variable [SerdeYaml Text JailRecord]

/-! ## What an apply answers -/

omit [Ipnet] [SerdeYaml Text JailRecord] in
/-- A step of the store fails with the store's error. -/
theorem makes_store {ε : Type} {f : ε → StoreError} {c : Op Text (Except ε Unit)} {r : Reconciler} :
    (Proc.tryCall (fun e => .store (f e)) c : Method Text Unit).Makes (fun _ => True)
      (fun _ _ => True) True
      (fun result r' => r' = r ∧ ∀ e, result ≠ .error (.invalidSpec e)) r := by
  rw [Proc.makes_tryCall]
  refine ⟨trivial, fun _ _ => ⟨rfl, fun e he => ?_⟩, fun _ _ => ⟨rfl, fun e he => ?_⟩⟩
  · cases he
  · cases he

omit [Ipnet] in
/-- Keeping a record fails at the store, if it does. -/
theorem makes_keep {name : String} {record : JailRecord} {r : Reconciler} :
    (Reconciler.keep name record : Method Text Unit).Makes (fun _ => True) (fun _ _ => True) True
      (fun result _ => ∀ e, result ≠ .error (.invalidSpec e)) r := by
  -- what follows a step that fails at the store, if it does
  have hseq : ∀ {ε : Type} {f : ε → StoreError} {c : Op Text (Except ε Unit)} {r : Reconciler}
      {m : Unit → Method Text Unit}, (m ()).Makes (fun _ => True) (fun _ _ => True) True
        (fun result _ => ∀ e, result ≠ .error (.invalidSpec e)) r →
      ((Proc.tryCall (fun e => .store (f e)) c : Method Text Unit).bind m).Makes (fun _ => True)
        (fun _ _ => True) True (fun result _ => ∀ e, result ≠ .error (.invalidSpec e)) r := by
    intro ε f c r m hm
    refine Proc.makes_bind.2 (Proc.makes_mono ?_ makes_store)
    rintro (e | u) r' ⟨rfl, hresult⟩
    · intro e' he'
      exact hresult e' (congrArg Except.error (Except.error.inj he'))
    · exact hm
  rw [Reconciler.keep, store.save, saveYaml]
  simp only [Proc.bind_eq, Proc.bind_assoc]
  refine hseq (hseq (hseq ?_))
  intro e he
  cases he

/-- **A name there is no record of** is refused by the checks of `apply`
alone. -/
theorem rejects_iff {choices : ℕ → Option (Outcome Text)} {r : Reconciler}
    {t : Trace (Op Text) (Host Text)} {spec : JailSpec}
    (hfresh : r.records.lookup spec.metadata.name = none) :
    Rejects choices r t spec ↔ Reconciler.validate spec ≠ .ok () := by
  unfold Rejects
  cases hvalid : Reconciler.validate spec with
  | error e =>
    simp only [ne_eq, reduceCtorEq, not_false_eq_true, iff_true]
    refine ⟨e, r, t, ?_⟩
    rw [Reconciler.apply, hvalid]
    rfl
  | ok u =>
    simp only [ne_eq, not_true_eq_false, iff_false]
    rintro ⟨e, r', t', hrun⟩
    have hmakes : (Reconciler.apply spec : Method Text Unit).Makes (fun _ => True)
        (fun _ _ => True) True (fun result _ => ∀ e, result ≠ .error (.invalidSpec e)) r := by
      rw [Reconciler.apply, hvalid, Reconciler.takeOrdinal, Proc.bind_eq, Proc.ofExcept,
        Proc.ret_bind, Proc.bind_eq, Proc.bind_eq, Proc.makes_bind, Proc.makes_bind, Proc.makes_get]
      simp only [hfresh]
      cases Checked.add 32 r.nextEpairOrdinal 1 with
      | error p => trivial
      | ok next => exact makes_keep
    have hmeets : Ended.Meets _ _ ((Reconciler.apply spec).run Host.outside choices r t) :=
      Proc.run_of_makes (fun _ _ => trivial) hmakes t.since_self
    rw [hrun] at hmeets
    exact hmeets.1 e rfl

/-! ## What is on record -/

/-- Volumes with valid names, no two the same, and valid sizes. -/
structure GoodVolumes (volumes : List VolumeMount) : Prop where
  names : ∀ v ∈ volumes, validateName v.name = .ok ()
  distinct : (volumes.map VolumeMount.name).Nodup
  sizes : ∀ v ∈ volumes, (parseZfsQuota v.size).isOk = true

omit [Ipnet] [SerdeYaml Text JailRecord] in
theorem goodVolumes_iff {volumes : List VolumeMount} :
    GoodVolumes volumes ↔ validateVolumes volumes = .ok () := by
  rw [validateVolumes_ok_iff]
  constructor
  · intro h
    exact ⟨fun v hv => ⟨h.names v hv, h.sizes v hv⟩, h.distinct⟩
  · rintro ⟨hvalid, hnodup⟩
    exact ⟨fun v hv => (hvalid v hv).1, hnodup, fun v hv => (hvalid v hv).2⟩

def WithGoodVolumes (record : JailRecord) : Prop := GoodVolumes record.spec.spec.volumes

omit [SerdeYaml Text JailRecord] in
/-- A record keeps its volumes, so only a new one is looked at. -/
theorem admits_goodVolumes {r : Reconciler} {spec : JailSpec}
    (h : r.records.lookup spec.metadata.name = none → VolumesSettled spec) :
    Admits WithGoodVolumes r spec := by
  constructor
  · intro hvalid hnew _
    exact goodVolumes_iff.2 ((h hnew).resolve_right (not_not_intro hvalid))
  · intro _ old _ htransition hold
    have hkept := (fixed_of_validateTransition htransition).volumes
    change GoodVolumes spec.spec.volumes
    rw [hkept]
    exact hold

variable [SerdeYaml Text IngressRecord]

/-- **Every record has good volumes**, while every new one is settled. -/
theorem life_goodVolumes (pool : String) (choices : ℕ → Option (Outcome Text))
    {machine : Host Text} (hmachine : ∀ file content,
      machine.stateDir.lookup file = some content → extension file ≠ some "yaml")
    (events : List (Event Exit)) (hsettled : ∀ es spec rest r,
      events = es ++ .operation (.apply spec) :: rest →
      (machine.life pool choices es).memory = some r →
      r.records.lookup spec.metadata.name = none → VolumesSettled spec) :
    ∃ l, (machine.life pool choices events).Tracks WithGoodVolumes l := by
  induction events using List.reverseRecOn with
  | nil => exact ⟨_, System.tracks_fresh hmachine⟩
  | append_singleton es e ih =>
    obtain ⟨l, hl⟩ := ih fun es' spec rest r hes =>
      hsettled es' spec (rest ++ [e]) r (by rw [hes]; simp)
    obtain ⟨l', hl', -⟩ := hl.step pool choices e
      (fun r spec hr he => admits_goodVolumes (hsettled es spec [] r (by rw [he]) hr))
      (fun _ _ hrecord => hrecord)
      (fun _ _ _ => admits_goodVolumes fun _ => Or.inl rfl)
    refine ⟨l', ?_⟩
    rw [Host.life, System.after_append]
    exact hl'

end Acceptance

/-- **The two ways in agree** on a spec of a new name exactly if its
volumes are valid or it is refused anyway; and while every new spec is so,
every record the agent has, in memory and on disk, has good volumes. -/
theorem validation_paths_agree_iff [Ipnet] {Text : Type} [SerdeYaml Text JailSpec]
    [SerdeYaml Text JailRecord] [SerdeYaml Text IngressRecord]
    (choices : ℕ → Option (Outcome Text)) :
    (∀ (r : Reconciler) (t : Trace (Op Text) (Host Text)) (spec : JailSpec),
      r.records.lookup spec.metadata.name = none →
      ((¬ Rejects choices r t spec ↔
          (parseAndValidate (SerdeYaml.fromYaml (SerdeYaml.toYaml spec : Text))).isOk = true) ↔
        VolumesSettled spec)) ∧
    ∀ (pool : String) (machine : Host Text) (events : List (Event Exit)),
      (∀ file content, machine.stateDir.lookup file = some content →
        extension file ≠ some "yaml") →
      (∀ es spec rest r, events = es ++ .operation (.apply spec) :: rest →
        (machine.life pool choices es).memory = some r →
        r.records.lookup spec.metadata.name = none → VolumesSettled spec) →
      (∀ r name record, (machine.life pool choices events).memory = some r →
        r.records.lookup name = some record → GoodVolumes record.spec.spec.volumes) ∧
      ∀ records name record, (machine.life pool choices events).trace.world.Loads records →
        records name = some record → GoodVolumes record.spec.spec.volumes := by
  refine ⟨fun r t spec hfresh => ?_, fun pool machine events hmachine hsettled => ?_⟩
  · rw [SerdeYaml.fromYaml_toYaml, rejects_iff hfresh, not_not, parseAndValidate_ok_iff,
      VolumesSettled]
    tauto
  · obtain ⟨l, hl⟩ := life_goodVolumes pool choices hmachine events hsettled
    refine ⟨fun r name record hr hrecord => ?_, fun records name record hloads hrecord => ?_⟩
    · rw [(hl.memory r hr).records] at hrecord
      exact hl.sound.record name record hrecord
    · exact hl.sound.record name record (hl.recorded ⟨records, hloads, hrecord⟩)

/-! ## A volume outside its place -/

namespace Sample

open Agent.Sample (jail)

/-- A spec, as the record it would be. -/
scoped instance : SerdeYaml Doc JailSpec where
  toYaml spec := .jail ⟨spec, 0⟩
  fromYaml doc := match doc with
    | .jail record => .ok record.spec
    | _ => .error "invalid type"
  fromYaml_toYaml _ := rfl

/-- A jail of some volumes. -/
def jailWith (volumes : List VolumeMount) : JailSpec :=
  { jail "db-0" none with spec := { (jail "db-0" none).spec with volumes } }

/-- A volume that names the dataset of another jail. -/
def climbing : JailSpec := jailWith [⟨"../jails/web", "/data", "1G"⟩]

end Sample

section

open Agent.Sample (jail)
open Node.Sample (climbing jailWith failing)
open scoped Agent.Sample Node.Sample

/-- `parse_and_validate` refuses the volume's name; the agent takes it on
record. -/
theorem validation_paths_differ :
    (parseAndValidate (SerdeYaml.fromYaml (SerdeYaml.toYaml climbing : Sample.Doc))).isOk = false ∧
      (∀ (choices : ℕ → Option (Outcome Sample.Doc)) (t : Trace (Op Sample.Doc) (Host Sample.Doc)),
        ¬ Rejects choices (Reconciler.blank "zroot") t climbing) ∧
      ∃ r record, (Sample.host.life "zroot" (failing 99)
          [.start, .operation (.apply climbing)]).memory = some r ∧
        r.records.lookup "db-0" = some record ∧ ¬ GoodVolumes record.spec.spec.volumes := by
  have hvalid : Reconciler.validate climbing = .ok () := by decide +kernel
  have hbad : validateVolumes climbing.spec.volumes ≠ .ok () := by decide +kernel
  refine ⟨by decide +kernel, fun choices t => ?_, ?_⟩
  · rw [rejects_iff rfl]
    exact not_not_intro hvalid
  · have hmemory : (Sample.host.life "zroot" (failing 99)
        [.start, .operation (.apply climbing)]).memory.map (fun r => r.records.lookup "db-0") =
        some (some ⟨climbing, 1⟩) := by decide +kernel
    obtain ⟨r, hr, hrecord⟩ := Option.map_eq_some_iff.1 hmemory
    exact ⟨r, ⟨climbing, 1⟩, hr, hrecord, fun hgood => hbad (goodVolumes_iff.1 hgood)⟩

/-- A jail with a good volume, applied to an agent. -/
theorem validation_paths_agree_jail :
    (¬ Rejects (failing 99) (Reconciler.blank "zroot") ⟨Sample.host, []⟩ (jail "db-0" none) ↔
      (parseAndValidate (SerdeYaml.fromYaml
        (SerdeYaml.toYaml (jail "db-0" none) : Sample.Doc))).isOk = true) ∧
    ∀ r name record, (Sample.host.life "zroot" (failing 99)
        [.start, .operation (.apply (jail "db-0" none))]).memory = some r →
      r.records.lookup name = some record → GoodVolumes record.spec.spec.volumes := by
  have hsettled : VolumesSettled (jail "db-0" none) := Or.inl (by decide +kernel)
  obtain ⟨hagree, hlife⟩ := @validation_paths_agree_iff _ Sample.Doc _ _ _ (failing 99)
  refine ⟨(hagree _ ⟨Sample.host, []⟩ _ rfl).2 hsettled, ?_⟩
  refine (hlife "zroot" Sample.host [.start, .operation (.apply (jail "db-0" none))]
    (fun file content hfile => by cases hfile) ?_).1
  rintro (_ | ⟨e₀, _ | ⟨e₁, es⟩⟩) spec rest r hevents - -
  · cases hevents
  · cases hevents
    exact hsettled
  · simp at hevents

end

end Node

end Keel
