import Keel.Node.Helpers.Tending
/-!
# A reconciler and its records

`Agent.Reconciler` is the records of a reconciler and no more: what the
machine makes of a command is a value it is given. Each method of the
reconciler, run on the machine to wherever it gets, does to the records,
their files and the volumes what that one does for some such value
(`Mirrors`, `Stored`), and returns what it returns.
-/

namespace Keel

namespace Node

open Agent (JailRecord volumeDatasetPath volumes FakeZfsManager)

/-! ## Errors -/

def StoreError.seen : StoreError → Agent.StoreError
  | .io .. => .io
  | .parse .. => .parse

def JailError.display : JailError → String
  | .commandFailed message => message
  | .notFound name => "jail '" ++ name ++ "' not found"

def NetError.display : NetError → String
  | .commandFailed message => message
  | .notFound bridge => "bridge '" ++ bridge ++ "' not found"

def MountError.display : MountError → String
  | .commandFailed message => message
  | .notMounted target =>
    "'" ++ String.ofList (target.flatMap fun c => '/' :: c) ++ "' is not currently mounted"

/-- An error, as far as an answer tells it. That an image is missing is
told by no answer: only a pass returns it. -/
def ReconcileError.seen : ReconcileError → Agent.ReconcileError
  | .invalidSpec e => .invalidSpec e
  | .store e => .store e.seen
  | .jail e => .jail e.display
  | .zfs e => .zfs e
  | .net e => .net e.display
  | .mount e => .mount e.display
  | .notFound name => .notFound name
  | .baseImageNotFound dataset => .notFound dataset

/-- What a method returns, as far as an answer tells it. -/
def seen (result : Except ReconcileError Unit) : Except Agent.ReconcileError Unit :=
  result.mapError ReconcileError.seen

section Mirror

variable {Text : Type} [Ipnet] [SerdeYaml Text JailRecord]

/-- What outlives the process: the files of the records, and the volumes. -/
structure Stored (R : Agent.Reconciler) (z : FakeZfsManager) (h : Host Text) : Prop where
  saved : Holds h.stateDir R.saved.lookup
  zfs : h.zfs.AgreeOn (volumes R.pool) z

/-- And what is in memory. -/
structure Mirrors (R : Agent.Reconciler) (z : FakeZfsManager) (r : Reconciler) (h : Host Text) :
    Prop where
  pool : r.pool = R.pool
  records : ∀ name, r.records.lookup name = R.records.lookup name
  next : r.nextEpairOrdinal = R.nextEpairOrdinal
  synced : ∀ name, R.records.lookup name = R.saved.lookup name
  stored : Stored R z h

variable {R : Agent.Reconciler} {z : FakeZfsManager} {r r' : Reconciler} {h h' : Host Text}

omit [Ipnet] in
theorem Stored.of_tended (hs : Stored R z h) (ht : Tended R.pool ∅ h h') : Stored R z h' := by
  refine ⟨?_, ht.agreeOn.trans hs.zfs⟩
  rw [ht.stateDir]
  exact hs.saved

omit [Ipnet] in
theorem Mirrors.of_steady (hm : Mirrors R z r h) (hr : Steady r r') (hs : Stored R z h') :
    Mirrors R z r' h' := by
  obtain ⟨hpool, hrecords, hnext⟩ := hr
  refine ⟨hpool.trans hm.pool, fun name => ?_, hnext.trans hm.next, hm.synced, hs⟩
  rw [hrecords]
  exact hm.records name

omit [Ipnet] in
/-- A record is under its own name. -/
theorem Mirrors.named (hm : Mirrors R z r h) {name : String} {record : JailRecord}
    (hrecord : r.records.lookup name = some record) :
    record.spec.metadata.name = name ∧ name ≠ "" := by
  rw [hm.records, hm.synced] at hrecord
  exact hm.stored.saved.named name record hrecord

variable {allows : {ρ : Type} → Outcome Text → Op Text ρ → Reconciler → Host Text → Prop}
variable {t : Trace (Op Text) (Host Text)}

/-- Returned as `f` of some of what the machine may make of it, which is
also what it leaves. -/
def Mirrored {A : Type} (f : A → Except Agent.ReconcileError Unit × Agent.Reconciler)
    (z : FakeZfsManager) (result : Except ReconcileError Unit) (r' : Reconciler)
    (t' : Trace (Op Text) (Host Text)) : Prop :=
  ∃ a, seen result = (f a).1 ∧ Mirrors (f a).2 z r' t'.world

omit [Ipnet] in
theorem Mirrored.of_eq {A : Type} {f : A → Except Agent.ReconcileError Unit × Agent.Reconciler}
    {result : Except ReconcileError Unit} {t' : Trace (Op Text) (Host Text)}
    {x : Except Agent.ReconcileError Unit} {Q : Agent.Reconciler} (a : A) (hf : f a = (x, Q))
    (hresult : seen result = x) (hm : Mirrors Q z r' t'.world) : Mirrored f z result r' t' := by
  refine ⟨a, ?_, ?_⟩
  · rw [hf]
    exact hresult
  · rw [hf]
    exact hm

/-! ## Saving -/

omit [SerdeYaml Text JailRecord] in
theorem zfs_call_of_ofFile {dir : Dir} {name : String} {ρ : Type} {c : Op Text ρ}
    (hc : c.OfFile dir name) (x : Outcome Text) : (Host.call x c h).2.zfs = h.zfs := by
  have hsame : ∀ {d files}, (h.setDir d files).zfs = h.zfs := by
    intro d files
    cases d <;> rfl
  rcases Host.call_snd x c h with heq | heq
  · rw [heq]
  rw [heq]
  cases c with
  | createDirAll d => exact congrArg Host.zfs ((Outcome.unlessFails_snd ..).elim id id)
  | writeFile d file content => exact hsame
  | renameFile d old new =>
    obtain ⟨stateDir, ingressDir, hdir, -⟩ := h.renameFile_eq d old new
    rw [Op.effect, hdir]
  | removeFile d file =>
    obtain ⟨stateDir, ingressDir, hdir, -⟩ := h.removeFile_eq d file
    rw [Op.effect, hdir]
  | _ => exact hc.elim

/-- What is known of a method that works on files: the memory is as it
was, and an error is one of the store. -/
def OnFiles (r : Reconciler) {α : Type} (result : Except ReconcileError α) (r' : Reconciler) :
    Prop :=
  r' = r ∧ ∀ e, result = .error e → e.seen = .store .io

omit [SerdeYaml Text JailRecord] in
/-- Work on files leaves ZFS alone. -/
theorem wp_onFiles {dir : Dir} {name : String} {m : Method Text Unit}
    (hm : m.Makes (Op.OfFile dir name) (fun _ _ => True) True (OnFiles r) r) :
    m.wp (Host.under allows) (fun result r' t' => OnFiles r result r' ∧ t'.world.zfs = t.world.zfs)
      (fun _ t' => t'.world.zfs = t.world.zfs) r t := by
  refine Proc.wp_mono (fun _ _ _ h => ⟨h.1, h.2.1⟩) (fun _ _ h => h.2.1)
    (Proc.wp_of_makes (I := fun w => w.zfs = t.world.zfs) ?_ hm rfl t.since_self)
  intro ρ x c s w hc hw _
  exact ⟨trivial, (zfs_call_of_ofFile hc x).trans hw⟩

omit [Ipnet] [SerdeYaml Text JailRecord] in
theorem makes_saveYaml {dir : Dir} {name : String} {content : Text} :
    (saveYaml dir name content : Method Text Unit).Makes (Op.OfFile dir name) (fun _ _ => True) True
      (OnFiles r) r := by
  have herror : ∀ {d : Dir} {file : String} (e : IoError),
      OnFiles r (.error (.store (.io d file e)) : Except ReconcileError Unit) r := by
    intro d file e
    refine ⟨rfl, fun e' he' => ?_⟩
    cases he'
    rfl
  rw [saveYaml]
  simp only [Proc.bind_eq]
  rw [Proc.makes_tryCall_bind]
  refine ⟨rfl, fun _ _ => ?_, fun e _ => herror e⟩
  rw [Proc.makes_tryCall_bind]
  refine ⟨⟨rfl, rfl⟩, fun _ _ => ?_, fun e _ => herror e⟩
  rw [Proc.makes_tryCall]
  exact ⟨⟨rfl, rfl, rfl⟩, fun _ _ => ⟨rfl, fun _ he => by cases he⟩, fun e _ => herror e⟩

omit [Ipnet] [SerdeYaml Text JailRecord] in
theorem makes_removeYaml {dir : Dir} {name : String} :
    (removeYaml dir name : Method Text Unit).Makes (Op.OfFile dir name) (fun _ _ => True) True
      (OnFiles r) r := by
  have hdone : OnFiles r (.ok () : Except ReconcileError Unit) r := by
    refine ⟨rfl, fun e he => ?_⟩
    cases he
  rw [removeYaml, Proc.bind_eq, Proc.makes_bind, Proc.makes_ask]
  refine ⟨⟨rfl, rfl⟩, fun result _ => ?_⟩
  rcases result with (_ | message) | ⟨⟩
  · exact hdone
  · refine ⟨rfl, fun e he => ?_⟩
    cases he
    rfl
  · exact hdone

/-- What a method leaves if it succeeds, and what if it fails. -/
def Either (done failed : Prop) : Except ReconcileError Unit → Prop
  | .ok () => done
  | .error _ => failed

/-- **Keeping a record**, saved or not. -/
theorem wp_keep_mirrors (hm : Mirrors R z r t.world) (record : JailRecord)
    (hname : record.spec.metadata.name ≠ "") :
    (Reconciler.keep record.spec.metadata.name record : Method Text Unit).wp (Host.under allows)
      (Mirrored (fun saves => R.keep saves record.spec.metadata.name record) z)
      (fun _ t' => Stored R z t'.world) r t := by
  have hsame : ∀ {h : Host Text}, SameYaml t.world.stateDir h.stateDir → h.zfs = t.world.zfs →
      Stored R z h := by
    intro h hyaml hzfs
    refine ⟨hm.stored.saved.of_sameYaml hyaml, ?_⟩
    rw [hzfs]
    exact hm.stored.zfs
  have hfile : (store.save record : Method Text Unit).Makes
      (Op.OfFile .state record.spec.metadata.name) (fun _ _ => True) True (OnFiles r) r :=
    makes_saveYaml
  rw [Reconciler.keep, Proc.bind_eq]
  refine Proc.wp_seq (Proc.wp_and (wp_save
    (Q := fun result _ t' => Either (PutYaml record t.world.stateDir t'.world.stateDir)
      (SameYaml t.world.stateDir t'.world.stateDir) result)
    (X := fun _ t' => SameYaml t.world.stateDir t'.world.stateDir)
    (fun t' hyaml => hyaml) (fun e t' hyaml => hyaml) fun t' hput => hput) (wp_onFiles hfile)) ?_ ?_
    fun _ t' ht' => hsame ht'.1 ht'.2
  · rintro u r' t' ⟨hput, ⟨rfl, -⟩, hzfs⟩
    refine ⟨true, rfl, hm.pool, fun name => ?_, hm.next, fun name => ?_, ?_, ?_⟩
    · simp only [Agent.Reconciler.keep, if_true, Table.lookup_insert_eq, hm.records]
    · simp only [Agent.Reconciler.keep, if_true, Table.lookup_insert_eq, hm.synced]
    · have hholds := hm.stored.saved.put hput hname
      refine cast (congrArg (Holds t'.world.stateDir) (funext fun name => ?_)) hholds
      simp only [Agent.Reconciler.keep, if_true, Table.lookup_insert_eq, Function.update_apply]
    · rw [hzfs]
      exact hm.stored.zfs
  · rintro e r' t' ⟨hyaml, ⟨rfl, herror⟩, hzfs⟩
    refine ⟨false, ?_, hm.of_steady ⟨rfl, rfl, rfl⟩ (hsame hyaml hzfs)⟩
    exact congrArg Except.error (herror e rfl)

/-! ## The commands that change records -/

omit [SerdeYaml Text JailRecord] in
/-- The checks of an apply, and what they find. -/
theorem checkApply_eq (R : Agent.Reconciler) (spec : JailSpec) :
    R.checkApply spec = (Reconciler.validate spec).bind fun _ =>
      match R.records.lookup spec.metadata.name with
      | some existing => (validateTransition existing.spec spec).bind fun _ =>
          .ok (existing.epairOrdinal, R.nextEpairOrdinal)
      | none => .ok (R.nextEpairOrdinal, R.nextEpairOrdinal + 1) := by
  simp only [Agent.Reconciler.checkApply, Reconciler.validate]
  cases validateName spec.metadata.name with
  | error e => rfl
  | ok u =>
    cases validateAddress spec.spec.network.address with
    | error e => rfl
    | ok u =>
      cases parseCpuCores spec.spec.resources.cpu with
      | error e => rfl
      | ok cores =>
        cases parseMemoryBytes spec.spec.resources.memory with
        | error e => rfl
        | ok bytes => rfl

omit [SerdeYaml Text JailRecord] in
theorem apply_refused {spec : JailSpec} {e : SpecError} (saves : Bool)
    (hcheck : R.checkApply spec = .error e) :
    R.apply saves spec = (.error (.invalidSpec e), R) := by
  rw [Agent.Reconciler.apply, hcheck]

omit [SerdeYaml Text JailRecord] in
theorem apply_checked {spec : JailSpec} {ordinal next : ℕ} (saves : Bool)
    (hcheck : R.checkApply spec = .ok (ordinal, next)) :
    R.apply saves spec =
      { R with nextEpairOrdinal := next }.keep saves spec.metadata.name ⟨spec, ordinal⟩ := by
  rw [Agent.Reconciler.apply, hcheck]

omit [SerdeYaml Text JailRecord] in
theorem checkApply_existing {spec : JailSpec} {u : Unit} {existing : JailRecord}
    (hvalid : Reconciler.validate spec = .ok u)
    (hlookup : R.records.lookup spec.metadata.name = some existing) :
    R.checkApply spec = (validateTransition existing.spec spec).bind fun _ =>
      .ok (existing.epairOrdinal, R.nextEpairOrdinal) := by
  rw [checkApply_eq, hvalid, hlookup]
  rfl

omit [SerdeYaml Text JailRecord] in
theorem checkApply_new {spec : JailSpec} {u : Unit} (hvalid : Reconciler.validate spec = .ok u)
    (hlookup : R.records.lookup spec.metadata.name = none) :
    R.checkApply spec = .ok (R.nextEpairOrdinal, R.nextEpairOrdinal + 1) := by
  rw [checkApply_eq, hvalid, hlookup]
  rfl

/-- **An apply.** -/
theorem wp_apply_mirrors (hm : Mirrors R z r t.world) (spec : JailSpec) :
    (Reconciler.apply spec : Method Text Unit).wp (Host.under allows)
      (Mirrored (fun saves => R.apply saves spec) z) (fun _ t' => Stored R z t'.world) r t := by
  rw [Reconciler.apply, Proc.bind_eq, Proc.wp_bind]
  cases hvalid : Reconciler.validate spec with
  | error e =>
    refine .of_eq true (apply_refused true ?_) rfl hm
    rw [checkApply_eq, hvalid]
    rfl
  | ok u =>
    have hname := ne_empty_of_validateName (validate_ok hvalid)
    simp only [Proc.ofExcept, Proc.wp_ret]
    rw [Proc.bind_eq, Proc.wp_bind, Reconciler.takeOrdinal, Proc.bind_eq, Proc.wp_bind, Proc.wp_get]
    have hlookup' := hm.records spec.metadata.name
    cases hlookup : r.records.lookup spec.metadata.name with
    | some existing =>
      rw [hlookup] at hlookup'
      have hcheck := checkApply_existing hvalid hlookup'.symm
      simp only [hlookup]
      cases htransition : validateTransition existing.spec spec with
      | error e =>
        rw [htransition] at hcheck
        exact .of_eq true (apply_refused true hcheck) rfl hm
      | ok u =>
        rw [htransition] at hcheck
        have hkeep : (Reconciler.keep spec.metadata.name ⟨spec, existing.epairOrdinal⟩ :
            Method Text Unit).wp (Host.under allows) (Mirrored (fun saves => R.apply saves spec) z)
              (fun _ t' => Stored R z t'.world) r t := by
          refine Proc.wp_mono ?_ (fun _ _ hx => hx)
            (wp_keep_mirrors hm ⟨spec, existing.epairOrdinal⟩ hname)
          rintro result r' t' ⟨saves, hresult, hm'⟩
          exact .of_eq saves (apply_checked saves hcheck) hresult hm'
        exact hkeep
    | none =>
      rw [hlookup] at hlookup'
      have hcheck := checkApply_new hvalid hlookup'.symm
      simp only [hlookup]
      cases hadd : Checked.add 32 r.nextEpairOrdinal 1 with
      | error p => exact hm.stored
      | ok next =>
        have hnext : next = R.nextEpairOrdinal + 1 := by
          rw [Checked.add] at hadd
          split at hadd
          · cases hadd
            rw [hm.next]
          · cases hadd
        have hbumped : Mirrors { R with nextEpairOrdinal := R.nextEpairOrdinal + 1 } z
            { r with nextEpairOrdinal := next } t.world :=
          ⟨hm.pool, hm.records, hnext, hm.synced, hm.stored.saved, hm.stored.zfs⟩
        have hkeep : (Reconciler.keep spec.metadata.name ⟨spec, r.nextEpairOrdinal⟩ :
            Method Text Unit).wp (Host.under allows) (Mirrored (fun saves => R.apply saves spec) z)
              (fun _ t' => Stored R z t'.world) { r with nextEpairOrdinal := next } t := by
          refine Proc.wp_mono ?_ ?_
            (wp_keep_mirrors hbumped ⟨spec, r.nextEpairOrdinal⟩ hname)
          · rintro result r' t' ⟨saves, hresult, hm'⟩
            rw [hm.next] at hresult hm'
            exact .of_eq saves (apply_checked saves hcheck) hresult hm'
          · rintro _ t' ⟨hsaved, hzfs⟩
            exact ⟨hsaved, hzfs⟩
        exact hkeep

/-- **A retarget.** -/
theorem wp_setReplicateTo_mirrors (hm : Mirrors R z r t.world) (name : String)
    (replicateTo : Option String) :
    (Reconciler.setReplicateTo name replicateTo : Method Text Unit).wp (Host.under allows)
      (Mirrored (fun saves => R.setReplicateTo saves name replicateTo) z)
      (fun _ t' => Stored R z t'.world) r t := by
  rw [Reconciler.setReplicateTo, Proc.bind_eq, Proc.wp_bind]
  refine wp_find (fun record hlookup => ?_) fun hlookup => ?_
  · obtain ⟨hnamed, hname⟩ := hm.named hlookup
    rw [hm.records] at hlookup
    subst hnamed
    refine Proc.wp_mono ?_ (fun _ _ hx => hx)
      (wp_keep_mirrors hm (retarget record replicateTo) hname)
    rintro result r' t' ⟨saves, hresult, hm'⟩
    refine .of_eq saves ?_ hresult hm'
    rw [Agent.Reconciler.setReplicateTo, hlookup]
    rfl
  · rw [hm.records] at hlookup
    refine .of_eq true ?_ rfl hm
    rw [Agent.Reconciler.setReplicateTo, hlookup]
    rfl

/-- **A delete**, by how the teardown and the removal come out. -/
theorem wp_delete_mirrors (hm : Mirrors R z r t.world) (name : String) (m : Agent.Machine) :
    (Reconciler.delete name : Method Text Unit).wp (Host.under allows)
      (Mirrored (fun x : Except Agent.ReconcileError Unit × Bool =>
        R.delete { m with tearDown := x.1, removes := x.2 } name) z)
      (fun _ t' => Stored R z t'.world) r t := by
  rw [Reconciler.delete, Proc.bind_eq, Proc.wp_bind]
  refine wp_find (fun record hlookup => ?_) fun hlookup => ?_
  · rw [hm.records] at hlookup
    simp only [Proc.bind_eq]
    rw [Proc.wp_get_bind, hm.pool]
    refine Proc.wp_seq (wp_tends (K := fun r' => r' = r) tends_tearDownJail rfl) ?_ ?_
      fun _ t' ht' => hm.stored.of_tended ht'
    · rintro u r' t' ⟨rfl, ht'⟩
      have hm' : Mirrors R z r' t'.world := hm.of_steady ⟨rfl, rfl, rfl⟩ (hm.stored.of_tended ht')
      refine Proc.wp_seq (Proc.wp_and (wp_remove
        (Q := fun result _ t'' => Either (∀ file, t''.world.stateDir.lookup file =
            (t'.world.stateDir.erase (stateFile name)).lookup file) (t''.world = t'.world) result)
        (X := fun _ t'' => t''.world = t'.world) rfl (fun _ _ ht'' => ht'') fun _ hfiles => hfiles)
        (wp_onFiles makes_removeYaml)) ?_ ?_ ?_
      · rintro u r'' t'' ⟨hfiles, ⟨rfl, -⟩, hzfs⟩
        have hgone : R.delete { m with tearDown := .ok (), removes := true } name =
            (.ok (), { R with records := R.records.erase name, saved := R.saved.erase name }) := by
          rw [Agent.Reconciler.delete, hlookup]
          rfl
        refine .of_eq (.ok (), true) hgone rfl
          ⟨hm'.pool, fun name' => ?_, hm'.next, fun name' => ?_, ?_, ?_⟩
        · simp only [Table.lookup_erase_eq, hm'.records]
        · simp only [Table.lookup_erase_eq, hm'.synced]
        · refine cast (congrArg (Holds t''.world.stateDir) (funext fun name' => ?_))
            ((hm'.stored.saved.erase name).of_sameYaml fun file _ => hfiles file)
          simp only [Table.lookup_erase_eq, Function.update_apply]
        · rw [hzfs]
          exact hm'.stored.zfs
      · rintro e r'' t'' ⟨ht'', ⟨rfl, herror⟩, -⟩
        refine .of_eq (.ok (), false) ?_ (congrArg Except.error (herror e rfl)) (Q := R) ?_
        · rw [Agent.Reconciler.delete, hlookup]
          rfl
        · rw [ht'']
          exact hm'
      · rintro x t'' ⟨ht'', -⟩
        rw [ht'']
        exact hm'.stored
    · rintro e r' t' ⟨rfl, ht'⟩
      refine .of_eq (.error e.seen, true) ?_ rfl
        (hm.of_steady ⟨rfl, rfl, rfl⟩ (hm.stored.of_tended ht'))
      rw [Agent.Reconciler.delete, hlookup]
      rfl
  · rw [hm.records] at hlookup
    refine .of_eq (.ok (), true) ?_ rfl hm
    rw [Agent.Reconciler.delete, hlookup]
    rfl

/-! ## A pass -/

omit [SerdeYaml Text JailRecord] in
theorem ensureIngressJail_of (R : Agent.Reconciler) (m : Agent.Machine) {b : Bool}
    (h : (!m.ingress || decide ("ingress" ∈ R.records)) = b) :
    R.ensureIngressJail m =
      if b then R else (R.apply m.ingressSaves Agent.Reconciler.ingressSpec).2 := by
  rw [Agent.Reconciler.ensureIngressJail, h]

variable [SerdeYaml Text IngressRecord]

omit [SerdeYaml Text IngressRecord] in
/-- What a pass makes of the ingress jail's record. -/
theorem wp_ensureIngressJail_mirrors (hm : Mirrors R z r t.world) (m : Agent.Machine) :
    (Reconciler.ensureIngressJail : Method Text Unit).wp (Host.under allows)
      (fun _ r' t' => ∃ ingress ingressSaves,
        Mirrors (R.ensureIngressJail { m with ingress, ingressSaves }) z r' t'.world)
      (fun _ t' => Stored R z t'.world) r t := by
  rw [Reconciler.ensureIngressJail, Proc.bind_eq, Proc.wp_bind, Proc.wp_get]
  have hthere : "ingress" ∈ r.records ↔ "ingress" ∈ R.records := by
    rw [← AList.lookup_isSome, ← AList.lookup_isSome, hm.records]
  have hleft : R.ensureIngressJail { m with ingress := false, ingressSaves := true } = R := by
    rw [ensureIngressJail_of R _ (b := true) rfl, if_pos rfl]
  simp only
  split
  · refine ⟨false, true, ?_⟩
    rw [hleft]
    exact hm
  · rename_i hmissing
    have hnot : "ingress" ∉ R.records := by
      intro hmem
      apply hmissing
      rw [decide_eq_true (hthere.2 hmem), Bool.or_true]
    refine Proc.wp_mono ?_ (fun _ _ hx => hx) (wp_apply_mirrors hm Agent.Reconciler.ingressSpec)
    rintro result r' t' ⟨saves, -, hm'⟩
    refine ⟨true, saves, ?_⟩
    rw [ensureIngressJail_of R _ (b := false) (by rw [decide_eq_false hnot]; rfl),
      if_neg (by decide)]
    exact hm'

omit [Ipnet] [SerdeYaml Text JailRecord] [SerdeYaml Text IngressRecord] in
theorem mem_foldl_createVolume {d : String} (vs : List VolumeMount) (pool : String) :
    ∀ z : FakeZfsManager, (d ∈ (vs.foldl (fun z v => z.createVolume (volumeDatasetPath pool v.name))
      z).datasets ↔ d ∈ z.datasets ∨ ∃ v ∈ vs, d = volumeDatasetPath pool v.name) := by
  induction vs with
  | nil => simp
  | cons v vs ih =>
    intro z
    rw [List.foldl_cons, ih, FakeZfsManager.createVolume, Finset.mem_insert]
    constructor
    · rintro ((rfl | hd) | ⟨w, hw, rfl⟩)
      · exact Or.inr ⟨v, List.mem_cons_self, rfl⟩
      · exact Or.inl hd
      · exact Or.inr ⟨w, List.mem_cons_of_mem v hw, rfl⟩
    · rintro (hd | ⟨w, hw, rfl⟩)
      · exact Or.inl (Or.inr hd)
      · rcases List.mem_cons.1 hw with rfl | hw
        · exact Or.inl (Or.inl rfl)
        · exact Or.inr ⟨w, hw, rfl⟩

omit [Ipnet] [SerdeYaml Text JailRecord] [SerdeYaml Text IngressRecord] in
theorem foldl_createVolume_rest (vs : List VolumeMount) (pool : String) : ∀ z : FakeZfsManager,
    (vs.foldl (fun z v => z.createVolume (volumeDatasetPath pool v.name)) z).snapshots =
        z.snapshots ∧
      (vs.foldl (fun z v => z.createVolume (volumeDatasetPath pool v.name)) z).busy = z.busy := by
  induction vs with
  | nil => exact fun _ => ⟨rfl, rfl⟩
  | cons v vs ih => exact fun z => ih _

omit [Ipnet] [SerdeYaml Text IngressRecord] in
/-- **The volumes a pass has created** are some of the records'. -/
theorem Stored.provision {h₀ h : Host Text} (hs : Stored R z h₀) {V : Set String}
    (hV : ∀ v, v ∈ V ↔ ∃ name record, R.records.lookup name = some record ∧
      v ∈ record.spec.spec.volumes.map VolumeMount.name) (ht : Tended R.pool V h₀ h)
    (m : Agent.Machine) :
    ∃ provisioned, Stored R (R.provision { m with provisioned } z) h := by
  -- the volumes of the records that are there at the end
  refine ⟨((R.records.entries.flatMap fun e => e.2.spec.spec.volumes).filter fun v =>
    volumeDatasetPath R.pool v.name ∈ h.zfs.datasets).map VolumeMount.name, ?_, ?_⟩
  · rw [ht.stateDir]
    exact hs.saved
  obtain ⟨hsnapshots, hbusy⟩ := foldl_createVolume_rest
    ((R.records.entries.flatMap fun e => e.2.spec.spec.volumes).filter fun v =>
      v.name ∈ ((R.records.entries.flatMap fun e => e.2.spec.spec.volumes).filter fun v =>
        volumeDatasetPath R.pool v.name ∈ h.zfs.datasets).map VolumeMount.name) R.pool z
  refine ⟨?_, fun d hd name => ?_, fun d hd => ?_⟩
  · rintro _ ⟨name, rfl⟩
    rw [Agent.Reconciler.provision, mem_foldl_createVolume]
    rw [← hs.zfs.datasets _ ⟨name, rfl⟩]
    constructor
    · intro hname
      rcases ht.created name hname with hbefore | hcreated
      · exact Or.inl hbefore
      · refine Or.inr ?_
        obtain ⟨n, record, hrecord, hvolume⟩ := (hV name).1 hcreated
        obtain ⟨v, hv, rfl⟩ := List.mem_map.1 hvolume
        have hall : v ∈ R.records.entries.flatMap fun e => e.2.spec.spec.volumes :=
          List.mem_flatMap.2 ⟨⟨n, record⟩, AList.mem_lookup_iff.1 hrecord, hv⟩
        refine ⟨v, List.mem_filter.2 ⟨hall, decide_eq_true ?_⟩, rfl⟩
        exact List.mem_map.2 ⟨v, List.mem_filter.2 ⟨hall, decide_eq_true hname⟩, rfl⟩
    · rintro (hbefore | ⟨v, hv, hpath⟩)
      · exact ht.kept name hbefore
      · obtain ⟨-, hin⟩ := List.mem_filter.1 hv
        obtain ⟨w, hw, hname⟩ := List.mem_map.1 (of_decide_eq_true hin)
        rw [hpath, ← hname]
        exact of_decide_eq_true (List.mem_filter.1 hw).2
  · rw [ht.snapshots, hs.zfs.snapshots d hd]
    exact congrArg (fun s => s.lookup (d, name)) hsnapshots.symm
  · rw [ht.busy, hs.zfs.busy d hd]
    exact (congrArg (fun s => d ∈ s) hbusy.symm).to_iff

omit [Ipnet] [SerdeYaml Text JailRecord] in
/-- Serving ingresses writes no record and touches no volume. -/
theorem tends_serveIngresses (pool : String) (V : Set String) (p : Pass) :
    ((Reconciler.reconcileCerts p).bind fun _ => Reconciler.reconcileIngressConfig p :
      Method Text Unit).Keeps (Op.Tends pool V) (fun _ _ => True) True (Steady r) := by
  refine Proc.keeps_bind (tends_of_ofIngress fun _ => Reconciler.keeps_reconcileCerts) fun _ => ?_
  exact tends_of_ofIngress fun _ =>
    Reconciler.keeps_reconcileIngressConfig.imp (fun _ => Reconciler.OfConfig.ofIngress)
      fun _ _ _ h => h

/-- Before it comes to the jails, a pass has created no volume. -/
theorem wp_reconcileIngresses_mirrors (hm : Mirrors R z r t.world) (p : Pass) (m : Agent.Machine) :
    (Reconciler.reconcileIngresses p : Method Text Unit).wp (Host.under allows)
      (fun result r' t' => result = .ok () ∧ ∃ ingress ingressSaves,
        Mirrors (R.ensureIngressJail { m with ingress, ingressSaves }) z r' t'.world)
      (fun _ t' => ∃ ingress ingressSaves,
        Stored (R.ensureIngressJail { m with ingress, ingressSaves }) z t'.world) r t := by
  rw [Reconciler.reconcileIngresses]
  simp only [Proc.bind_eq]
  rw [Proc.wp_bind, Proc.wp_attempt]
  refine Proc.wp_mono ?_ ?_ (wp_ensureIngressJail_mirrors hm m)
  · rintro result r₁ t₁ ⟨ingress, ingressSaves, hm₁⟩
    refine Proc.wp_mono ?_ ?_ (Proc.wp_of_neverFails ?_
      (wp_tends (tends_serveIngresses
        (R.ensureIngressJail { m with ingress, ingressSaves }).pool ∅ p) ⟨rfl, rfl, rfl⟩))
    · rintro _ r' t' ⟨u, rfl, hr', ht'⟩
      exact ⟨rfl, ingress, ingressSaves, hm₁.of_steady hr' (hm₁.stored.of_tended ht')⟩
    · intro _ t' ht'
      exact ⟨ingress, ingressSaves, hm₁.stored.of_tended ht'⟩
    · exact Proc.neverFails_bind Reconciler.neverFails_reconcileCerts
        fun _ => Reconciler.neverFails_reconcileIngressConfig
  · intro _ t' ht'
    refine ⟨false, true, ?_⟩
    rw [ensureIngressJail_of R _ (b := true) rfl, if_pos rfl]
    exact ht'

/-- **A pass.** -/
theorem wp_reconcile_mirrors (hm : Mirrors R z r t.world) (p : Pass) (m : Agent.Machine) :
    (Reconciler.reconcile p : Method Text _).wp (Host.under allows)
      (fun result r' t' => (∃ failures, result = .ok failures) ∧
        ∃ ingress ingressSaves provisioned,
          Mirrors (R.reconcile { m with ingress, ingressSaves, provisioned } z).1
            (R.reconcile { m with ingress, ingressSaves, provisioned } z).2 r' t'.world)
      (fun _ t' => ∃ ingress ingressSaves provisioned,
        Stored (R.reconcile { m with ingress, ingressSaves, provisioned } z).1
          (R.reconcile { m with ingress, ingressSaves, provisioned } z).2 t'.world) r t := by
  refine Proc.wp_seq (wp_reconcileIngresses_mirrors hm p m) ?_ ?_ ?_
  · rintro u r₁ t₁ ⟨-, ingress, ingressSaves, hm₁⟩
    have hvolumes : ∀ v, v ∈ r₁.volumeNames ↔ ∃ name record,
        (R.ensureIngressJail { m with ingress, ingressSaves }).records.lookup name = some record ∧
          v ∈ record.spec.spec.volumes.map VolumeMount.name := by
      intro v
      exact exists_congr fun name => by rw [hm₁.records]
    rw [Proc.bind_eq, Proc.wp_get_bind]
    refine Proc.wp_mono ?_ ?_ (Proc.wp_of_neverFails Reconciler.neverFails_reconcileAll
      (wp_tends (K := Steady r₁) tends_reconcileAll ⟨rfl, rfl, rfl⟩))
    · rintro _ r' t' ⟨failures, rfl, hr', ht'⟩
      rw [hm₁.pool] at ht'
      obtain ⟨provisioned, hstored⟩ := hm₁.stored.provision hvolumes ht' m
      exact ⟨⟨failures, rfl⟩, ingress, ingressSaves, provisioned,
        hr'.1.trans hm₁.pool, (hm₁.of_steady hr' hm₁.stored).records, hr'.2.2.trans hm₁.next,
        hm₁.synced, hstored⟩
    · intro _ t' ht'
      rw [hm₁.pool] at ht'
      obtain ⟨provisioned, hstored⟩ := hm₁.stored.provision hvolumes ht' m
      exact ⟨ingress, ingressSaves, provisioned, hstored⟩
  · rintro e r₁ t₁ ⟨he, -⟩
    cases he
  · rintro _ t₁ ⟨ingress, ingressSaves, hs⟩
    obtain ⟨provisioned, hstored⟩ := hs.provision (fun _ => Iff.rfl) (.refl _ _ _) m
    exact ⟨ingress, ingressSaves, provisioned, hstored⟩

/-! ## Volumes -/

/-- A call to ZFS that did not come off. -/
def ZfsFailed (result : Except ReconcileError Unit) : Prop :=
  ∃ message, result = .error (.zfs (.commandFailed message))

omit [SerdeYaml Text IngressRecord] in
/-- Asking for a volume, if ZFS can be asked. -/
theorem wp_getVolume_mirrors (hm : Mirrors R z r t.world) (name : String) :
    (Reconciler.getVolume name : Method Text Unit).wp (Host.under allows)
      (fun result r' t' => (seen result = R.getVolume z name ∨ ZfsFailed result) ∧
        Mirrors R z r' t'.world) (fun _ t' => Stored R z t'.world) r t := by
  have hexists : t.world.zfs.datasetExists (volumeDatasetPath R.pool name) =
      z.datasetExists (volumeDatasetPath R.pool name) :=
    decide_eq_decide.2 (hm.stored.zfs.datasets _ ⟨name, rfl⟩)
  rw [Reconciler.getVolume, Proc.bind_eq, Proc.wp_get_bind, hm.pool, Proc.bind_eq, Proc.wp_bind]
  refine wp_tryCall (fun _ => rfl) hm.stored (fun _ m _ _ => ⟨Or.inr ⟨m, rfl⟩, hm⟩) ?_
    fun _ he => by cases he
  intro there hthere
  cases hthere
  rw [hexists, Agent.Reconciler.getVolume]
  cases z.datasetExists (volumeDatasetPath R.pool name) with
  | true => exact ⟨Or.inl rfl, hm⟩
  | false => exact ⟨Or.inl rfl, hm⟩

omit [SerdeYaml Text IngressRecord] in
/-- Deleting one. -/
theorem wp_deleteVolume_mirrors (hm : Mirrors R z r t.world) (name : String) :
    (Reconciler.deleteVolume name : Method Text Unit).wp (Host.under allows)
      (fun result r' t' =>
        (seen result = (R.deleteVolume z name).1 ∧
          Mirrors R (R.deleteVolume z name).2 r' t'.world) ∨
        ZfsFailed result ∧ Mirrors R z r' t'.world) (fun _ t' => Stored R z t'.world) r t := by
  obtain ⟨hresult, hleft⟩ :=
    hm.stored.zfs.destroyDataset (Agent.volumeDatasetPath_mem_volumes R.pool name)
  have hhost : (t.world.destroyDataset (volumeDatasetPath R.pool name)).1 =
        (t.world.zfs.destroyDataset (volumeDatasetPath R.pool name)).1 ∧
      (t.world.destroyDataset (volumeDatasetPath R.pool name)).2.stateDir = t.world.stateDir ∧
      (t.world.destroyDataset (volumeDatasetPath R.pool name)).2.zfs.AgreeOn (volumes R.pool)
        (z.destroyDataset (volumeDatasetPath R.pool name)).2 := by
    unfold Host.destroyDataset
    cases hd : t.world.zfs.destroyDataset (volumeDatasetPath R.pool name) with
    | mk result zfs =>
      rw [hd] at hleft
      cases result with
      | ok u => exact ⟨rfl, rfl, hleft⟩
      | error e =>
        refine ⟨rfl, rfl, ?_⟩
        have hzfs : zfs = t.world.zfs := by
          have hsame := congrArg Prod.snd hd
          have hfailed := congrArg Prod.fst hd
          unfold FakeZfsManager.destroyDataset at hsame hfailed
          split at hsame
          · exact hsame.symm
          rename_i hbusy
          rw [if_neg hbusy] at hfailed
          split at hsame
          · rename_i hmem
            rw [if_pos hmem] at hfailed
            cases hfailed
          · exact hsame.symm
        rw [← hzfs]
        exact hleft
  have hafter : Mirrors R (z.destroyDataset (volumeDatasetPath R.pool name)).2 r
      (t.world.destroyDataset (volumeDatasetPath R.pool name)).2 := by
    refine ⟨hm.pool, hm.records, hm.next, hm.synced, ?_, hhost.2.2⟩
    rw [hhost.2.1]
    exact hm.stored.saved
  have hzfs : R.deleteVolume z name =
      ((z.destroyDataset (volumeDatasetPath R.pool name)).1.mapError Agent.ReconcileError.zfs,
        (z.destroyDataset (volumeDatasetPath R.pool name)).2) := by
    rw [Agent.Reconciler.deleteVolume]
    generalize z.destroyDataset (volumeDatasetPath R.pool name) = x
    obtain ⟨result, zfs⟩ := x
    cases result <;> rfl
  rw [Reconciler.deleteVolume, Proc.bind_eq, Proc.wp_get_bind, hm.pool, hzfs]
  refine wp_tryCall (fun _ => rfl) hm.stored (fun _ m _ _ => Or.inr ⟨⟨m, rfl⟩, hm⟩) ?_ ?_
  · intro u hu
    rw [hhost.1, hresult] at hu
    rw [hu]
    exact Or.inl ⟨rfl, hafter⟩
  · intro e he
    rw [hhost.1, hresult] at he
    rw [he]
    exact Or.inl ⟨rfl, hafter⟩

/-! ## Questions -/

omit [SerdeYaml Text IngressRecord] in
/-- **A status** is of the record there is. -/
theorem wp_get_mirrors (hm : Mirrors R z r t.world) (name : String) (now : ℕ) :
    (Reconciler.get name now : Method Text _).wp (Host.under allows)
      (fun result r' t' => (∃ status, result = .ok status ∧
        status.map JailStatus.record = R.records.lookup name) ∧ Mirrors R z r' t'.world)
      (fun x t' => x = .crashed ∧ Stored R z t'.world) r t := by
  rw [Reconciler.get, Proc.bind_eq, Proc.wp_get_bind]
  have hlookup' := hm.records name
  cases hlookup : r.records.lookup name with
  | none =>
    rw [hlookup] at hlookup'
    exact ⟨⟨none, rfl, hlookup'⟩, hm⟩
  | some record =>
    rw [hlookup] at hlookup'
    simp only [Proc.bind_eq]
    exact wp_ask_bind (fun _ => rfl) ⟨rfl, hm.stored⟩
      (fun _ _ _ _ => ⟨⟨_, rfl, hlookup'⟩, hm⟩) fun _ _ _ => ⟨⟨_, rfl, hlookup'⟩, hm⟩

omit [SerdeYaml Text IngressRecord] in
theorem wp_getAll_mirrors (now : ℕ) (names : List String) :
    ∀ {r : Reconciler} {t : Trace (Op Text) (Host Text)}, Mirrors R z r t.world →
      (Reconciler.getAll now names : Method Text _).wp (Host.under allows)
        (fun result r' t' => (∃ statuses, result = .ok statuses ∧ statuses.map JailStatus.record =
          names.filterMap fun name => R.records.lookup name) ∧ Mirrors R z r' t'.world)
        (fun x t' => x = .crashed ∧ Stored R z t'.world) r t := by
  induction names with
  | nil => exact fun hm => ⟨⟨[], rfl, rfl⟩, hm⟩
  | cons name names ih =>
    intro r t hm
    rw [Reconciler.getAll, Proc.bind_eq]
    refine Proc.wp_seq (wp_get_mirrors hm name now) ?_ ?_ fun _ _ hx => hx
    · rintro status r₁ t₁ ⟨⟨_, hstatus, hrecord⟩, hm₁⟩
      cases hstatus
      rw [Proc.bind_eq]
      refine Proc.wp_seq (ih hm₁) ?_ ?_ fun _ _ hx => hx
      · rintro statuses r₂ t₂ ⟨⟨_, hstatuses, hrecords⟩, hm₂⟩
        cases hstatuses
        refine ⟨⟨_, rfl, ?_⟩, hm₂⟩
        rw [List.map_append, hrecords, List.filterMap_cons, ← hrecord]
        cases status <;> rfl
      · rintro e r₂ t₂ ⟨⟨_, he, -⟩, -⟩
        cases he
    · rintro e r₁ t₁ ⟨⟨_, he, -⟩, -⟩
      cases he

omit [Ipnet] [SerdeYaml Text IngressRecord] in
/-- The same names, in the same order. -/
theorem Mirrors.sorted_keys (hm : Mirrors R z r h) :
    r.records.keys.insertionSort (· ≤ ·) = R.records.keys.insertionSort (· ≤ ·) := by
  have hkeys : r.records.keys.Perm R.records.keys := by
    refine (List.perm_ext_iff_of_nodup r.records.keys_nodup R.records.keys_nodup).2 fun name => ?_
    rw [← AList.mem_keys, ← AList.mem_keys, ← AList.lookup_isSome, ← AList.lookup_isSome,
      hm.records]
  have hsorted := (List.perm_insertionSort (· ≤ ·) r.records.keys).trans
    (hkeys.trans (List.perm_insertionSort (· ≤ ·) R.records.keys).symm)
  exact hsorted.eq_of_pairwise (fun a b _ _ hab hba => le_antisymm hab hba)
    (List.pairwise_insertionSort _ _) (List.pairwise_insertionSort _ _)

omit [SerdeYaml Text IngressRecord] in
theorem wp_list_mirrors (hm : Mirrors R z r t.world) (now : ℕ) :
    (Reconciler.list now : Method Text _).wp (Host.under allows)
      (fun result r' t' => (∃ statuses, result = .ok statuses ∧
        statuses.map JailStatus.record = R.list) ∧ Mirrors R z r' t'.world)
      (fun x t' => x = .crashed ∧ Stored R z t'.world) r t := by
  rw [Reconciler.list, Proc.bind_eq, Proc.wp_get_bind, hm.sorted_keys]
  exact wp_getAll_mirrors now _ hm

/-! ## A start -/

omit [Ipnet] [SerdeYaml Text JailRecord] [SerdeYaml Text IngressRecord] in
theorem foldl_max_le (l : List ℕ) (b : ℕ) : ∀ a, (l.foldl max a ≤ b ↔ a ≤ b ∧ ∀ x ∈ l, x ≤ b) := by
  induction l with
  | nil => simp
  | cons x l ih =>
    intro a
    rw [List.foldl_cons, ih, max_le_iff, List.forall_mem_cons]
    tauto

omit [Ipnet] [SerdeYaml Text JailRecord] [SerdeYaml Text IngressRecord] in
/-- The first ordinal past those of some records, however they are
listed. -/
theorem firstFreeOrdinal_eq {loaded : List JailRecord} {saved : Table JailRecord} {next : ℕ}
    (hmem : ∀ record, record ∈ loaded ↔ ∃ name, saved.lookup name = some record)
    (h : Reconciler.firstFreeOrdinal loaded = .ok next) :
    next = (saved.entries.map fun e => e.2.epairOrdinal + 1).foldl max 1 := by
  have hentries : ∀ b, (∀ x ∈ saved.entries.map fun e => e.2.epairOrdinal + 1, x ≤ b) ↔
      ∀ record ∈ loaded, record.epairOrdinal + 1 ≤ b := by
    intro b
    rw [List.forall_mem_map]
    constructor
    · intro hall record hrecord
      obtain ⟨name, hname⟩ := (hmem record).1 hrecord
      exact hall ⟨name, record⟩ (AList.mem_lookup_iff.1 hname)
    · intro hall e he
      exact hall e.2 ((hmem e.2).2 ⟨e.1, AList.mem_lookup_iff.2 he⟩)
  refine eq_of_forall_ge_iff fun b => ?_
  rw [foldl_max_le, hentries]
  rw [Reconciler.firstFreeOrdinal] at h
  cases hmax : (loaded.map JailRecord.epairOrdinal).max? with
  | none =>
    rw [hmax] at h
    cases h
    have hnil : loaded = [] := List.map_eq_nil_iff.1 (List.max?_eq_none_iff.1 hmax)
    simp [hnil]
  | some m =>
    obtain ⟨hm, hle⟩ := List.max?_eq_some_iff.1 hmax
    obtain ⟨last, hlast, rfl⟩ := List.mem_map.1 hm
    simp only [hmax, Checked.add] at h
    split at h
    · cases h
      constructor
      · intro hb
        refine ⟨by omega, fun record hrecord => ?_⟩
        have := hle _ (List.mem_map_of_mem hrecord)
        omega
      · rintro ⟨-, hall⟩
        exact hall last hlast
    · cases h

/-- **A start** comes up with what is saved, if it comes up. -/
theorem wp_new_mirrors (hs : Stored R z t.world) :
    (Reconciler.new R.pool : Method Text Unit).wp (Host.under allows)
      (fun result r' t' => Stored R z t'.world ∧ (result = .ok () →
        Mirrors (.new R.pool R.saved) z r' t'.world))
      (fun _ t' => Stored R z t'.world) r t := by
  have hload : ∀ {t' : Trace (Op Text) (Host Text)}, t'.world = t.world → Stored R z t'.world := by
    intro t' ht'
    rw [ht']
    exact hs
  rw [Reconciler.new]
  simp only [Proc.bind_eq]
  refine Proc.wp_seq (wp_loadAll hs.saved) ?_ ?_ fun _ _ hx => hload hx.2
  · rintro loaded r₁ t₁ ⟨-, ht₁, hmem, hnodup⟩
    cases hnext : Reconciler.firstFreeOrdinal loaded with
    | error p => exact hload ht₁
    | ok next =>
      -- the ingresses are read from elsewhere
      have hingress : (ingressStore.loadAll : Method Text _).Keeps (Op.Tends R.pool ∅)
          (fun _ _ => True) True fun _ => True :=
        Reconciler.keeps_loadYaml.imp (fun _ => Op.Asks.tends) fun _ _ _ hr => hr
      rw [Proc.ofChecked, Proc.ret_bind]
      refine Proc.wp_seq (wp_tends hingress trivial) ?_ ?_ ?_
      · rintro ingressLoaded r₂ t₂ ⟨-, ht₂⟩
        have hs₂ : Stored R z t₂.world := (hload ht₁).of_tended ht₂
        refine ⟨hs₂, fun _ => ⟨rfl, fun name => ?_, firstFreeOrdinal_eq hmem hnext, fun _ => rfl,
          hs₂.saved, hs₂.zfs⟩⟩
        apply Option.ext
        intro record
        show (Agent.Reconciler.collect loaded).lookup name = some record ↔
          R.saved.lookup name = some record
        rw [lookup_collect_iff hnodup, hmem]
        constructor
        · rintro ⟨⟨name', hrecord⟩, hname⟩
          rw [← hname, (hs.saved.named name' record hrecord).1]
          exact hrecord
        · intro hrecord
          exact ⟨⟨name, hrecord⟩, (hs.saved.named name record hrecord).1⟩
      · rintro e r₂ t₂ ⟨-, ht₂⟩
        exact ⟨(hload ht₁).of_tended ht₂, fun he => by cases he⟩
      · exact fun _ t₂ ht₂ => (hload ht₁).of_tended ht₂
  · rintro e r₁ t₁ ⟨-, ht₁, -⟩
    exact ⟨hload ht₁, fun he => by cases he⟩

end Mirror

end Node

end Keel
