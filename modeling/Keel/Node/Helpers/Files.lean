import Mathlib.Data.String.Basic
import Keel.Node.Helpers.Footprint
/-!
# The files of the records

What the state directory holds of a table of records (`Holds`): for each
record its file, with the record's YAML in it, and no other YAML file. A
save that fails, or is cut off, leaves what the directory holds as it
was, whatever it leaves of the file it writes first; a load returns just
the records held.
-/

namespace Keel

namespace Node

open Agent (JailRecord)

/-! ## File names -/

theorem extension_stateFile {name : String} (hname : name ≠ "") :
    extension (stateFile name) = some "yaml" := by
  have hlen : 0 < name.toList.length := by
    rw [List.length_pos_iff]
    intro hnil
    exact hname (String.toList_eq_nil_iff.1 hnil)
  have hdots : (stateFile name).toList.reverse = "lmay.".toList ++ name.toList.reverse := by
    simp [stateFile]
  simp [extension, hdots]
  omega

theorem extension_tmpFile (name : String) : extension (tmpFile name) = some "tmp" := by
  have hdots : (tmpFile name).toList.reverse = "pmt.lmay.".toList ++ name.toList.reverse := by
    simp [tmpFile]
  simp [extension, hdots]

theorem stateFile_inj {name name' : String} (h : stateFile name = stateFile name') :
    name = name' := by
  have hlist := congrArg String.toList h
  simp only [stateFile, String.toList_append, List.append_cancel_right_eq] at hlist
  exact String.toList_injective hlist

/-! ## Calls on the machine -/

section Calls

variable {Text α δ : Type} [Ipnet] {allows : {ρ : Type} → Outcome Text → Op Text ρ → Reconciler →
  Host Text → Prop} {Q : Except ReconcileError α → Reconciler → Trace (Op Text) (Host Text) → Prop}
variable {X : Stop → Trace (Op Text) (Host Text) → Prop} {r : Reconciler}
variable {t : Trace (Op Text) (Host Text)}

/-- The rule for a call that fails without effect or works: the error may
be any, the effect is the one there is. -/
theorem wp_tryCall {f : δ → ReconcileError} {c : Op Text (Except δ α)} {error : String → δ}
    {result : Except δ α × Host Text}
    (hcall : ∀ x, Host.call x c t.world = x.unlessFails t.world error result)
    (hcrash : X .crashed t)
    (hfails : ∀ x m, allows x c r t.world → x.fails = some m →
      Q (.error (f (error m))) r (t.push c t.world))
    (hok : ∀ a, result.1 = .ok a → Q (.ok a) r (t.push c result.2))
    (herror : ∀ e, result.1 = .error e → Q (.error (f e)) r (t.push c result.2)) :
    (Proc.tryCall f c : Method Text α).wp (Host.under allows) Q X r t := by
  rw [Proc.wp_tryCall]
  refine ⟨hcrash, fun x hx => ?_⟩
  have hcall' : (Host.under allows).call x c t.world = x.unlessFails t.world error result := hcall x
  rw [Outside.after, hcall', Outcome.unlessFails]
  cases hfail : x.fails with
  | some m => exact hfails x m hx hfail
  | none =>
    cases hresult : result.1 with
    | ok a => exact hok a hresult
    | error e => exact herror e hresult

/-- The same, for a call whose answer is looked at. -/
theorem wp_ask_bind {β : Type} {c : Op Text (Except δ α)} {error : String → δ}
    {result : Except δ α × Host Text} {f : Except δ α → Method Text β}
    {Q : Except ReconcileError β → Reconciler → Trace (Op Text) (Host Text) → Prop}
    (hcall : ∀ x, Host.call x c t.world = x.unlessFails t.world error result)
    (hcrash : X .crashed t)
    (hfails : ∀ x m, allows x c r t.world → x.fails = some m →
      (f (.error (error m))).wp (Host.under allows) Q X r (t.push c t.world))
    (hdone : ∀ x, allows x c r t.world → x.fails = none →
      (f result.1).wp (Host.under allows) Q X r (t.push c result.2)) :
    ((Proc.ask c).bind f : Method Text β).wp (Host.under allows) Q X r t := by
  refine Proc.wp_bind.2 ⟨hcrash, fun x hx => ?_⟩
  have hcall' : (Host.under allows).call x c t.world = x.unlessFails t.world error result := hcall x
  rw [Outside.after, hcall', Outcome.unlessFails]
  cases hfail : x.fails with
  | some m => exact hfails x m hx hfail
  | none => exact hdone x hx hfail

/-- What a write can come to: an error, with the file as it was or torn,
or the file written. -/
theorem call_writeFile (x : Outcome Text) (d : Dir) (file : String) (content : Text)
    (h : Host Text) :
    (∃ e, Host.call x (.writeFile d file content) h = (.error e, h)) ∨
      (∃ e torn, Host.call x (.writeFile d file content) h =
        (.error e, h.setDir d ((h.dir d).insert file torn))) ∨
      Host.call x (.writeFile d file content) h =
        (.ok (), h.setDir d ((h.dir d).insert file content)) := by
  cases hfails : x.fails with
  | none =>
    refine Or.inr (Or.inr ?_)
    simp only [Host.call, hfails]
  | some m =>
    cases hleft : x.left with
    | none =>
      refine Or.inl ⟨.other m, ?_⟩
      simp only [Host.call, hfails, hleft]
    | some torn =>
      refine Or.inr (Or.inl ⟨.other m, torn, ?_⟩)
      simp only [Host.call, hfails, hleft]

end Calls

/-! ## What the directory holds -/

section Holds

variable {Text : Type}

/-- The same YAML files. -/
def SameYaml (files files' : Table Text) : Prop :=
  ∀ file, extension file = some "yaml" → files'.lookup file = files.lookup file

theorem SameYaml.refl (files : Table Text) : SameYaml files files := fun _ _ => rfl

/-- The file a record is written to first is not a YAML file. -/
theorem SameYaml.insert_tmpFile (files : Table Text) (name : String) (content : Text) :
    SameYaml files (files.insert (tmpFile name) content) := by
  intro file hfile
  refine AList.lookup_insert_ne ?_
  rintro rfl
  rw [extension_tmpFile] at hfile
  exact absurd hfile (by decide)

variable [SerdeYaml Text JailRecord]

/-- What a state directory holds: a file for each record, with its YAML,
and no other YAML file. -/
structure Holds (files : Table Text) (records : String → Option JailRecord) : Prop where
  file : ∀ name record, records name = some record →
    files.lookup (stateFile name) = some (SerdeYaml.toYaml record)
  named : ∀ name record, records name = some record →
    record.spec.metadata.name = name ∧ name ≠ ""
  only : ∀ file content, files.lookup file = some content → extension file = some "yaml" →
    ∃ name record, records name = some record ∧ file = stateFile name

variable {files files' : Table Text} {records : String → Option JailRecord}

theorem Holds.of_sameYaml (h : Holds files records) (hsame : SameYaml files files') :
    Holds files' records := by
  refine ⟨fun name record hrecord => ?_, h.named, fun file content hfile hext => ?_⟩
  · rw [hsame _ (extension_stateFile (h.named name record hrecord).2)]
    exact h.file name record hrecord
  · rw [hsame file hext] at hfile
    exact h.only file content hfile hext

/-- A record's file in place of what was there. -/
def PutYaml (record : JailRecord) (files files' : Table Text) : Prop :=
  ∀ file, extension file = some "yaml" → files'.lookup file =
    if file = stateFile record.spec.metadata.name then some (SerdeYaml.toYaml record)
    else files.lookup file

theorem Holds.put (h : Holds files records) {record : JailRecord}
    (hput : PutYaml record files files') (hname : record.spec.metadata.name ≠ "") :
    Holds files' (Function.update records record.spec.metadata.name (some record)) := by
  refine ⟨fun name record' hrecord => ?_, fun name record' hrecord => ?_,
    fun file content hfile hext => ?_⟩
  · by_cases heq : name = record.spec.metadata.name
    · subst heq
      rw [Function.update_self] at hrecord
      cases hrecord
      rw [hput _ (extension_stateFile hname), if_pos rfl]
    · rw [Function.update_of_ne heq] at hrecord
      rw [hput _ (extension_stateFile (h.named name record' hrecord).2),
        if_neg fun hfile => heq (stateFile_inj hfile)]
      exact h.file name record' hrecord
  · by_cases heq : name = record.spec.metadata.name
    · subst heq
      rw [Function.update_self] at hrecord
      cases hrecord
      exact ⟨rfl, hname⟩
    · rw [Function.update_of_ne heq] at hrecord
      exact h.named name record' hrecord
  · rw [hput file hext] at hfile
    by_cases heq : file = stateFile record.spec.metadata.name
    · exact ⟨record.spec.metadata.name, record, Function.update_self .., heq⟩
    · rw [if_neg heq] at hfile
      obtain ⟨name, record', hrecord', rfl⟩ := h.only file content hfile hext
      refine ⟨name, record', ?_, rfl⟩
      rw [Function.update_of_ne fun hname => heq (congrArg stateFile hname)]
      exact hrecord'

theorem Holds.erase (h : Holds files records) (name : String) :
    Holds (files.erase (stateFile name)) (Function.update records name none) := by
  have hother : ∀ name' record, Function.update records name none name' = some record →
      name' ≠ name ∧ records name' = some record := by
    intro name' record hrecord
    by_cases heq : name' = name
    · rw [heq, Function.update_self] at hrecord
      cases hrecord
    · rw [Function.update_of_ne heq] at hrecord
      exact ⟨heq, hrecord⟩
  refine ⟨fun name' record hrecord => ?_, fun name' record hrecord => ?_,
    fun file content hfile hext => ?_⟩
  · obtain ⟨hne, hrecord⟩ := hother name' record hrecord
    rw [AList.lookup_erase_ne fun hfile => hne (stateFile_inj hfile)]
    exact h.file name' record hrecord
  · exact h.named name' record (hother name' record hrecord).2
  · by_cases heq : file = stateFile name
    · rw [heq, AList.lookup_erase] at hfile
      cases hfile
    · rw [AList.lookup_erase_ne heq] at hfile
      obtain ⟨name', record, hrecord, rfl⟩ := h.only file content hfile hext
      refine ⟨name', record, ?_, rfl⟩
      rw [Function.update_of_ne fun hname => heq (congrArg stateFile hname)]
      exact hrecord

/-- No record is held where there is no YAML file. -/
theorem holds_none (h : ∀ file content, files.lookup file = some content →
    extension file ≠ some "yaml") : Holds files fun _ => none :=
  ⟨fun _ _ hrecord => (Option.some_ne_none _ hrecord.symm).elim,
    fun _ _ hrecord => (Option.some_ne_none _ hrecord.symm).elim,
    fun file content hfile hext => absurd hext (h file content hfile)⟩

/-- The records of some files, each once. -/
structure Loaded (records : String → Option JailRecord) (files : List String)
    (loaded : List JailRecord) : Prop where
  mem : ∀ record, record ∈ loaded ↔ ∃ name, records name = some record ∧ stateFile name ∈ files
  nodup : (loaded.map fun record => record.spec.metadata.name).Nodup

/-- A file that is not YAML is no record's. -/
theorem Loaded.skip {files : Table Text} (h : Holds files records) {file : String}
    (hfile : extension file ≠ some "yaml") {rest : List String} {loaded : List JailRecord}
    (hl : Loaded records rest loaded) : Loaded records (file :: rest) loaded := by
  refine ⟨fun record => ?_, hl.nodup⟩
  rw [hl.mem]
  refine exists_congr fun name => and_congr_right fun hrecord => ?_
  rw [List.mem_cons, or_iff_right]
  rintro rfl
  exact hfile (extension_stateFile (h.named name record hrecord).2)

theorem Loaded.cons {files : Table Text} (h : Holds files records) {name : String}
    {record : JailRecord} (hrecord : records name = some record) {rest : List String}
    (hrest : stateFile name ∉ rest) {loaded : List JailRecord} (hl : Loaded records rest loaded) :
    Loaded records (stateFile name :: rest) (record :: loaded) := by
  refine ⟨fun record' => ?_, ?_⟩
  · rw [List.mem_cons, hl.mem]
    constructor
    · rintro (rfl | ⟨name', hname', hmem⟩)
      · exact ⟨name, hrecord, List.mem_cons_self⟩
      · exact ⟨name', hname', List.mem_cons_of_mem _ hmem⟩
    · rintro ⟨name', hname', hmem⟩
      rcases List.mem_cons.1 hmem with heq | hmem
      · rw [stateFile_inj heq, hrecord] at hname'
        exact Or.inl (Option.some.inj hname').symm
      · exact Or.inr ⟨name', hname', hmem⟩
  · rw [List.map_cons, List.nodup_cons]
    refine ⟨fun hmem => ?_, hl.nodup⟩
    obtain ⟨record', hrecord', hname'⟩ := List.mem_map.1 hmem
    obtain ⟨name', hlookup, hfile⟩ := (hl.mem record').1 hrecord'
    rw [(h.named name' record' hlookup).1, (h.named name record hrecord).1] at hname'
    rw [hname'] at hfile
    exact hrest hfile

end Holds

/-! ## The store -/

section Store

variable {Text : Type} [Ipnet]
variable {allows : {ρ : Type} → Outcome Text → Op Text ρ → Reconciler → Host Text → Prop}
variable {X : Stop → Trace (Op Text) (Host Text) → Prop} {r : Reconciler}
variable {t : Trace (Op Text) (Host Text)}

/-- **A removal** that fails or is cut off has not changed a file. -/
theorem wp_remove {name : String}
    {Q : Except ReconcileError Unit → Reconciler → Trace (Op Text) (Host Text) → Prop}
    (hcrash : X .crashed t) (herror : ∀ e t', t'.world = t.world → Q (.error e) r t')
    (hok : ∀ t', (∀ file, t'.world.stateDir.lookup file =
      (t.world.stateDir.erase (stateFile name)).lookup file) → Q (.ok ()) r t') :
    (store.remove name : Method Text Unit).wp (Host.under allows) Q X r t := by
  rw [store.remove, removeYaml, Proc.bind_eq]
  refine wp_ask_bind (fun _ => rfl) hcrash (fun _ _ _ _ => herror _ _ rfl) fun _ _ _ => ?_
  by_cases hfile : stateFile name ∈ t.world.stateDir
  · have hremove : t.world.removeFile .state (stateFile name) =
        (.ok (), t.world.setDir .state (t.world.stateDir.erase (stateFile name))) := if_pos hfile
    rw [hremove]
    exact hok _ fun _ => rfl
  · have hremove : t.world.removeFile .state (stateFile name) = (.error .notFound, t.world) :=
      if_neg hfile
    rw [hremove]
    refine hok _ fun file => ?_
    rw [Table.lookup_erase_eq]
    split
    · rename_i heq
      rw [heq]
      exact AList.lookup_eq_none.2 hfile
    · rfl

/-- **A load** from a directory without YAML files returns nothing. -/
theorem wp_loadYaml_none {α : Type} {dir : Dir} {fromYaml : Text → Except String α}
    (hnone : ∀ file content, (t.world.dir dir).lookup file = some content →
      extension file ≠ some "yaml") :
    (loadYaml dir fromYaml : Method Text _).wp (Host.under allows)
      (fun result r' t' => r' = r ∧ t'.world = t.world ∧ ∀ loaded, result = .ok loaded → loaded = [])
      (fun x t' => x = .crashed ∧ t'.world = t.world) r t := by
  have hskipped : ∀ files : List String, (∀ file ∈ files, extension file ≠ some "yaml") →
      (loadFiles dir fromYaml files : Method Text _) = Proc.ret [] := by
    intro files
    induction files with
    | nil => exact fun _ => rfl
    | cons file files ih =>
      intro hfiles
      rw [loadFiles, if_pos (hfiles file List.mem_cons_self)]
      exact ih fun f hf => hfiles f (List.mem_cons_of_mem file hf)
  rw [loadYaml]
  simp only [Proc.bind_eq]
  rw [Proc.wp_bind]
  refine wp_tryCall (fun _ => rfl) ⟨rfl, rfl⟩ (fun _ _ _ _ => ⟨rfl, rfl, fun _ h => by cases h⟩) ?_
    fun _ he => by cases he
  intro _ _
  dsimp only
  rw [Proc.wp_bind, Proc.wp_tryCall]
  refine ⟨⟨rfl, rfl⟩, fun x _ => ?_⟩
  have hcall : (Host.under allows).call x (.readDir dir) t.world =
      x.unlessFails t.world .other (.ok (x.order.apply (t.world.dir dir).keys), t.world) := rfl
  simp only [Trace.push_world, Outside.after, hcall, Outcome.unlessFails]
  cases x.fails with
  | some m => exact ⟨trivial, rfl, fun _ h => by cases h⟩
  | none =>
    have hfiles : ∀ file ∈ x.order.apply (t.world.dir dir).keys, extension file ≠ some "yaml" := by
      intro file hfile
      obtain ⟨content, hcontent⟩ := Table.exists_of_mem
        (AList.mem_keys.2 (x.order.mem_apply.1 hfile))
      exact hnone file content hcontent
    simp only
    rw [hskipped _ hfiles]
    refine ⟨rfl, rfl, fun loaded hloaded => ?_⟩
    cases hloaded
    rfl

variable [SerdeYaml Text JailRecord]

/-- **A save** that fails or is cut off has not changed a YAML file; one
that works has put the record's file in place. -/
theorem wp_save {record : JailRecord}
    {Q : Except ReconcileError Unit → Reconciler → Trace (Op Text) (Host Text) → Prop}
    (hcrash : ∀ t', SameYaml t.world.stateDir t'.world.stateDir → X .crashed t')
    (herror : ∀ e t', SameYaml t.world.stateDir t'.world.stateDir → Q (.error e) r t')
    (hok : ∀ t', PutYaml record t.world.stateDir t'.world.stateDir → Q (.ok ()) r t') :
    (store.save record : Method Text Unit).wp (Host.under allows) Q X r t := by
  rw [store.save, saveYaml, Proc.bind_eq, Proc.wp_bind]
  refine wp_tryCall (fun _ => rfl) (hcrash t (.refl _)) (fun _ _ _ _ => herror _ _ (.refl _)) ?_
    fun _ he => absurd he (by simp)
  intro _ _
  rw [Proc.bind_eq, Proc.wp_bind, Proc.wp_tryCall]
  refine ⟨hcrash _ (.refl _), fun x _ => ?_⟩
  have hcall := call_writeFile x .state (tmpFile record.spec.metadata.name)
    (SerdeYaml.toYaml record) t.world
  rcases hcall with ⟨e, he⟩ | ⟨e, torn, he⟩ | hdone
  · simp only [Host.under, Outside.after, Trace.push_world, he]
    exact herror _ _ (.refl _)
  · simp only [Host.under, Outside.after, Trace.push_world, he]
    exact herror _ _ (SameYaml.insert_tmpFile _ _ _)
  · simp only [Host.under, Outside.after, Trace.push_world, hdone]
    have hrename : (t.world.setDir .state ((t.world.dir .state).insert
          (tmpFile record.spec.metadata.name) (SerdeYaml.toYaml record))).renameFile .state
          (tmpFile record.spec.metadata.name) (stateFile record.spec.metadata.name) =
        (.ok (), t.world.setDir .state
          ((((t.world.dir .state).insert (tmpFile record.spec.metadata.name)
            (SerdeYaml.toYaml record)).erase (tmpFile record.spec.metadata.name)).insert
              (stateFile record.spec.metadata.name) (SerdeYaml.toYaml record))) := by
      simp [Host.renameFile, Host.dir, Host.setDir]
    refine wp_tryCall (fun _ => rfl) (hcrash _ (SameYaml.insert_tmpFile _ _ _))
      (fun _ _ _ _ => herror _ _ (SameYaml.insert_tmpFile _ _ _)) ?_ ?_
    · intro _ _
      simp only [Trace.push_world, hrename]
      refine hok _ fun file hfile => ?_
      have hne : file ≠ tmpFile record.spec.metadata.name := by
        rintro rfl
        rw [extension_tmpFile] at hfile
        exact absurd hfile (by decide)
      simp only [Trace.push_world, Host.setDir, Host.dir, Table.lookup_insert_eq,
        Table.lookup_erase_eq, if_neg hne]
    · intro e he
      simp only [Trace.push_world, hrename] at he
      cases he

/-- Some outcome considered is a failure. -/
def Fallible (allows : {ρ : Type} → Outcome Text → Op Text ρ → Reconciler → Host Text → Prop) :
    Prop :=
  ∃ (x : Outcome Text) (ρ : Type) (c : Op Text ρ) (r : Reconciler) (h : Host Text),
    allows x c r h ∧ x.fails ≠ none

omit [Ipnet] [SerdeYaml Text JailRecord] in
theorem fallible_of_fails {ρ : Type} {c : Op Text ρ} {h : Host Text} {x : Outcome Text} {m : String}
    (hx : allows x c r h) (hfails : x.fails = some m) : Fallible allows := by
  refine ⟨x, ρ, c, r, h, hx, ?_⟩
  rw [hfails]
  exact Option.some_ne_none m

omit [Ipnet] [SerdeYaml Text JailRecord] in
theorem not_fallible_of_works :
    ¬ Fallible fun (x : Outcome Text) (_ : Op Text _) (_ : Reconciler) (_ : Host Text) =>
      x.fails = none := by
  rintro ⟨x, ρ, c, r, h, hworks, hfails⟩
  exact hfails hworks

variable {records : String → Option JailRecord}

/-- What a load leaves and returns. -/
def LoadPost (allows : {ρ : Type} → Outcome Text → Op Text ρ → Reconciler → Host Text → Prop)
    (records : String → Option JailRecord) (files : List String) (r : Reconciler) (h : Host Text)
    (result : Except ReconcileError (List JailRecord)) (r' : Reconciler)
    (t' : Trace (Op Text) (Host Text)) : Prop :=
  r' = r ∧ t'.world = h ∧ match result with
    | .ok loaded => Loaded records files loaded
    | .error _ => Fallible allows

theorem wp_loadFiles {h : Host Text} (hholds : Holds h.stateDir records) {files : List String} :
    ∀ {t : Trace (Op Text) (Host Text)}, t.world = h → (∀ file ∈ files, file ∈ h.stateDir) →
      files.Nodup → (loadFiles .state SerdeYaml.fromYaml files : Method Text _).wp
        (Host.under allows) (LoadPost allows records files r h)
        (fun x t' => x = .crashed ∧ t'.world = h) r t := by
  induction files with
  | nil =>
    intro t ht _ _
    exact ⟨rfl, ht, ⟨fun record => by simp, List.nodup_nil⟩⟩
  | cons file files ih =>
    intro t ht hmem hnodup
    have hmem' : ∀ f ∈ files, f ∈ h.stateDir := fun f hf => hmem f (List.mem_cons_of_mem _ hf)
    obtain ⟨hnotin, hnodup'⟩ := List.nodup_cons.1 hnodup
    rw [loadFiles]
    split
    · rename_i hext
      refine Proc.wp_mono ?_ (fun _ _ hx => hx) (ih ht hmem' hnodup')
      rintro result r' t' ⟨hr, ht, hresult⟩
      refine ⟨hr, ht, ?_⟩
      cases result with
      | error e => exact hresult
      | ok loaded => exact hresult.skip hholds hext
    · rename_i hext
      have hext : extension file = some "yaml" := not_not.1 hext
      obtain ⟨content, hcontent⟩ := Table.exists_of_mem (hmem file List.mem_cons_self)
      obtain ⟨name, record, hrecord, rfl⟩ := hholds.only file content hcontent hext
      rw [hholds.file name record hrecord] at hcontent
      cases hcontent
      have hread : t.world.readToString .state (stateFile name) =
          .ok (SerdeYaml.toYaml record) := by
        rw [ht, Host.readToString, Host.dir, hholds.file name record hrecord]
      rw [Proc.bind_eq, Proc.wp_bind]
      refine wp_tryCall (fun _ => rfl) ⟨rfl, ht⟩ ?_ ?_ ?_
      · exact fun x m hx hfails => ⟨rfl, ht, fallible_of_fails hx hfails⟩
      · intro content hcontent
        rw [hread] at hcontent
        cases hcontent
        simp only [SerdeYaml.fromYaml_toYaml, Proc.ofExcept, Proc.bind_eq, Proc.bind]
        rw [Proc.wp_bind]
        refine Proc.wp_mono ?_ (fun _ _ hx => hx) (ih ht hmem' hnodup')
        rintro result r' t' ⟨hr, ht, hresult⟩
        cases result with
        | error e => exact ⟨hr, ht, hresult⟩
        | ok loaded => exact ⟨hr, ht, hresult.cons hholds hrecord hnotin⟩
      · intro e he
        rw [hread] at he
        cases he

/-- **A load** returns the records held, each once, unless a call
fails; it changes nothing. -/
theorem wp_loadAll (hholds : Holds t.world.stateDir records) :
    (store.loadAll : Method Text _).wp (Host.under allows)
      (fun result r' t' => r' = r ∧ t'.world = t.world ∧ match result with
        | .ok loaded => (∀ record, record ∈ loaded ↔ ∃ name, records name = some record) ∧
            (loaded.map fun record => record.spec.metadata.name).Nodup
        | .error _ => Fallible allows)
      (fun x t' => x = .crashed ∧ t'.world = t.world) r t := by
  rw [store.loadAll, loadYaml, Proc.bind_eq, Proc.wp_bind]
  refine wp_tryCall (fun _ => rfl) ⟨rfl, rfl⟩
    (fun x m hx hfails => ⟨rfl, rfl, fallible_of_fails hx hfails⟩) ?_
    fun _ he => absurd he (by simp)
  intro _ _
  rw [Proc.bind_eq, Proc.wp_bind, Proc.wp_tryCall]
  refine ⟨⟨rfl, rfl⟩, fun x hx => ?_⟩
  -- the order of the listing is the outside's, the files in it are not
  have hcall : (Host.under allows).call x (.readDir .state) t.world =
      x.unlessFails t.world .other (.ok (x.order.apply t.world.stateDir.keys), t.world) := rfl
  simp only [Trace.push_world, Outside.after, hcall, Outcome.unlessFails]
  cases hfails : x.fails with
  | some m => exact ⟨trivial, rfl, fallible_of_fails hx hfails⟩
  | none =>
    refine Proc.wp_mono ?_ (fun _ _ hx => hx) (wp_loadFiles hholds rfl ?_ ?_)
    · rintro result r' t' ⟨hr, ht, hresult⟩
      refine ⟨hr, ht, ?_⟩
      cases result with
      | error e => exact hresult
      | ok loaded =>
        refine ⟨fun record => ?_, hresult.nodup⟩
        rw [hresult.mem]
        refine exists_congr fun name => and_iff_left_of_imp fun hrecord => ?_
        rw [IterOrder.mem_apply, ← AList.mem_keys, ← AList.lookup_isSome,
          hholds.file name record hrecord]
        rfl
    · intro file hfile
      exact AList.mem_keys.2 (x.order.mem_apply.1 hfile)
    · exact x.order.nodup_apply t.world.stateDir.keys_nodup

end Store

end Node

end Keel
