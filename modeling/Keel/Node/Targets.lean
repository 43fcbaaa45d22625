import Keel.Node.Helpers.Apart
import Keel.Node.Model.Targets
/-!
# Where replica targets are kept

Whoever opens a replication connection names the replica, and the name
becomes that of a file. Joined to the directory of the targets, a name
with slashes in it leads wherever its components do, so the file is in
that directory exactly when the part of the name before its last slash
leads back there (`targetFiles_inside_iff`). A name that leads one level up
puts the file among the records the agent reads when it starts
(`targetFiles_escape`).
-/

namespace Keel

namespace Node

open Agent (ReplicaTarget)
open Paths (route)

/-! ## The file of a name -/

/-- What comes before the last slash, and the slash. -/
def dirPart (s : List Char) : List Char := s.rdropWhile (· ≠ '/')

/-- What comes after it. -/
def basePart (s : List Char) : List Char := s.rtakeWhile (· ≠ '/')

theorem dirPart_append_basePart (s : List Char) : dirPart s ++ basePart s = s :=
  List.rdropWhile_append_rtakeWhile

theorem notMem_basePart (s : List Char) : '/' ∉ basePart s := by
  intro h
  have := List.mem_rtakeWhile_imp h
  simp at this

theorem dirPart_of_notMem {s : List Char} (h : '/' ∉ s) : dirPart s = [] := by
  refine List.rdropWhile_eq_nil_iff.2 fun c hc => ?_
  simp only [decide_eq_true_eq]
  rintro rfl
  exact h hc

theorem exists_dirPart {s : List Char} (h : dirPart s ≠ []) : ∃ front, dirPart s = front ++ ['/'] := by
  refine ⟨(dirPart s).dropLast, ?_⟩
  have hlast : (dirPart s).getLast h = '/' := by
    simpa [dirPart] using List.rdropWhile_last_not (fun c => decide (c ≠ '/')) s h
  rw [← hlast, List.dropLast_append_getLast h]

theorem components_singleton {s : List Char} (hslash : '/' ∉ s) (hne : s ≠ []) (hdot : s ≠ ['.']) :
    components s = [s] := by
  simp [components, List.splitOn_eq_singleton hslash, hne, hdot]

theorem components_nil : components [] = [] := rfl

/-- A name with something put after it: what comes before its last slash
is the directory. -/
theorem path_append {s suffix : List Char} (hslash : '/' ∉ suffix) (hsuffix : 2 ≤ suffix.length) :
    path (s ++ suffix) = { path (dirPart s) with
      components := (path (dirPart s)).components ++ [basePart s ++ suffix] } := by
  have hbase : components (basePart s ++ suffix) = [basePart s ++ suffix] := by
    have hlength : 2 ≤ (basePart s ++ suffix).length := by
      rw [List.length_append]
      omega
    refine components_singleton ?_ ?_ ?_
    · rw [List.mem_append]
      exact not_or.2 ⟨notMem_basePart s, hslash⟩
    · intro hnil
      rw [hnil] at hlength
      simp at hlength
    · intro hdot
      rw [hdot] at hlength
      simp at hlength
  have hsplit : s ++ suffix = dirPart s ++ (basePart s ++ suffix) := by
    rw [← List.append_assoc, dirPart_append_basePart]
  by_cases hdir : dirPart s = []
  · -- there is no slash, and the suffix brings none
    have hhead : (basePart s ++ suffix).head? ≠ some '/' := by
      intro hhead
      rcases List.mem_append.1 (List.mem_of_head? hhead) with hmem | hmem
      · exact notMem_basePart s hmem
      · exact hslash hmem
    rw [hsplit, hdir, List.nil_append, path, hbase, path, components_nil,
      decide_eq_false hhead]
    rfl
  · obtain ⟨front, hfront⟩ := exists_dirPart hdir
    have hhead : (front ++ '/' :: (basePart s ++ suffix)).head? = (front ++ ['/']).head? := by
      cases front with
      | nil => rfl
      | cons c front => rfl
    rw [hsplit, hfront, List.append_assoc, List.singleton_append, path, path, hhead,
      components_append, components_append, hbase, components_nil, List.append_nil]

/-! ## Leading back -/

/-- **The name leads back** to the directory of the targets: it has no
slash, or what comes before its last slash goes up through some of the
directory's last components and comes down through the same; or that part
is the directory's own path from the root. -/
def LeadsBack (dir : PathBuf (List Char)) (replicaName : String) : Prop :=
  let way := path (dirPart replicaName.toList)
  if way.absolute then way.place parentDir = dir.place parentDir
  else (route parentDir way.components).downs =
      (dir.place parentDir).route.downs.rtake (route parentDir way.components).ups ∧
    (dir.absolute ∨
      (route parentDir way.components).ups ≤ (dir.place parentDir).route.downs.length)

theorem leadsBack_iff {dir : PathBuf (List Char)} {replicaName : String} :
    LeadsBack dir replicaName ↔
      (dir.join (path (dirPart replicaName.toList))).place parentDir = dir.place parentDir :=
  PathBuf.place_join_eq_iff.symm

instance (dir : PathBuf (List Char)) (replicaName : String) :
    Decidable (LeadsBack dir replicaName) := decidable_of_iff _ leadsBack_iff.symm

/-- A name without a slash does. -/
theorem leadsBack_of_notMem {replicaName : String} (h : '/' ∉ replicaName.toList)
    (dir : PathBuf (List Char)) : LeadsBack dir replicaName := by
  have hpath : path (dirPart replicaName.toList) = ⟨false, []⟩ := by
    rw [dirPart_of_notMem h]
    rfl
  unfold LeadsBack
  simp only [hpath, Bool.false_eq_true, if_false, Paths.route_nil, List.rtake_zero, true_and]
  exact Or.inr (Nat.zero_le _)

section Files

variable {stateDir : PathBuf (List Char)} {replicaName suffix : String}

theorem file_eq (hslash : '/' ∉ suffix.toList) (hsuffix : 2 ≤ suffix.toList.length) :
    replicaTargetStore.file stateDir replicaName suffix =
      { (replicaTargetStore.dir stateDir).join (path (dirPart replicaName.toList)) with
        components := ((replicaTargetStore.dir stateDir).join
          (path (dirPart replicaName.toList))).components ++
            [basePart replicaName.toList ++ suffix.toList] } := by
  rw [replicaTargetStore.file, String.toList_append, path_append hslash hsuffix,
    PathBuf.components_join_concat]

/-- **A file of a target** is in the directory of the targets exactly when
the target's name leads back there. -/
theorem liesIn_file_iff (hslash : '/' ∉ suffix.toList) (hsuffix : 3 ≤ suffix.toList.length) :
    PathBuf.LiesIn parentDir (replicaTargetStore.dir stateDir)
        (replicaTargetStore.file stateDir replicaName suffix) ↔
      LeadsBack (replicaTargetStore.dir stateDir) replicaName := by
  have hname : basePart replicaName.toList ++ suffix.toList ≠ parentDir := by
    intro h
    have hlength := congrArg List.length h
    have htwo : parentDir.length = 2 := rfl
    rw [List.length_append] at hlength
    omega
  rw [file_eq hslash (by omega), PathBuf.liesIn_concat_iff hname, leadsBack_iff]

/-- A suffix without a NUL brings none. -/
theorem hasNul_file (hslash : '/' ∉ suffix.toList) (hsuffix : 2 ≤ suffix.toList.length)
    (hnul : '\x00' ∉ suffix.toList) :
    HasNul (replicaTargetStore.file stateDir replicaName suffix) ↔
      HasNul ((replicaTargetStore.dir stateDir).join (path (dirPart replicaName.toList))) ∨
        '\x00' ∈ basePart replicaName.toList := by
  rw [file_eq hslash hsuffix]
  unfold HasNul
  simp [or_and_right, exists_or, hnul]

/-- **There is no such file**: the name, or the path of the directory, has
a NUL in it. -/
def Unopenable (stateDir : PathBuf (List Char)) (replicaName : String) : Prop :=
  HasNul (replicaTargetStore.dir stateDir) ∨
    HasNul (replicaTargetStore.file stateDir replicaName ".yaml")

instance (stateDir : PathBuf (List Char)) (replicaName : String) :
    Decidable (Unopenable stateDir replicaName) := inferInstanceAs (Decidable (_ ∨ _))

theorem hasNul_tmpFile : HasNul (replicaTargetStore.file stateDir replicaName ".yaml.tmp") ↔
    HasNul (replicaTargetStore.file stateDir replicaName ".yaml") := by
  rw [hasNul_file (by decide) (by decide) (by decide),
    hasNul_file (by decide) (by decide) (by decide)]

end Files

/-! ## What the agent reads when it starts -/

/-- The path is of a YAML file directly in a directory. -/
def YamlIn (dir p : PathBuf (List Char)) : Prop :=
  ∃ name, p.place parentDir = (dir.place parentDir).entry name ∧
    extension (String.ofList name) = some "yaml"

/-- A file that `store::load_all` or `ingress_store::load_all` reads. -/
def ReadAtStart (stateDir p : PathBuf (List Char)) : Prop :=
  YamlIn stateDir p ∨ YamlIn (ingressStore.dir stateDir) p

theorem place_dir (stateDir : PathBuf (List Char)) :
    (replicaTargetStore.dir stateDir).place parentDir =
      (stateDir.place parentDir).entry "replica-targets".toList :=
  PathBuf.place_concat (p := stateDir) (by decide)

theorem place_ingressDir (stateDir : PathBuf (List Char)) :
    (ingressStore.dir stateDir).place parentDir =
      (stateDir.place parentDir).entry "ingress".toList :=
  PathBuf.place_concat (p := stateDir) (by decide)

/-- What is in the directory of the targets is in neither of theirs. -/
theorem not_readAtStart_of_liesIn {stateDir p : PathBuf (List Char)}
    (h : PathBuf.LiesIn parentDir (replicaTargetStore.dir stateDir) p) :
    ¬ ReadAtStart stateDir p := by
  obtain ⟨name, hname⟩ := h
  rw [place_dir] at hname
  rintro (⟨name', hname', -⟩ | ⟨name', hname', -⟩)
  · have hplace := (Place.entry_inj (hname.symm.trans hname')).1
    have hlength := congrArg (fun place => place.route.downs.length) hplace
    simp [Place.entry] at hlength
  · rw [place_ingressDir] at hname'
    have hplace := (Place.entry_inj (hname.symm.trans hname')).1
    exact absurd (Place.entry_inj hplace).2 (by decide)

/-! ## What a connection writes -/

section Connections

variable {Text : Type} [SerdeYaml Text ReplicaTarget] {stateDir : PathBuf (List Char)}

/-- A call that writes nowhere but directly in the directory of the
targets, if it can write at all. -/
def TargetOp.Inside (stateDir : PathBuf (List Char)) : {ρ : Type} → TargetOp Text ρ → Prop
  | _, .write p _ => HasNul p ∨ PathBuf.LiesIn parentDir (replicaTargetStore.dir stateDir) p
  | _, .rename _ p => HasNul p ∨ PathBuf.LiesIn parentDir (replicaTargetStore.dir stateDir) p
  | _, _ => True

/-- A directory that cannot be opened is not made. -/
def TargetOp.Answers : {ρ : Type} → TargetOp Text ρ → ρ → Prop
  | _, .createDirAll dir, answer => HasNul dir → answer ≠ .ok ()
  | _, _, _ => True

/-- The paths written to, beside some there were, are all directly in the
directory of the targets. -/
def Beside (stateDir : PathBuf (List Char)) (before written : List (PathBuf (List Char))) : Prop :=
  ∀ p ∈ written, p ∈ before ∨ PathBuf.LiesIn parentDir (replicaTargetStore.dir stateDir) p

omit [SerdeYaml Text ReplicaTarget] in
theorem TargetOp.answers_call {ρ : Type} (x : TargetOutcome) (c : TargetOp Text ρ)
    (written : List (PathBuf (List Char))) : c.Answers (TargetOp.call x c written).1 := by
  cases c with
  | createDirAll dir =>
    intro hnul
    rw [TargetOp.call, if_pos hnul]
    simp
  | _ => trivial

omit [SerdeYaml Text ReplicaTarget] in
theorem Beside.cons {before written : List (PathBuf (List Char))} {p : PathBuf (List Char)}
    (h : Beside stateDir before written)
    (hp : PathBuf.LiesIn parentDir (replicaTargetStore.dir stateDir) p) :
    Beside stateDir before (p :: written) := by
  intro q hq
  rcases List.mem_cons.1 hq with rfl | hq
  · exact Or.inr hp
  · exact h q hq

omit [SerdeYaml Text ReplicaTarget] in
theorem TargetOp.beside_call {ρ : Type} (x : TargetOutcome) {c : TargetOp Text ρ}
    {before written : List (PathBuf (List Char))} (hc : c.Inside stateDir)
    (h : Beside stateDir before written) :
    Beside stateDir before (TargetOp.call x c written).2 := by
  cases c with
  | createDirAll dir =>
    rw [TargetOp.call]
    split
    · exact h
    · split
      · exact h
      · exact h
  | write p content =>
    rw [TargetOp.call]
    split
    · exact h
    · rename_i hnul
      have hp := hc.resolve_left hnul
      split
      · split
        · exact h.cons hp
        · exact h
      · exact h.cons hp
  | rename old p =>
    rw [TargetOp.call]
    split
    · exact h
    · rename_i hnul
      have hp := hc.resolve_left fun hp => hnul (Or.inr hp)
      split
      · exact h
      · exact h.cons hp
  | ack a =>
    rw [TargetOp.call]
    split
    · exact h
    · exact h
  | receive dataset stream =>
    rw [TargetOp.call]
    split
    · exact h
    · exact h

/-- A save writes where the target's name leads. -/
theorem keeps_save_target {target : ReplicaTarget} {K : ReplicaTargetRegistry → Prop}
    (h : Unopenable stateDir target.replicaName ∨
      LeadsBack (replicaTargetStore.dir stateDir) target.replicaName) :
    (replicaTargetStore.save stateDir target : Connection Text Unit).Keeps
      (TargetOp.Inside stateDir) TargetOp.Answers True K := by
  refine Proc.keeps_tryCall_bind trivial fun _ hmade => ?_
  have hinside : HasNul (replicaTargetStore.file stateDir target.replicaName ".yaml") ∨
      LeadsBack (replicaTargetStore.dir stateDir) target.replicaName := by
    rcases h with (hdir | hfile) | hleads
    · exact absurd rfl (hmade hdir)
    · exact Or.inl hfile
    · exact Or.inr hleads
  refine Proc.keeps_bind (Proc.keeps_tryCall ?_) fun _ => Proc.keeps_tryCall ?_
  · exact hinside.imp hasNul_tmpFile.2 (liesIn_file_iff (by decide) (by decide)).2
  · exact hinside.imp id (liesIn_file_iff (by decide) (by decide)).2

/-- A target is of the name it is asked for by. -/
theorem replicaName_entry (t : ReplicaTargetRegistry) (replicaName volumeDataset
    sourceNodeAddr : String) :
    (t.entry replicaName volumeDataset sourceNodeAddr).replicaName = replicaName := by
  unfold ReplicaTargetRegistry.entry
  cases hknown : t.byName.lookup replicaName with
  | none => rfl
  | some target => exact t.keyed replicaName target hknown

variable {replicaName : String}

theorem keeps_ensure {volumeDataset sourceNodeAddr : String}
    (h : Unopenable stateDir replicaName ∨
      LeadsBack (replicaTargetStore.dir stateDir) replicaName) :
    (ReplicaTargetRegistry.ensure replicaName volumeDataset sourceNodeAddr :
      Connection Text ReplicaTarget).Keeps (TargetOp.Inside stateDir) TargetOp.Answers True
        (fun t => t.stateDir = stateDir) := by
  refine Proc.keeps_get_bind fun t ht => ?_
  refine Proc.keeps_bind (Proc.keeps_modify fun _ ht' => ht') fun _ => ?_
  refine Proc.keeps_bind ?_ fun _ => Proc.keeps_ret
  rw [ht]
  exact keeps_save_target (by rwa [replicaName_entry])

theorem keeps_recordSnapshot {snapshotId : String}
    (h : Unopenable stateDir replicaName ∨
      LeadsBack (replicaTargetStore.dir stateDir) replicaName) :
    (ReplicaTargetRegistry.recordSnapshot replicaName snapshotId : Connection Text Unit).Keeps
      (TargetOp.Inside stateDir) TargetOp.Answers True (fun t => t.stateDir = stateDir) := by
  refine Proc.keeps_get_bind fun t ht => ?_
  cases hknown : t.byName.lookup replicaName with
  | none => exact Proc.keeps_ret
  | some known =>
    refine Proc.keeps_bind (Proc.keeps_modify fun _ ht' => ht') fun _ => ?_
    rw [ht]
    refine keeps_save_target ?_
    rwa [t.keyed replicaName known hknown]

/-- A connection writes only for the name in its header. -/
theorem keeps_handleConnection {pool peerAddr : String} {stream rest : List UInt8}
    {header : Agent.Header} (hread : readHeader stream = .ok (header, rest))
    (h : Unopenable stateDir header.replicaName ∨
      LeadsBack (replicaTargetStore.dir stateDir) header.replicaName) :
    (ReplicaTargetRegistry.handleConnection pool stream peerAddr : Connection Text Unit).Keeps
      (TargetOp.Inside stateDir) TargetOp.Answers True (fun t => t.stateDir = stateDir) := by
  rw [ReplicaTargetRegistry.handleConnection, hread]
  simp only [Proc.bind_eq, Proc.ofExcept, Proc.ret_bind]
  refine Proc.keeps_bind (keeps_ensure h) fun target => ?_
  refine Proc.keeps_ite (Proc.keeps_tryCall trivial) ?_
  refine Proc.keeps_bind (Proc.keeps_tryCall trivial) fun _ => ?_
  exact Proc.keeps_bind (Proc.keeps_tryCall trivial) fun _ => keeps_recordSnapshot h

/-! ## Every connection -/

/-- Whatever fails, the files a procedure writes to are all directly in the
directory of the targets, and none that is read when the agent starts. -/
def Confined {α : Type} (m : Connection Text α) (t : ReplicaTargetRegistry) : Prop :=
  ∀ (choices : ℕ → Option TargetOutcome)
    (before : Trace (TargetOp Text) (List (PathBuf (List Char)))),
    ∀ p ∈ (m.run TargetOp.outside choices t before).2.world, p ∈ before.world ∨
      (PathBuf.LiesIn parentDir (replicaTargetStore.dir t.stateDir) p ∧ ¬ ReadAtStart t.stateDir p)

omit [SerdeYaml Text ReplicaTarget] in
theorem confined_of_keeps {α : Type} {m : Connection Text α} {t : ReplicaTargetRegistry}
    {K : ReplicaTargetRegistry → Prop}
    (h : m.Keeps (TargetOp.Inside t.stateDir) TargetOp.Answers True K) (ht : K t) :
    Confined m t := by
  intro choices before p hp
  have hwp : m.wp TargetOp.outside _ _ t before := Proc.wp_of_makes
    (fun x c _ written hc (hw : Beside t.stateDir before.world written) _ =>
      ⟨TargetOp.answers_call x c written, TargetOp.beside_call x hc hw⟩)
    (h t ht) (fun _ hq => Or.inl hq) before.since_self
  have hmeets : Ended.Meets _ _ (m.run TargetOp.outside choices t before) :=
    Proc.wp_run hwp (Proc.allowed_of_allows fun _ _ _ _ _ _ _ => trivial)
  have hbeside : Beside t.stateDir before.world
      (m.run TargetOp.outside choices t before).2.world :=
    hmeets.trace (fun _ _ _ hq => hq.2.1) fun _ _ hx => hx.2.1
  exact (hbeside p hp).imp_right fun hlies => ⟨hlies, not_readAtStart_of_liesIn hlies⟩

/-- Every call of a connection works. -/
def TargetOutcome.works : TargetOutcome := ⟨none, false⟩

/-- A save that works has written the file, if there is such a file. -/
theorem mem_written_of_ensure {volumeDataset sourceNodeAddr : String} {t : ReplicaTargetRegistry}
    (hopen : ¬ Unopenable t.stateDir replicaName) :
    replicaTargetStore.file t.stateDir replicaName ".yaml" ∈
      ((ReplicaTargetRegistry.ensure replicaName volumeDataset sourceNodeAddr :
        Connection Text ReplicaTarget).run TargetOp.outside (fun _ => some .works) t
          ⟨[], []⟩).2.world := by
  have hdir : ¬ HasNul (replicaTargetStore.dir t.stateDir) := fun h => hopen (Or.inl h)
  have hfile : ¬ HasNul (replicaTargetStore.file t.stateDir replicaName ".yaml") :=
    fun h => hopen (Or.inr h)
  have htmp : ¬ HasNul (replicaTargetStore.file t.stateDir replicaName ".yaml.tmp") :=
    fun h => hfile (hasNul_tmpFile.1 h)
  simp [ReplicaTargetRegistry.ensure, replicaTargetStore.save, Proc.get, Proc.modify, Proc.tryCall,
    Proc.bind, Proc.ofExcept, Proc.run, TargetOp.outside, TargetOp.call, Outside.after,
    TargetOutcome.works, replicaName_entry, hdir, hfile, htmp]

/-! ## The same registry -/

/-- What a save does to the registry is nothing. -/
theorem keeps_registry {target : ReplicaTarget} {t : ReplicaTargetRegistry} :
    (replicaTargetStore.save stateDir target : Connection Text Unit).Keeps (fun _ => True)
      (fun _ _ => True) True (fun t' => t' = t) :=
  Proc.keeps_bind (Proc.keeps_tryCall trivial) fun _ =>
    Proc.keeps_bind (Proc.keeps_tryCall trivial) fun _ => Proc.keeps_tryCall trivial

/-- **An `ensure`** leaves in memory what it leaves where only the two ends
are modelled. -/
theorem makes_ensure {volumeDataset sourceNodeAddr : String} {t : ReplicaTargetRegistry}
    {ends : Agent.ReplicaTargetRegistry} (hends : ends.byName = t.byName) (saved : Bool) :
    (ReplicaTargetRegistry.ensure replicaName volumeDataset sourceNodeAddr :
      Connection Text ReplicaTarget).Makes (fun _ => True) (fun _ _ => True) True
        (fun result t' =>
          t'.byName = (ends.ensure saved replicaName volumeDataset sourceNodeAddr).2.byName ∧
          ∀ target, result = .ok target →
            (ends.ensure true replicaName volumeDataset sourceNodeAddr).1 = .ok target) t := by
  have hentry : { (ends.byName.lookup replicaName).getD
      ⟨replicaName, volumeDataset, sourceNodeAddr, none⟩ with sourceNodeAddr } =
        t.entry replicaName volumeDataset sourceNodeAddr := by
    rw [hends]
    rfl
  have hbyName : (t.insert (t.entry replicaName volumeDataset sourceNodeAddr)).byName =
      (ends.ensure saved replicaName volumeDataset sourceNodeAddr).2.byName := by
    unfold ReplicaTargetRegistry.insert Agent.ReplicaTargetRegistry.ensure
    simp only [replicaName_entry, hends]
    split
    · rfl
    · rfl
  rw [ReplicaTargetRegistry.ensure]
  simp only [Proc.bind_eq]
  refine Proc.makes_bind.2 (Proc.makes_bind.2 (Proc.makes_bind.2 (Proc.makes_mono ?_
    (keeps_registry (t := t.insert (t.entry replicaName volumeDataset sourceNodeAddr)) _ rfl))))
  rintro (e | u) t' rfl
  · exact ⟨hbyName, fun target htarget => by cases htarget⟩
  · refine ⟨hbyName, fun target htarget => ?_⟩
    rw [← Except.ok.inj htarget, ← hentry]
    rfl

end Connections

/-- **Target files stay in their directory** exactly where the name does.
For every header that can be decoded from a connection, in every registry,
whatever fails: all that `ensure` and the rest of the connection write to
is directly in the directory of the targets, and nothing the agent reads
as a record when it starts, if and only if the replica's name leads back to
that directory, or there can be no file of that name. -/
theorem targetFiles_inside_iff {Text : Type} [SerdeYaml Text ReplicaTarget]
    {stream rest : List UInt8} {header : Agent.Header}
    (hread : readHeader stream = .ok (header, rest)) (t : ReplicaTargetRegistry)
    (pool peerAddr : String) :
    Confined (ReplicaTargetRegistry.ensure header.replicaName
        (Agent.volumeDatasetPath pool (header.replicaName ++ "-data")) peerAddr :
          Connection Text ReplicaTarget) t ∧
      Confined (ReplicaTargetRegistry.handleConnection pool stream peerAddr :
        Connection Text Unit) t ↔
    Unopenable t.stateDir header.replicaName ∨
      LeadsBack (replicaTargetStore.dir t.stateDir) header.replicaName := by
  constructor
  · rintro ⟨hensure, -⟩
    by_cases hopen : Unopenable t.stateDir header.replicaName
    · exact Or.inl hopen
    · have hmem := hensure (fun _ => some .works) ⟨[], []⟩ _ (mem_written_of_ensure hopen)
      have hlies := (hmem.resolve_left List.not_mem_nil).1
      exact Or.inr ((liesIn_file_iff (by decide) (by decide)).1 hlies)
  · intro h
    exact ⟨confined_of_keeps (keeps_ensure h) rfl, confined_of_keeps (keeps_handleConnection hread h) rfl⟩

section

open scoped Node.Sample

namespace Sample

/-- A target, as YAML. -/
scoped instance : SerdeYaml ReplicaTarget ReplicaTarget where
  toYaml := id
  fromYaml := .ok
  fromYaml_toYaml _ := rfl

/-- An agent with no targets, on its usual state directory. -/
def targets : ReplicaTargetRegistry := .load (path "/var/db/keel".toList) []

/-- The header of `db-0`, with no base. -/
def honest : List UInt8 := [0, 0, 0, 4, 100, 98, 45, 48, 0, 0, 0, 1, 49, 0]

/-- The header of `../web`, with no base. -/
def upwards : List UInt8 := [0, 0, 0, 6, 46, 46, 47, 119, 101, 98, 0, 0, 0, 1, 49, 0]

end Sample

/-- The target of a replica is written where it belongs. -/
theorem targetFiles_inside_sample :
    readHeader Sample.honest = .ok (⟨"db-0", "1", none⟩, []) ∧
    Confined (ReplicaTargetRegistry.handleConnection "zroot" Sample.honest "10.0.0.9:40000" :
      Connection ReplicaTarget Unit) Sample.targets := by
  have hread : readHeader Sample.honest = .ok (⟨"db-0", "1", none⟩, []) := by decide +kernel
  refine ⟨hread, ((targetFiles_inside_iff hread Sample.targets "zroot" "10.0.0.9:40000").2 ?_).2⟩
  exact Or.inr (leadsBack_of_notMem (by decide) _)

/-- A name that leads up one level is decoded, and its target is written
to a file that `store::load_all` reads. -/
theorem targetFiles_escape :
    readHeader Sample.upwards = .ok (⟨"../web", "1", none⟩, []) ∧
    ∃ p ∈ ((ReplicaTargetRegistry.handleConnection "zroot" Sample.upwards "10.0.0.9:40000" :
        Connection ReplicaTarget Unit).run TargetOp.outside (fun _ => some .works) Sample.targets
          ⟨[], []⟩).2.world,
      p.place parentDir = (Sample.targets.stateDir.place parentDir).entry "web.yaml".toList ∧
      YamlIn Sample.targets.stateDir p := by
  have hplace : (replicaTargetStore.file Sample.targets.stateDir "../web" ".yaml").place parentDir =
      (Sample.targets.stateDir.place parentDir).entry "web.yaml".toList := by decide +kernel
  refine ⟨by decide +kernel, replicaTargetStore.file Sample.targets.stateDir "../web" ".yaml",
    by decide +kernel, hplace, "web.yaml".toList, hplace, by decide +kernel⟩

end

end Node

end Keel
