import Keel.Node.Helpers.Apart
/-!
# Certificates on the machine

Where the two files of a host lie in the ingress jail, and what one turn
of `reconcileCert` makes of them (`Turned`): it leaves every file alone,
or puts a certificate it was given in place, or fails on the way there.
-/

namespace Keel

namespace Node

open Agent (JailRecord)

/-! ## Paths -/

theorem splitOn_append_last (s : List Char) : ∃ init last, ∀ e : List Char, '/' ∉ e →
    (s ++ e).splitOn '/' = init ++ [last ++ e] := by
  induction s with
  | nil =>
    refine ⟨[], [], fun e he => ?_⟩
    exact List.splitOn_eq_singleton he
  | cons c s ih =>
    obtain ⟨init, last, hsplit⟩ := ih
    by_cases hc : c = '/'
    · refine ⟨[] :: init, last, fun e he => ?_⟩
      rw [hc, List.cons_append, ← List.nil_append ('/' :: (s ++ e)),
        List.splitOn_append_cons_self, hsplit e he, List.cons_append,
        List.splitOn_eq_singleton List.not_mem_nil, List.singleton_append]
    · have hcons : ∀ e : List Char, (c :: (s ++ e)).splitOn '/' =
          ((s ++ e).splitOn '/').modifyHead (List.cons c) := by
        intro e
        simp [List.splitOn, List.splitOnP_cons_eq_if_modifyHead, hc]
      cases init with
      | nil =>
        refine ⟨[], c :: last, fun e he => ?_⟩
        rw [List.cons_append, hcons, hsplit e he]
        rfl
      | cons first init =>
        refine ⟨(c :: first) :: init, last, fun e he => ?_⟩
        rw [List.cons_append, hcons, hsplit e he]
        rfl

/-- What ends in a longer name is no dot. -/
theorem append_ne_dot {s e : List Char} (he : 1 < e.length) : s ++ e ≠ ['.'] := by
  intro h
  have hlength := congrArg List.length h
  simp at hlength
  omega

namespace Reconciler

/-- The directory and the stem of a host's files. -/
theorem components_host (host : String) : ∃ dir stem,
    components (host ++ ".crt").toList = dir ++ [stem ++ ".crt".toList] ∧
      components (host ++ ".key").toList = dir ++ [stem ++ ".key".toList] := by
  obtain ⟨init, last, hsplit⟩ := splitOn_append_last host.toList
  refine ⟨init.filter fun c => c ≠ [] && c ≠ ['.'], last, ?_, ?_⟩
  · have hdot : last ++ ".crt".toList ≠ ['.'] := append_ne_dot (by decide)
    rw [String.toList_append, components, hsplit _ (by decide), List.filter_append]
    simpa using hdot
  · have hdot : last ++ ".key".toList ≠ ['.'] := append_ne_dot (by decide)
    rw [String.toList_append, components, hsplit _ (by decide), List.filter_append]
    simpa using hdot

/-- Two hosts share both files or neither. -/
theorem keyPath_eq_iff {pool host host' : String} :
    keyPath pool host = keyPath pool host' ↔ certPath pool host = certPath pool host' := by
  obtain ⟨dir, stem, hcrt, hkey⟩ := components_host host
  obtain ⟨dir', stem', hcrt', hkey'⟩ := components_host host'
  rw [keyPath, keyPath, certPath, certPath, List.append_cancel_left_eq, List.append_cancel_left_eq,
    hcrt, hkey, hcrt', hkey', List.append_singleton_inj, List.append_singleton_inj,
    List.append_cancel_right_eq, List.append_cancel_right_eq]

/-- No certificate lies where a key does. -/
theorem certPath_ne_keyPath (pool host host' : String) :
    certPath pool host ≠ keyPath pool host' := by
  intro h
  obtain ⟨dir, stem, hcrt, -⟩ := components_host host
  obtain ⟨dir', stem', -, hkey⟩ := components_host host'
  rw [certPath, keyPath, List.append_cancel_left_eq, hcrt, hkey, List.append_singleton_inj] at h
  have hlast := congrArg List.getLast? h.2
  revert hlast
  simp

end Reconciler

/-! ## Files -/

section Files

variable {Text : Type}

/-- What a file below a rootfs holds. -/
def Host.file (h : Host Text) (path : Path) : Option String := h.rootfsFiles.lookup path

theorem Host.file_writeRootfsFile (h : Host Text) (path path' : Path) (content : String) :
    (h.writeRootfsFile path content).file path' =
      if path' = path then some content else h.file path' := by
  rw [file, writeRootfsFile]
  dsimp only
  by_cases hpath : path' = path
  · rw [if_pos hpath, hpath, List.lookup_cons_self]
  · have hfilter : ∀ files : List (Path × String),
        (files.filter fun f => f.1 ≠ path).lookup path' = files.lookup path' := by
      intro files
      induction files with
      | nil => rfl
      | cons f files ih =>
        by_cases hf : f.1 = path
        · have hne : (path' == f.1) = false := by
            rw [hf]
            exact beq_false_of_ne hpath
          rw [List.filter_cons_of_neg (by simpa using hf), ih, List.lookup_cons, hne]
        · rw [List.filter_cons_of_pos (by simpa using hf), List.lookup_cons, List.lookup_cons, ih]
    have hne : (path' == path) = false := beq_false_of_ne hpath
    rw [if_neg hpath, List.lookup_cons, hne, hfilter, file]

/-- A host's certificate and its key, as they were issued together. -/
structure Host.InPlace (h : Host Text) (pool host : String) (cert : Cert) : Prop where
  crt : h.file (Reconciler.certPath pool host) = some cert.certPem
  key : h.file (Reconciler.keyPath pool host) = some cert.keyPem

/-- No file is gone, and those that changed are the host's. -/
structure Host.Rewritten (pool host : String) (h h' : Host Text) : Prop where
  others : ∀ path, path ≠ Reconciler.certPath pool host → path ≠ Reconciler.keyPath pool host →
    h'.file path = h.file path
  kept : ∀ path, (h.file path).isSome → (h'.file path).isSome

variable {pool host : String} {h h' h'' : Host Text}

theorem Host.Rewritten.of_same (hsame : ∀ path, h'.file path = h.file path) :
    Host.Rewritten pool host h h' :=
  ⟨fun path _ _ => hsame path, fun path hpath => by rw [hsame path]; exact hpath⟩

theorem Host.Rewritten.trans (hfirst : Host.Rewritten pool host h h')
    (hsecond : Host.Rewritten pool host h' h'') : Host.Rewritten pool host h h'' :=
  ⟨fun path hcrt hkey => (hsecond.others path hcrt hkey).trans (hfirst.others path hcrt hkey),
    fun path hpath => hsecond.kept path (hfirst.kept path hpath)⟩

theorem Host.Rewritten.write {path : Path}
    (hpath : path = Reconciler.certPath pool host ∨ path = Reconciler.keyPath pool host)
    (content : String) : Host.Rewritten pool host h (h.writeRootfsFile path content) := by
  constructor
  · intro path' hcrt hkey
    rw [Host.file_writeRootfsFile, if_neg]
    rintro rfl
    rcases hpath with heq | heq
    · exact hcrt heq
    · exact hkey heq
  · intro path' hpath'
    rw [Host.file_writeRootfsFile]
    split
    · rfl
    · exact hpath'

end Files

/-! ## One turn -/

section Turn

variable {Text : Type}

/-- The host a call asks a certificate for. -/
def Op.requested : {ρ : Type} → Op Text ρ → Option String
  | _, .requestCertificate host _ => some host
  | _, _ => none

/-- A call that asks for no certificate and leaves the files below every
rootfs alone. -/
def Op.Plain : {ρ : Type} → Op Text ρ → Prop
  | _, .requestCertificate _ _ => False
  | _, .writeRootfsFile _ _ => False
  | _, .cloneFromBase _ _ => False
  | _, .destroyDataset _ => False
  | _, _ => True

/-- A call that puts a certificate in a host's files. -/
def Op.Issues (pool host : String) : {ρ : Type} → Op Text ρ → Prop
  | _, .requestCertificate host' _ =>
    Reconciler.certPath pool host' = Reconciler.certPath pool host
  | _, .createRootfsDir path => path = Reconciler.certsDir pool
  | _, .writeRootfsFile path _ =>
    path = Reconciler.certPath pool host ∨ path = Reconciler.keyPath pool host
  | _, _ => False

theorem Op.Issues.congr {pool host host' : String}
    (hpath : Reconciler.certPath pool host = Reconciler.certPath pool host') {ρ : Type}
    {c : Op Text ρ} (hc : c.Issues pool host) : c.Issues pool host' := by
  have hkey : Reconciler.keyPath pool host = Reconciler.keyPath pool host' :=
    Reconciler.keyPath_eq_iff.2 hpath
  cases c with
  | requestCertificate other email => exact Eq.trans hc hpath
  | createRootfsDir path => exact hc
  | writeRootfsFile path content => exact hc.imp (·.trans hpath) (·.trans hkey)
  | _ => exact hc.elim

theorem Op.Plain.requested {ρ : Type} {c : Op Text ρ} (hc : c.Plain) : c.requested = none := by
  cases c <;> first | rfl | exact hc.elim

theorem Op.Plain.file [Ipnet] {ρ : Type} {c : Op Text ρ} (hc : c.Plain) (x : Outcome Text)
    (h : Host Text) (path : Path) : (Host.call x c h).2.file path = h.file path := by
  rcases Host.call_snd x c h with heq | heq
  · rw [heq]
  rw [heq]
  cases c with
  | startCommand jail command =>
    obtain ⟨jails, hjails⟩ := h.withJail_eq jail
      fun jail => { jail with running := true, command := some command }
    rw [Op.effect, hjails]
    rfl
  | setResourceLimits jail pcpuPercent memoryBytes =>
    obtain ⟨jails, hjails⟩ := h.withJail_eq jail fun jail =>
      { jail with pcpuPercent := some pcpuPercent, memoryBytes := some memoryBytes }
    rw [Op.effect, hjails]
    rfl
  | removeResourceLimits jail =>
    obtain ⟨jails, hjails⟩ := h.withJail_eq jail fun jail =>
      { jail with pcpuPercent := none, memoryBytes := none }
    rw [Op.effect, hjails]
    rfl
  | destroy jail =>
    obtain ⟨jails, hjails⟩ := h.destroy_eq jail
    rw [Op.effect, hjails]
    rfl
  | attachJail jail bridge epair address =>
    obtain ⟨net, hnet⟩ := h.attachJail_eq jail bridge epair address
    rw [Op.effect, hnet]
    rfl
  | unmount target =>
    obtain ⟨mounts, hmounts⟩ := h.unmount_eq target
    rw [Op.effect, hmounts]
    rfl
  | writeFile d file content =>
    obtain ⟨stateDir, ingressDir, hdir, -⟩ :=
      h.setDir_eq d ((h.dir d).insert file (x.written content))
    rw [Op.effect, hdir]
    rfl
  | renameFile d old new =>
    obtain ⟨stateDir, ingressDir, hdir, -⟩ := h.renameFile_eq d old new
    rw [Op.effect, hdir]
    rfl
  | removeFile d file =>
    obtain ⟨stateDir, ingressDir, hdir, -⟩ := h.removeFile_eq d file
    rw [Op.effect, hdir]
    rfl
  | _ => first | rfl | exact hc.elim

theorem Op.OfFile.plain {dir : Dir} {file : String} {ρ : Type} {c : Op Text ρ}
    (h : c.OfFile dir file) : c.Plain := by
  cases c <;> first | exact trivial | exact h.elim

variable [Ipnet] {allows : {ρ : Type} → Outcome Text → Op Text ρ → Reconciler → Host Text → Prop}
variable {P : {ρ : Type} → Op Text ρ → Prop} {r : Reconciler} {t : Trace (Op Text) (Host Text)}
variable {before : List (Σ ρ : Type, Op Text ρ)}

/-- A method of plain calls leaves every file alone. -/
theorem wp_of_plain {α : Type} {m : Method Text α} {K : Except ReconcileError α → Reconciler → Prop}
    (hm : m.Makes Op.Plain (fun _ _ => True) True K r)
    (hP : ∀ {ρ : Type} (c : Op Text ρ), c.requested = none → P c) (ht : t.Since before P) :
    m.wp (Host.under allows) (fun result r' t' => K result r' ∧
      (∀ path, t'.world.file path = t.world.file path) ∧ t'.Since before P)
      (fun _ _ => True) r t := by
  refine Proc.wp_mono ?_ (fun _ _ _ => trivial) (Proc.wp_of_makes
    (I := fun w => ∀ path, w.file path = t.world.file path) ?_ hm (fun _ => rfl) t.since_self)
  · rintro result r' t' ⟨hK, hfiles, hcalls⟩
    exact ⟨hK, hfiles, ht.trans (hcalls.imp fun c hc => hP c hc.requested)⟩
  · intro ρ x c s w hc hw _
    exact ⟨trivial, fun path => (hc.file x w path).trans (hw path)⟩

/-- Some call an issuance for a host makes may fail. -/
def IssuanceFails (allows : {ρ : Type} → Outcome Text → Op Text ρ → Reconciler → Host Text → Prop)
    (pool host : String) : Prop :=
  ∃ (x : Outcome Text) (ρ : Type) (c : Op Text ρ) (r : Reconciler) (h : Host Text),
    c.Issues pool host ∧ allows x c r h ∧ x.fails ≠ none

omit [Ipnet] in
theorem IssuanceFails.of_allows {pool host : String} {x : Outcome Text} {ρ : Type} {c : Op Text ρ}
    {h : Host Text} (hx : allows x c r h) (hfails : x.fails ≠ none) (hc : c.Issues pool host) :
    IssuanceFails allows pool host :=
  ⟨x, ρ, c, r, h, hc, hx, hfails⟩

/-- A certificate a host may be issued. -/
def Offered (allows : {ρ : Type} → Outcome Text → Op Text ρ → Reconciler → Host Text → Prop)
    (host : String) (cert : Cert) : Prop :=
  ∃ (x : Outcome Text) (email : String) (r : Reconciler) (h : Host Text),
    allows x (.requestCertificate host email) r h ∧ x.fails = none ∧ x.cert = cert

/-- A write below a rootfs fails, with the file as it was or torn, or
works. -/
theorem wp_writeRootfsFile {f : IoError → ReconcileError} {path : Path} {content : String}
    {Q : Except ReconcileError Unit → Reconciler → Trace (Op Text) (Host Text) → Prop}
    {X : Stop → Trace (Op Text) (Host Text) → Prop} (hcrash : X .crashed t)
    (hfails : ∀ x e w, allows x (.writeRootfsFile path content) r t.world → x.fails ≠ none →
      (w = t.world ∨ ∃ torn, w = t.world.writeRootfsFile path torn) →
        Q (.error (f e)) r (t.push (.writeRootfsFile path content) w))
    (hok : Q (.ok ()) r
      (t.push (.writeRootfsFile path content) (t.world.writeRootfsFile path content))) :
    (Proc.tryCall f (.writeRootfsFile path content) : Method Text Unit).wp (Host.under allows)
      Q X r t := by
  rw [Proc.wp_tryCall]
  refine ⟨hcrash, fun x hx => ?_⟩
  have hcall : (Host.under allows).call x (.writeRootfsFile path content) t.world =
      Host.call x (.writeRootfsFile path content) t.world := rfl
  rw [Outside.after, hcall]
  cases hfail : x.fails with
  | none =>
    simp only [Host.call, hfail]
    exact hok
  | some m =>
    have hne : x.fails ≠ none := by
      rw [hfail]
      exact Option.some_ne_none m
    cases htorn : x.torn with
    | none =>
      simp only [Host.call, hfail, htorn]
      exact hfails x _ _ hx hne (Or.inl rfl)
    | some torn =>
      simp only [Host.call, hfail, htorn]
      exact hfails x _ _ hx hne (Or.inr ⟨torn, rfl⟩)

/-- The files of a certificate are written, or a call for it fails. -/
theorem wp_writeCert {pool host : String} {cert : Cert}
    (hP : ∀ {ρ : Type} (c : Op Text ρ), c.requested = none → P c) (ht : t.Since before P) :
    (Reconciler.writeCertToIngressJail pool host cert : Method Text Unit).wp (Host.under allows)
      (fun result r' t' => r' = r ∧ t'.Since before P ∧
        Host.Rewritten pool host t.world t'.world ∧
        ((result = .ok () ∧ t'.world.InPlace pool host cert) ∨ IssuanceFails allows pool host))
      (fun _ _ => True) r t := by
  have htorn : ∀ {path : Path} {w w' : Host Text},
      path = Reconciler.certPath pool host ∨ path = Reconciler.keyPath pool host →
      (w' = w ∨ ∃ torn, w' = w.writeRootfsFile path torn) → Host.Rewritten pool host w w' := by
    rintro path w w' hpath (rfl | ⟨torn, rfl⟩)
    · exact .of_same fun _ => rfl
    · exact .write hpath torn
  rw [Reconciler.writeCertToIngressJail]
  simp only [Proc.bind_eq]
  rw [Proc.wp_bind]
  refine wp_tryCall (fun _ => rfl) trivial ?_ ?_ fun e he => by cases he
  · intro x m hx hm
    refine ⟨rfl, ht.push (hP _ rfl), .of_same fun _ => rfl, Or.inr (.of_allows hx ?_ rfl)⟩
    rw [hm]
    exact Option.some_ne_none m
  · rintro _ -
    dsimp only
    rw [Proc.wp_bind]
    refine wp_writeRootfsFile trivial ?_ ?_
    · intro x e w hx hfails hw
      refine ⟨rfl, (ht.push (hP _ rfl)).push (hP _ rfl), htorn (Or.inl rfl) hw, Or.inr ?_⟩
      exact .of_allows hx hfails (Or.inl rfl)
    · dsimp only
      have hcrt : Host.Rewritten pool host t.world
          (t.world.writeRootfsFile (Reconciler.certPath pool host) cert.certPem) :=
        .write (Or.inl rfl) _
      refine wp_writeRootfsFile trivial ?_ ?_
      · intro x e w hx hfails hw
        refine ⟨rfl, ((ht.push (hP _ rfl)).push (hP _ rfl)).push (hP _ rfl),
          hcrt.trans (htorn (Or.inr rfl) hw), Or.inr ?_⟩
        exact .of_allows hx hfails (Or.inr rfl)
      · refine ⟨rfl, ((ht.push (hP _ rfl)).push (hP _ rfl)).push (hP _ rfl),
          hcrt.trans (.write (Or.inr rfl) _), Or.inl ⟨rfl, ?_, ?_⟩⟩
        · rw [Trace.push_world, Host.file_writeRootfsFile,
            if_neg (Reconciler.certPath_ne_keyPath pool host host), Trace.push_world,
            Host.file_writeRootfsFile, if_pos rfl]
        · rw [Trace.push_world, Host.file_writeRootfsFile, if_pos rfl]

/-- The turn of one ingress changes its own entries, and no spec. -/
structure Reconciler.SameIngressesBut (name : String) (r r' : Reconciler) : Prop where
  pool : r'.pool = r.pool
  specs : ∀ other, (r'.ingressRecords.lookup other).map IngressRecord.spec =
    (r.ingressRecords.lookup other).map IngressRecord.spec
  records : ∀ other, other ≠ name →
    r'.ingressRecords.lookup other = r.ingressRecords.lookup other
  backoff : ∀ other, other ≠ name →
    r'.ingressBackoff.lookup other = r.ingressBackoff.lookup other

omit [Ipnet] in
theorem Reconciler.SameIngressesBut.refl (name : String) (r : Reconciler) :
    r.SameIngressesBut name r :=
  ⟨rfl, fun _ => rfl, fun _ _ => rfl, fun _ _ => rfl⟩

omit [Ipnet] in
theorem Reconciler.SameIngressesBut.trans {name : String} {r r' r'' : Reconciler}
    (h : r.SameIngressesBut name r') (h' : r'.SameIngressesBut name r'') :
    r.SameIngressesBut name r'' :=
  ⟨h'.pool.trans h.pool, fun other => (h'.specs other).trans (h.specs other),
    fun other hne => (h'.records other hne).trans (h.records other hne),
    fun other hne => (h'.backoff other hne).trans (h.backoff other hne)⟩

omit [Ipnet] in
theorem Reconciler.SameIngressesBut.setBackoff (name : String) (r : Reconciler)
    (b : BackoffState) :
    r.SameIngressesBut name { r with ingressBackoff := r.ingressBackoff.insert name b } :=
  ⟨rfl, fun _ => rfl, fun _ _ => rfl, fun _ hne => AList.lookup_insert_ne hne⟩

omit [Ipnet] in
theorem Reconciler.SameIngressesBut.setRecord {name : String} {r : Reconciler}
    {record updated : IngressRecord} (hlookup : r.ingressRecords.lookup name = some record)
    (hspec : updated.spec = record.spec) :
    r.SameIngressesBut name { r with ingressRecords := r.ingressRecords.insert name updated } := by
  refine ⟨rfl, fun other => ?_, fun other hne => AList.lookup_insert_ne hne, fun _ _ => rfl⟩
  rw [Table.lookup_insert_eq]
  split
  · rename_i heq
    rw [heq, hlookup, Option.map_some, Option.map_some, hspec]
  · rfl

theorem wp_recordIngressAttempt {name : String}
    (hP : ∀ {ρ : Type} (c : Op Text ρ), c.requested = none → P c) (ht : t.Since before P) :
    (Reconciler.recordIngressAttempt name : Method Text Unit).wp (Host.under allows)
      (fun _ r' t' => r.SameIngressesBut name r' ∧
        (∀ path, t'.world.file path = t.world.file path) ∧ t'.Since before P)
      (fun _ _ => True) r t := by
  refine wp_of_plain (K := fun _ r' => r.SameIngressesBut name r') ?_ hP ht
  rw [Reconciler.recordIngressAttempt]
  simp only [Proc.bind_eq]
  rw [Proc.makes_bind, Proc.makes_get]
  dsimp only
  rw [Proc.makes_bind]
  cases r.ingressBackoff.lookup name with
  | none => trivial
  | some b =>
    refine Proc.makes_bind.2 ⟨trivial, fun now _ => ?_⟩
    exact Reconciler.SameIngressesBut.setBackoff name r _

omit [Ipnet] in
/-- The cooldown of an ingress is looked at, that of a new one if there is
none yet. -/
theorem wp_checkIngressCooldown {name : String} {now : ℕ}
    {out : Outside (Op Text) (Outcome Text) Reconciler (Host Text)}
    {Q : Except ReconcileError Bool → Reconciler → Trace (Op Text) (Host Text) → Prop}
    {X : Stop → Trace (Op Text) (Host Text) → Prop}
    (hQ : ∀ ingressBackoff, r.SameIngressesBut name { r with ingressBackoff } →
      Q (.ok (((r.ingressBackoff.lookup name).getD .new).canRetry now))
        { r with ingressBackoff } t) :
    (Reconciler.checkIngressCooldown name now : Method Text Bool).wp out Q X r t := by
  rw [Reconciler.checkIngressCooldown, Proc.wp]
  cases hlookup : r.ingressBackoff.lookup name with
  | some b =>
    have hsame := hQ r.ingressBackoff (.refl name r)
    rw [hlookup] at hsame
    exact hsame
  | none =>
    have hnew := hQ (r.ingressBackoff.insert name .new) (.setBackoff name r .new)
    rw [hlookup] at hnew
    exact hnew

/-- The certificate of an ingress is missing or runs out. -/
def IngressRecord.due (record : IngressRecord) (pool : String) (h : Host Text) (nowUnix : ℤ) :
    Checked Bool :=
  Reconciler.needsIssuance record
    (!(h.file (Reconciler.certPath pool record.spec.spec.host)).isSome) nowUnix

omit [Ipnet] in
/-- Only the certificate's file decides whether one is due. -/
theorem IngressRecord.due_congr {record : IngressRecord} {pool : String} {h h' : Host Text}
    {nowUnix : ℤ} (hfile : h'.file (Reconciler.certPath pool record.spec.spec.host) =
      h.file (Reconciler.certPath pool record.spec.spec.host)) :
    record.due pool h' nowUnix = record.due pool h nowUnix := by
  rw [due, due, hfile]

/-- What trying to issue a certificate for an ingress leaves. -/
structure Attempted
    (allows : {ρ : Type} → Outcome Text → Op Text ρ → Reconciler → Host Text → Prop)
    (name : String) (record : IngressRecord) (r : Reconciler) (h : Host Text) (r' : Reconciler)
    (h' : Host Text) : Prop where
  kept : r.SameIngressesBut name r'
  files : Host.Rewritten r.pool record.spec.spec.host h h'
  result : (∃ cert, Offered allows record.spec.spec.host cert ∧
    h'.InPlace r.pool record.spec.spec.host cert) ∨
      IssuanceFails allows r.pool record.spec.spec.host

omit [Ipnet] in
theorem Attempted.of_same {name : String} {record : IngressRecord} {h h' h'' : Host Text}
    {r' r'' : Reconciler} (ha : Attempted allows name record r h r' h')
    (hkept : r'.SameIngressesBut name r'') (hsame : ∀ path, h''.file path = h'.file path) :
    Attempted allows name record r h r'' h'' := by
  refine ⟨ha.kept.trans hkept, ha.files.trans (.of_same hsame), ha.result.imp_left ?_⟩
  rintro ⟨cert, hcert, hcrt, hkey⟩
  exact ⟨cert, hcert, (hsame _).trans hcrt, (hsame _).trans hkey⟩

/-- **A turn** of an ingress: it is in cooldown, or its certificate is
good for now, or one is asked for. -/
inductive Turned
    (allows : {ρ : Type} → Outcome Text → Op Text ρ → Reconciler → Host Text → Prop)
    (nowUnix : ℤ) (name : String) (record : IngressRecord) (r : Reconciler) (h : Host Text)
    (r' : Reconciler) (h' : Host Text) : Prop
  | cooling (x : Outcome Text) (hx : allows x .instantNow r h)
      (hcool : ((r.ingressBackoff.lookup name).getD .new).canRetry x.instant = false)
      (hkept : r.SameIngressesBut name r') (hsame : ∀ path, h'.file path = h.file path)
  | valid (hdue : record.due r.pool h nowUnix = .ok false) (hkept : r.SameIngressesBut name r')
      (hsame : ∀ path, h'.file path = h.file path)
  | attempted (hdue : record.due r.pool h nowUnix = .ok true)
      (ha : Attempted allows name record r h r' h')

variable [SerdeYaml Text IngressRecord] {name : String} {record : IngressRecord} {nowUnix : ℤ}

theorem wp_issue (hlookup : r.ingressRecords.lookup name = some record)
    (hP : ∀ {ρ : Type} (c : Op Text ρ),
      (∀ host, c.requested = some host → host = record.spec.spec.host) → P c)
    (ht : t.Since before P) :
    (Reconciler.issue name record r.pool nowUnix : Method Text Unit).wp (Host.under allows)
      (fun _ r' t' => Attempted allows name record r t.world r' t'.world ∧ t'.Since before P)
      (fun _ _ => True) r t := by
  have hnone : ∀ {ρ : Type} (c : Op Text ρ), c.requested = none → P c := by
    intro ρ c hc
    refine hP c fun host hhost => ?_
    rw [hc] at hhost
    cases hhost
  -- a failure is noted, and leaves the files as they are by then
  have hattempt : ∀ {r' : Reconciler} {t' : Trace (Op Text) (Host Text)}, t'.Since before P →
      Attempted allows name record r t.world r' t'.world →
      (Reconciler.recordIngressAttempt name : Method Text Unit).wp (Host.under allows)
        (fun _ r'' t'' => Attempted allows name record r t.world r'' t''.world ∧
          t''.Since before P) (fun _ _ => True) r' t' := by
    intro r' t' ht' ha
    refine Proc.wp_mono ?_ (fun _ _ _ => trivial) (wp_recordIngressAttempt hnone ht')
    rintro _ r'' t'' ⟨hr, hsame, ht''⟩
    exact ⟨ha.of_same hr hsame, ht''⟩
  rw [Reconciler.issue]
  simp only [Proc.bind_eq]
  rw [Proc.wp_ask_bind]
  refine ⟨trivial, fun x hx => ?_⟩
  have hcall : (Host.under allows).call x
      (.requestCertificate record.spec.spec.host record.spec.spec.tls.email) t.world =
        x.unlessFails t.world id (.ok x.cert, t.world) := rfl
  have ht₁ : (t.push (.requestCertificate record.spec.spec.host record.spec.spec.tls.email)
      t.world).Since before P := by
    refine ht.push (hP _ fun host hhost => ?_)
    cases hhost
    rfl
  rw [Outside.after, hcall, Outcome.unlessFails]
  cases hfail : x.fails with
  | some m =>
    refine hattempt ht₁ ⟨.refl name r, .of_same fun _ => rfl, Or.inr (.of_allows hx ?_ rfl)⟩
    rw [hfail]
    exact Option.some_ne_none m
  | none =>
    dsimp only
    rw [Proc.wp_bind, Proc.wp_attempt]
    refine Proc.wp_mono ?_ (fun _ _ h => h) (wp_writeCert hnone ht₁)
    rintro result r₂ t₂ ⟨rfl, ht₂, hfiles, hplace⟩
    have ha : Attempted allows name record r₂ t.world r₂ t₂.world :=
      ⟨.refl name r₂, hfiles,
        hplace.imp_left fun h => ⟨x.cert, ⟨x, _, r₂, t.world, hx, hfail, rfl⟩, h.2⟩⟩
    cases result with
    | error e => exact hattempt ht₂ ha
    | ok u =>
      dsimp only
      rw [Proc.wp_bind]
      cases Checked.signed 64 (nowUnix + 90 * 24 * 60 * 60) with
      | error p => trivial
      | ok expires =>
        have hsave : (ingressStore.save { record with certExpiresAtUnix := some expires } :
            Method Text Unit).Makes Op.Plain (fun _ _ => True) True (fun _ r' => r' = r₂) r₂ :=
          (Reconciler.keeps_saveYaml (K := fun r' => r' = r₂)).imp (fun _ => Op.OfFile.plain)
            (fun _ _ _ h => h) r₂ rfl
        dsimp only [Proc.ofChecked]
        rw [Proc.wp_ret]
        dsimp only
        rw [Proc.wp_bind, Proc.wp_attempt]
        refine Proc.wp_mono ?_ (fun _ _ h => h) (wp_of_plain hsave hnone ht₂)
        rintro saved _ t₃ ⟨rfl, hsame, ht₃⟩
        have ha' := ha.of_same (.refl name _) hsame
        cases saved with
        | error e => exact hattempt ht₃ ha'
        | ok u => exact ⟨ha'.of_same (.setRecord hlookup rfl) fun _ => rfl, ht₃⟩

/-- Where nothing is due, no certificate is asked for. -/
theorem wp_reconcileCert (hlookup : r.ingressRecords.lookup name = some record)
    (hP : ∀ {ρ : Type} (c : Op Text ρ), (∀ host, c.requested = some host →
      host = record.spec.spec.host ∧ record.due r.pool t.world nowUnix = .ok true) → P c)
    (ht : t.Since before P) :
    (Reconciler.reconcileCert nowUnix name : Method Text Unit).wp (Host.under allows)
      (fun _ r' t' => Turned allows nowUnix name record r t.world r' t'.world ∧
        t'.Since before P) (fun _ _ => True) r t := by
  have hnone : ∀ {ρ : Type} (c : Op Text ρ), c.requested = none → P c := by
    intro ρ c hc
    refine hP c fun host hhost => ?_
    rw [hc] at hhost
    cases hhost
  rw [Reconciler.reconcileCert]
  simp only [Proc.bind_eq]
  rw [Proc.wp_ask_bind]
  refine ⟨trivial, fun x hx => ?_⟩
  have hcall : (Host.under allows).call x .instantNow t.world = (x.instant, t.world) := rfl
  rw [Outside.after, hcall]
  have ht₁ : (t.push (.instantNow : Op Text ℕ) t.world).Since before P := ht.push (hnone _ rfl)
  rw [Proc.wp_bind]
  refine wp_checkIngressCooldown fun ingressBackoff hkept => ?_
  dsimp only
  cases hretry : ((r.ingressBackoff.lookup name).getD .new).canRetry x.instant with
  | false => exact ⟨.cooling x hx hretry hkept fun _ => rfl, ht₁⟩
  | true =>
    rw [if_pos rfl, Proc.wp_get_bind, hlookup]
    dsimp only [Checked.expect, Proc.ofChecked]
    rw [Proc.ret_bind, Proc.wp_ask_bind]
    refine ⟨trivial, fun y _ => ?_⟩
    have hisFile : (Host.under allows).call y
        (.isFile (Reconciler.certPath r.pool record.spec.spec.host)) t.world =
          ((t.world.file (Reconciler.certPath r.pool record.spec.spec.host)).isSome, t.world) := rfl
    have ht₂ := ht₁.push (c := (.isFile (Reconciler.certPath r.pool record.spec.spec.host) :
      Op Text Bool)) (w := t.world) (hnone _ rfl)
    rw [Trace.push_world, Outside.after, Trace.push_world, hisFile, Proc.wp_bind]
    have hdue : Reconciler.needsIssuance record
        (!(t.world.file (Reconciler.certPath r.pool record.spec.spec.host)).isSome) nowUnix =
          record.due r.pool t.world nowUnix := rfl
    dsimp only
    rw [hdue]
    cases hissue : record.due r.pool t.world nowUnix with
    | error p => trivial
    | ok due =>
      cases due with
      | false => exact ⟨.valid hissue hkept fun _ => rfl, ht₂⟩
      | true =>
        dsimp only
        rw [Proc.wp_ret]
        dsimp only
        rw [if_pos rfl]
        refine Proc.wp_mono ?_ (fun _ _ _ => trivial) (wp_issue
          (r := { r with ingressBackoff }) hlookup (fun c hc => hP c fun host hhost => ?_) ht₂)
        · rintro _ r' t' ⟨ha, ht'⟩
          exact ⟨.attempted hissue ⟨hkept.trans ha.kept, ha.files, ha.result⟩, ht'⟩
        · exact ⟨hc host hhost, hissue⟩

omit [Ipnet] [SerdeYaml Text IngressRecord] in
/-- What a turn leaves in memory. -/
theorem Turned.kept {h h' : Host Text} {r' : Reconciler}
    (hturn : Turned allows nowUnix name record r h r' h') : r.SameIngressesBut name r' := by
  cases hturn with
  | cooling x hx hcool hkept hsame => exact hkept
  | valid hdue hkept hsame => exact hkept
  | attempted hdue ha => exact ha.kept

omit [Ipnet] [SerdeYaml Text IngressRecord] in
/-- What a turn writes are the files of the ingress's host. -/
theorem Turned.files {h h' : Host Text} {r' : Reconciler}
    (hturn : Turned allows nowUnix name record r h r' h') :
    Host.Rewritten r.pool record.spec.spec.host h h' := by
  cases hturn with
  | cooling x hx hcool hkept hsame => exact .of_same hsame
  | valid hdue hkept hsame => exact .of_same hsame
  | attempted hdue ha => exact ha.files

/-- In the middle of a pass: the entries of those whose turn is to come
are as they were. -/
structure Reconciler.Midway (names : List String) (r r' : Reconciler) : Prop where
  pool : r'.pool = r.pool
  specs : ∀ name, (r'.ingressRecords.lookup name).map IngressRecord.spec =
    (r.ingressRecords.lookup name).map IngressRecord.spec
  records : ∀ name ∈ names, r'.ingressRecords.lookup name = r.ingressRecords.lookup name
  backoff : ∀ name ∈ names, r'.ingressBackoff.lookup name = r.ingressBackoff.lookup name

omit [Ipnet] [SerdeYaml Text IngressRecord] in
theorem Reconciler.Midway.turn {names : List String} {r' r'' : Reconciler}
    (h : r.Midway (name :: names) r') (hname : name ∉ names)
    (hkept : r'.SameIngressesBut name r'') : r.Midway names r'' := by
  have hne : ∀ other ∈ names, other ≠ name := by
    rintro other hother rfl
    exact hname hother
  refine ⟨hkept.pool.trans h.pool, fun other => (hkept.specs other).trans (h.specs other), ?_, ?_⟩
  · intro other hother
    exact (hkept.records other (hne other hother)).trans
      (h.records other (List.mem_cons_of_mem _ hother))
  · intro other hother
    exact (hkept.backoff other (hne other hother)).trans
      (h.backoff other (List.mem_cons_of_mem _ hother))

/-- **The rule for the certificates of a pass.** What every turn keeps
holds after the last one. -/
theorem wp_reconcileCerts {p : Pass} (I : List String → Host Text → Prop)
    (hrequest : ∀ name names record h, r.ingressRecords.lookup name = some record →
      I (name :: names) h → ∀ {ρ : Type} (c : Op Text ρ), (∀ host, c.requested = some host →
        host = record.spec.spec.host ∧ record.due r.pool h p.nowUnix = .ok true) → P c)
    (hturn : ∀ name names record r₁ h r₂ h', r.ingressRecords.lookup name = some record →
      r.Midway (name :: names) r₁ → I (name :: names) h →
      Turned allows p.nowUnix name record r₁ h r₂ h' → I names h')
    (hstart : I (p.ingressOrder.apply r.ingressRecords.keys) t.world) (ht : t.Since before P) :
    (Reconciler.reconcileCerts p : Method Text Unit).wp (Host.under allows)
      (fun result r' t' => result = .ok () ∧ r.Midway [] r' ∧ I [] t'.world ∧ t'.Since before P)
      (fun _ _ => True) r t := by
  rw [Reconciler.reconcileCerts, Proc.bind_eq, Proc.wp_get_bind]
  refine Proc.wp_mono ?_ (fun _ _ _ => trivial) (Proc.wp_forEach (E := fun _ _ _ => False)
    (X := fun _ _ => True) (fun names r' t' => names.Nodup ∧
      (∀ name ∈ names, name ∈ r.ingressRecords.keys) ∧ r.Midway names r' ∧ I names t'.world ∧
        t'.Since before P) ?_ (p.ingressOrder.apply r.ingressRecords.keys)
    ⟨p.ingressOrder.nodup_apply r.ingressRecords.keys_nodup,
      fun name hname => p.ingressOrder.mem_apply.1 hname,
      ⟨rfl, fun _ => rfl, fun _ _ => rfl, fun _ _ => rfl⟩, hstart, ht⟩)
  · intro result r' t' hdone
    cases result with
    | error e => exact hdone.elim
    | ok u => exact ⟨rfl, hdone.2.2.1, hdone.2.2.2⟩
  · rintro name names r' t' ⟨hnodup, hkeys, hmid, hI, ht'⟩
    obtain ⟨record, hrecord⟩ := Table.exists_of_mem
      (AList.mem_keys.2 (hkeys name List.mem_cons_self))
    have hrecord' : r'.ingressRecords.lookup name = some record :=
      (hmid.records name List.mem_cons_self).trans hrecord
    have hpool := hmid.pool
    obtain ⟨hname, hnames⟩ := List.nodup_cons.1 hnodup
    refine Proc.wp_mono ?_ (fun _ _ _ => trivial) (Proc.wp_of_neverFails
      Reconciler.neverFails_reconcileCert (wp_reconcileCert hrecord' (P := P) ?_ ht'))
    · rintro _ r'' t'' ⟨u, rfl, hturned, ht''⟩
      exact ⟨hnames, fun other hother => hkeys other (List.mem_cons_of_mem _ hother),
        hmid.turn hname hturned.kept,
        hturn name names record r' _ r'' _ hrecord hmid hI hturned, ht''⟩
    · rw [hpool]
      exact fun c hc => hrequest name names record t'.world hrecord hI c hc

end Turn

end Node

end Keel
