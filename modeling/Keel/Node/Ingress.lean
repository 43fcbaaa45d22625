import Keel.Node.Helpers.Certs
/-!
# One ingress and the others

The config of the ingress jail has a server block for every ingress whose
service has a VIP, and `nginx -t` refuses it when a block names a file
that is not there. Whether a block's certificate was ever issued is not
looked at, so that one ingress whose issuance fails keeps the config of
all of them from being reloaded.
-/

namespace Keel

namespace Node

open Agent (JailRecord)

variable {Text : Type}

namespace Reconciler

/-- The server block of an ingress whose service is known. -/
def serverBlock (record : IngressRecord) : String × ℕ → IngressBackendConfig
  | (vip, port) =>
    { host := record.spec.spec.host, vip, port
      certPath := "/usr/local/etc/nginx/certs/" ++ record.spec.spec.host ++ ".crt"
      keyPath := "/usr/local/etc/nginx/certs/" ++ record.spec.spec.host ++ ".key" }

/-- A turn of the rendering. -/
theorem ingressBackends_cons (name : String) (record : IngressRecord)
    (rest : List (String × IngressRecord)) :
    (ingressBackends ((name, record) :: rest) : Method Text _) =
      (Proc.ask (.serviceVip record.spec.spec.backend.service)).bind fun vip =>
        (ingressBackends rest).bind fun backends =>
          Proc.ret ((vip.map (serverBlock record)).toList ++ backends) := by
  rw [ingressBackends]
  simp only [Proc.bind_eq]
  congr 1
  funext vip
  cases vip with
  | none => rfl
  | some entry => rfl

/-- What `reconcileIngressConfig` renders. -/
def serverBlocks (p : Pass) : Method Text (List IngressBackendConfig) := do
  let r ← Proc.get
  ingressBackends (r.ingressRecords.iter p.ingressOrder)

/-- What it does with them. -/
def publish (backends : List IngressBackendConfig) : Method Text Unit := do
  if let .ok () ← Proc.ask (.writeConfig "keel-ingress" (renderNginxConfig backends)) then
    if let .ok () ← Proc.ask (.testConfig "keel-ingress") then
      let _ ← Proc.ask (.reload "keel-ingress")

theorem reconcileIngressConfig_eq (p : Pass) :
    (reconcileIngressConfig p : Method Text Unit) = (serverBlocks p).bind publish := rfl

variable [Ipnet] [SerdeYaml Text JailRecord] [SerdeYaml Text IngressRecord]

/-- A pass, as far as the server blocks. -/
def rendered (p : Pass) : Method Text (List IngressBackendConfig) := do
  let _ ← (ensureIngressJail.attempt : Method Text (Except ReconcileError Unit))
  reconcileCerts p
  serverBlocks p

theorem reconcileIngresses_eq (p : Pass) :
    (reconcileIngresses p : Method Text Unit) = (rendered p).bind publish := by
  rw [rendered, reconcileIngresses, reconcileIngressConfig_eq]
  simp only [Proc.bind_eq, Proc.bind_assoc]

end Reconciler

/-! ## Blocks and their files -/

/-- The files a server block names are in the ingress jail. -/
def Reconciler.IngressBackendConfig.Found (b : Reconciler.IngressBackendConfig) (pool : String)
    (h : Host Text) : Prop :=
  ∀ path ∈ [b.certPath, b.keyPath],
    (h.file (mountTarget (jailRootfsPath pool "ingress") path)).isSome

instance (b : Reconciler.IngressBackendConfig) (pool : String) (h : Host Text) :
    Decidable (b.Found pool h) :=
  inferInstanceAs (Decidable (∀ path ∈ [b.certPath, b.keyPath],
    (h.file (mountTarget (jailRootfsPath pool "ingress") path)).isSome))

/-- Both files of a host are there. -/
def Host.HasFiles (h : Host Text) (pool host : String) : Prop :=
  (h.file (Reconciler.certPath pool host)).isSome ∧ (h.file (Reconciler.keyPath pool host)).isSome

theorem Host.HasFiles.congr {h : Host Text} {pool host host' : String}
    (hpath : Reconciler.certPath pool host = Reconciler.certPath pool host')
    (hfiles : h.HasFiles pool host) : h.HasFiles pool host' := by
  rw [HasFiles, ← hpath, ← Reconciler.keyPath_eq_iff.2 hpath]
  exact hfiles

theorem Host.InPlace.hasFiles {h : Host Text} {pool host : String} {cert : Cert}
    (hplace : h.InPlace pool host cert) : h.HasFiles pool host := by
  rw [HasFiles, hplace.crt, hplace.key]
  exact ⟨rfl, rfl⟩

theorem Host.HasFiles.kept {h h' : Host Text} {pool host : String} (hfiles : h.HasFiles pool host)
    (hkept : ∀ path, (h.file path).isSome → (h'.file path).isSome) : h'.HasFiles pool host :=
  ⟨hkept _ hfiles.1, hkept _ hfiles.2⟩

/-- Inside the jail a host's files are named by their absolute paths. -/
theorem mountTarget_certs (pool file : String) :
    mountTarget (jailRootfsPath pool "ingress") ("/usr/local/etc/nginx/certs/" ++ file) =
      Reconciler.certsDir pool ++ components file.toList := by
  have hpath : ("/usr/local/etc/nginx/certs/" ++ file).toList.dropWhile (· = '/') =
      "usr/local/etc/nginx/certs".toList ++ '/' :: file.toList := by
    rw [String.toList_append]
    rfl
  rw [mountTarget, hpath, components_append, Reconciler.certsDir, List.append_assoc]

/-! ## A pass -/

section Pass

variable [Ipnet] {allows : {ρ : Type} → Outcome Text → Op Text ρ → Reconciler → Host Text → Prop}
variable {r : Reconciler} {t : Trace (Op Text) (Host Text)} {known : String → Prop}

/-- The blocks are those of ingresses whose service has a VIP. -/
theorem wp_ingressBackends (hvip : ∀ x service r h, allows x (.serviceVip service) r h →
      x.vip ≠ none → known service) (entries : List (String × IngressRecord)) :
    ∀ {t : Trace (Op Text) (Host Text)},
      (Reconciler.ingressBackends entries : Method Text _).wp (Host.under allows)
        (fun result r' t' => r' = r ∧ t'.world = t.world ∧ ∀ backends, result = .ok backends →
          ∀ b ∈ backends, ∃ entry ∈ entries, known entry.2.spec.spec.backend.service ∧
            b.certPath = "/usr/local/etc/nginx/certs/" ++ entry.2.spec.spec.host ++ ".crt" ∧
            b.keyPath = "/usr/local/etc/nginx/certs/" ++ entry.2.spec.spec.host ++ ".key")
        (fun _ _ => True) r t := by
  induction entries with
  | nil =>
    intro t
    refine ⟨rfl, rfl, fun backends hbackends b hb => ?_⟩
    cases hbackends
    cases hb
  | cons entry entries ih =>
    intro t
    obtain ⟨name, record⟩ := entry
    rw [Reconciler.ingressBackends_cons, Proc.wp_ask_bind]
    refine ⟨trivial, fun x hx => ?_⟩
    have hcall : (Host.under allows).call x (.serviceVip record.spec.spec.backend.service) t.world =
        (x.vip, t.world) := rfl
    rw [Outside.after, hcall, Proc.wp_bind]
    refine Proc.wp_mono ?_ (fun _ _ _ => trivial) ih
    rintro result r' t' ⟨rfl, ht', hblocks⟩
    cases result with
    | error e => exact ⟨rfl, ht', fun _ h => by cases h⟩
    | ok rest =>
      refine ⟨rfl, ht', fun backends hbackends b hb => ?_⟩
      cases hbackends
      rcases List.mem_append.1 hb with hb | hb
      · obtain ⟨entry, hentry, rfl⟩ := Option.map_eq_some_iff.1 (Option.mem_toList.1 hb)
        have hknown : x.vip ≠ none := by
          intro hnone
          cases hnone.symm.trans hentry
        exact ⟨(name, record), List.mem_cons_self, hvip x _ _ _ hx hknown, rfl, rfl⟩
      · obtain ⟨found, hfound, hb⟩ := hblocks rest rfl b hb
        exact ⟨found, List.mem_cons_of_mem _ hfound, hb⟩

/-- What the outside has to make of a call: VIPs only for services that
are known, an instant past the cooldowns of the ingresses that are due,
and no failure of a call that puts their certificates in place. -/
def Op.Forthcoming (r : Reconciler) (known due : String → Prop) (x : Outcome Text) :
    {ρ : Type} → Op Text ρ → Prop
  | _, .instantNow => ∀ name, due name →
    ((r.ingressBackoff.lookup name).getD .new).canRetry x.instant = true
  | _, .serviceVip service => x.vip ≠ none → known service
  | _, c => ∀ name record, due name → r.ingressRecords.lookup name = some record →
    c.Issues r.pool record.spec.spec.host → x.fails = none

omit [Ipnet] in
/-- No issuance for an ingress that is due fails. -/
theorem not_issuanceFails {due : String → Prop} {name : String} {record : IngressRecord}
    {host : String} (hname : due name) (hrecord : r.ingressRecords.lookup name = some record)
    (hpath : Reconciler.certPath r.pool host =
      Reconciler.certPath r.pool record.spec.spec.host) :
    ¬ IssuanceFails (fun (x : Outcome Text) c _ _ => c.Forthcoming r known due x) r.pool host := by
  rintro ⟨x, ρ, c, _, _, hc, hx, hfails⟩
  have hissues := hc.congr hpath
  cases c with
  | requestCertificate host email => exact hfails (hx name record hname hrecord hissues)
  | createRootfsDir path => exact hfails (hx name record hname hrecord hissues)
  | writeRootfsFile path content => exact hfails (hx name record hname hrecord hissues)
  | _ => exact hc.elim

variable [SerdeYaml Text IngressRecord] {due : String → Prop} {p : Pass}

/-- Where no issuance for those that are due is held up or fails, they
have their files after the certificates of the pass, and nobody's are
gone. -/
theorem wp_reconcileCerts_due (hdue : ∀ name, due name →
      ∃ record, r.ingressRecords.lookup name = some record ∧
        record.due r.pool t.world p.nowUnix = .ok true)
    (hcool : ∀ name, due name → ∀ x r' h, allows x .instantNow r' h →
      ((r.ingressBackoff.lookup name).getD .new).canRetry x.instant = true)
    (hworks : ∀ name record, due name → r.ingressRecords.lookup name = some record → ∀ host,
      Reconciler.certPath r.pool host = Reconciler.certPath r.pool record.spec.spec.host →
        ¬ IssuanceFails allows r.pool host) :
    (Reconciler.reconcileCerts p : Method Text Unit).wp (Host.under allows)
      (fun result r' t' => result = .ok () ∧ r.Midway [] r' ∧
        (∀ path, (t.world.file path).isSome → (t'.world.file path).isSome) ∧
        ∀ name record, due name → r.ingressRecords.lookup name = some record →
          t'.world.HasFiles r.pool record.spec.spec.host) (fun _ _ => True) r t := by
  refine Proc.wp_mono ?_ (fun _ _ _ => trivial) (wp_reconcileCerts (P := fun _ => True)
    (fun names h => (∀ path, (t.world.file path).isSome → (h.file path).isSome) ∧
      ∀ name record, due name → r.ingressRecords.lookup name = some record →
        h.HasFiles r.pool record.spec.spec.host ∨
          name ∈ names ∧ record.due r.pool h p.nowUnix = .ok true)
    (fun _ _ _ _ _ _ _ _ _ => trivial) ?_ ?_ t.since_self)
  · rintro result r' t' ⟨hresult, hmid, ⟨hkept, hplaced⟩, -⟩
    refine ⟨hresult, hmid, hkept, fun name record hname hrecord => ?_⟩
    exact (hplaced name record hname hrecord).resolve_right fun h => List.not_mem_nil h.1
  · rintro name names record r₁ h r₂ h' hrecord hmid ⟨hkept, hplaced⟩ hturn
    have hpool := hmid.pool
    have hfiles := hturn.files
    rw [hpool] at hfiles
    refine ⟨fun path hpath => hfiles.kept path (hkept path hpath),
      fun other record' hother hrecord' => ?_⟩
    rcases hplaced other record' hother hrecord' with hhas | ⟨hmem, hdue'⟩
    · exact Or.inl (hhas.kept hfiles.kept)
    cases hturn with
    | cooling x hx hcooling hkept' hsame =>
      rcases List.mem_cons.1 hmem with rfl | hmem
      · rw [hmid.backoff other List.mem_cons_self] at hcooling
        cases hcooling.symm.trans (hcool other hother x _ _ hx)
      · exact Or.inr ⟨hmem, (IngressRecord.due_congr (hsame _)).trans hdue'⟩
    | valid hvalid hkept' hsame =>
      rcases List.mem_cons.1 hmem with rfl | hmem
      · cases hrecord.symm.trans hrecord'
        rw [hpool] at hvalid
        cases hvalid.symm.trans hdue'
      · exact Or.inr ⟨hmem, (IngressRecord.due_congr (hsame _)).trans hdue'⟩
    | attempted hissue ha =>
      have hresult := ha.result
      rw [hpool] at hresult
      by_cases hpath : Reconciler.certPath r.pool record.spec.spec.host =
          Reconciler.certPath r.pool record'.spec.spec.host
      · obtain ⟨cert, -, hplace⟩ :=
          hresult.resolve_right (hworks other record' hother hrecord' _ hpath)
        exact Or.inl (hplace.hasFiles.congr hpath)
      · refine Or.inr ⟨?_, (IngressRecord.due_congr (hfiles.others _ (Ne.symm hpath)
          (Reconciler.certPath_ne_keyPath r.pool _ _))).trans hdue'⟩
        refine (List.mem_cons.1 hmem).resolve_left ?_
        rintro rfl
        cases hrecord.symm.trans hrecord'
        exact hpath rfl
  · refine ⟨fun _ => id, fun name record hname hrecord => Or.inr ⟨?_, ?_⟩⟩
    · exact p.ingressOrder.mem_apply.2 (Table.mem_keys_of_lookup hrecord)
    · obtain ⟨record', hrecord', hissue⟩ := hdue name hname
      cases hrecord.symm.trans hrecord'
      exact hissue

variable [SerdeYaml Text JailRecord]

/-- Where every ingress whose service is known has both files or shares
them with one that is due, every block rendered finds its files. -/
theorem wp_rendered (hdue : ∀ name, due name → ∃ record,
      r.ingressRecords.lookup name = some record ∧
        record.due r.pool t.world p.nowUnix = .ok true)
    (hlacking : ∀ name record, r.ingressRecords.lookup name = some record →
      known record.spec.spec.backend.service → t.world.HasFiles r.pool record.spec.spec.host ∨
        ∃ other record', due other ∧ r.ingressRecords.lookup other = some record' ∧
          Reconciler.certPath r.pool record'.spec.spec.host =
            Reconciler.certPath r.pool record.spec.spec.host) :
    (Reconciler.rendered p : Method Text _).wp
      (Host.under fun x c _ _ => c.Forthcoming r known due x)
      (fun result r' t' => ∀ backends, result = .ok backends →
        ∀ b ∈ backends, b.Found r'.pool t'.world) (fun _ _ => True) r t := by
  rw [Reconciler.rendered]
  simp only [Proc.bind_eq]
  -- the jail of the ingresses goes on record, which concerns no ingress
  have hensure : (Reconciler.ensureIngressJail : Method Text Unit).Keeps Op.Plain
      (fun _ _ => True) True (fun r' => r'.pool = r.pool ∧
        r'.ingressRecords = r.ingressRecords ∧ r'.ingressBackoff = r.ingressBackoff) :=
    Reconciler.keeps_ensureIngressJail (fun _ => Op.OfFile.plain) fun _ _ _ hr => hr
  rw [Proc.wp_bind, Proc.wp_attempt]
  refine Proc.wp_mono ?_ (fun _ _ _ => trivial)
    (wp_of_plain (P := fun _ => True) (hensure r ⟨rfl, rfl, rfl⟩) (fun _ _ => trivial) t.since_self)
  rintro _ r₁ t₁ ⟨⟨hpool, hrecords, hbackoff⟩, hsame, -⟩
  dsimp only
  have hdue₁ : ∀ name, due name → ∃ record, r₁.ingressRecords.lookup name = some record ∧
      record.due r₁.pool t₁.world p.nowUnix = .ok true := by
    intro name hname
    rw [hrecords, hpool]
    obtain ⟨record, hrecord, hissue⟩ := hdue name hname
    exact ⟨record, hrecord, (IngressRecord.due_congr (hsame _)).trans hissue⟩
  rw [Proc.wp_bind]
  refine Proc.wp_mono ?_ (fun _ _ _ => trivial) (wp_reconcileCerts_due hdue₁ ?_ ?_)
  · rintro _ r₂ t₂ ⟨rfl, hmid, hkept, hplaced⟩
    dsimp only
    rw [Reconciler.serverBlocks, Proc.bind_eq, Proc.wp_get_bind]
    refine Proc.wp_mono ?_ (fun _ _ _ => trivial) (wp_ingressBackends
      (fun x service _ _ (hx : x.vip ≠ none → known service) => hx)
      (r₂.ingressRecords.iter p.ingressOrder))
    rintro result r₃ t₃ ⟨rfl, ht₃, hblocks⟩ backends hbackends b hb
    obtain ⟨⟨name, record⟩, hentry, hknown, hcrt, hkey⟩ := hblocks backends hbackends b hb
    have hspec := hmid.specs name
    rw [Table.mem_iter.1 hentry, Option.map_some, hrecords] at hspec
    obtain ⟨record₀, hrecord₀, hspec⟩ := Option.map_eq_some_iff.1 hspec.symm
    have hhas : t₂.world.HasFiles r.pool record.spec.spec.host := by
      rw [← hspec] at hknown ⊢
      rcases hlacking name record₀ hrecord₀ hknown with
        hhas | ⟨other, record', hother, hrecord', hpath⟩
      · refine hhas.kept fun path hpath => hkept path ?_
        rw [hsame path]
        exact hpath
      · have hplace := hplaced other record' hother (by rw [hrecords]; exact hrecord')
        rw [hpool] at hplace
        exact hplace.congr hpath
    have htwo : ∀ path ∈ [b.certPath, b.keyPath], path = b.certPath ∨ path = b.keyPath := by
      simp
    intro path hpath
    rw [ht₃, hmid.pool, hpool]
    rcases htwo path hpath with rfl | rfl
    · rw [hcrt, String.append_assoc, mountTarget_certs]
      exact hhas.1
    · rw [hkey, String.append_assoc, mountTarget_certs]
      exact hhas.2
  · intro name hname x _ _ hx
    rw [hbackoff]
    exact hx name hname
  · intro name record hname hrecord host hpath
    rw [hrecords] at hrecord
    rw [hpool] at hpath ⊢
    exact not_issuanceFails hname hrecord hpath

end Pass

/-! ## Every pass of a life -/

section Life

variable [Ipnet] [SerdeYaml Text JailRecord] [SerdeYaml Text IngressRecord]

/-- From where the server blocks are rendered: the config is written,
`nginx -t` refuses it for a missing file and for nothing else, and a
reload is made. -/
def NginxTests (choices : ℕ → Option (Outcome Text)) (pool : String)
    (backends : List Reconciler.IngressBackendConfig) (t : Trace (Op Text) (Host Text)) : Prop :=
  ∃ written tested reloaded, choices t.calls.length = some written ∧ written.fails = none ∧
    choices (t.calls.length + 1) = some tested ∧
    (tested.fails = none ↔ ∀ b ∈ backends, b.Found pool t.world) ∧
    choices (t.calls.length + 2) = some reloaded

/-- One ingress blocks no other: the server blocks of a pass all find
their files, and its config is validated and reloaded. -/
def Isolated (choices : ℕ → Option (Outcome Text)) (p : Pass) (r : Reconciler)
    (t : Trace (Op Text) (Host Text)) : Prop :=
  ∀ backends r' t', (Reconciler.rendered p : Method Text _).run Host.outside choices r t =
      (.returned (.ok backends) r', t') →
    (∀ b ∈ backends, b.Found r'.pool t'.world) ∧
    (NginxTests choices r'.pool backends t' →
      ∃ t'', (Reconciler.reconcileIngresses p : Method Text Unit).run Host.outside choices r t =
          (.returned (.ok ()) r', t'') ∧
        t''.calls = t'.calls ++
          [⟨_, .writeConfig "keel-ingress" (Reconciler.renderNginxConfig backends)⟩,
            ⟨_, .testConfig "keel-ingress"⟩, ⟨_, .reload "keel-ingress"⟩])

/-- What a pass needs of the machine before it and of the calls it makes.
`known` are the services that have a VIP, `due` the ingresses to issue
certificates for. -/
structure Provided (choices : ℕ → Option (Outcome Text)) (p : Pass) (r : Reconciler)
    (t : Trace (Op Text) (Host Text)) (known due : String → Prop) : Prop where
  needed : ∀ name, due name → ∃ record, r.ingressRecords.lookup name = some record ∧
    record.due r.pool t.world p.nowUnix = .ok true
  lacking : ∀ name record, r.ingressRecords.lookup name = some record →
    known record.spec.spec.backend.service → t.world.HasFiles r.pool record.spec.spec.host ∨
      ∃ other record', due other ∧ r.ingressRecords.lookup other = some record' ∧
        Reconciler.certPath r.pool record'.spec.spec.host =
          Reconciler.certPath r.pool record.spec.spec.host
  forthcoming : (Reconciler.rendered p : Method Text _).Allowed
    (Host.under fun x c _ _ => c.Forthcoming r known due x) choices r t

omit [SerdeYaml Text JailRecord] [SerdeYaml Text IngressRecord] in
/-- A run goes on from what its next call answers. -/
theorem run_ask_bind {ρ α : Type} {choices : ℕ → Option (Outcome Text)} {r : Reconciler}
    {t : Trace (Op Text) (Host Text)} {c : Op Text ρ} {f : ρ → Method Text α} {x : Outcome Text}
    (hx : choices t.calls.length = some x) :
    ((Proc.ask c).bind f : Method Text α).run Host.outside choices r t =
      (f (Host.call x c t.world).1).run Host.outside choices r
        (t.push c (Host.call x c t.world).2) :=
  Proc.run_ask_bind hx

omit [SerdeYaml Text JailRecord] [SerdeYaml Text IngressRecord] in
/-- A config `nginx -t` does not refuse is reloaded. -/
theorem run_publish {choices : ℕ → Option (Outcome Text)} {r : Reconciler}
    {t : Trace (Op Text) (Host Text)} {backends : List Reconciler.IngressBackendConfig}
    (hnginx : NginxTests choices r.pool backends t)
    (hfound : ∀ b ∈ backends, b.Found r.pool t.world) :
    ∃ t', (Reconciler.publish backends : Method Text Unit).run Host.outside choices r t =
        (.returned (.ok ()) r, t') ∧
      t'.calls = t.calls ++
        [⟨_, .writeConfig "keel-ingress" (Reconciler.renderNginxConfig backends)⟩,
          ⟨_, .testConfig "keel-ingress"⟩, ⟨_, .reload "keel-ingress"⟩] := by
  obtain ⟨written, tested, reloaded, hwritten, hwrites, htested, hverdict, hreloaded⟩ := hnginx
  have htests := hverdict.2 hfound
  rw [Reconciler.publish]
  simp only [Proc.bind_eq]
  rw [run_ask_bind hwritten]
  simp only [Host.call, Outcome.unlessFails, hwrites]
  rw [run_ask_bind (x := tested) (by simpa [Trace.push] using htested)]
  simp only [Host.call, Outcome.unlessFails, htests]
  rw [run_ask_bind (x := reloaded) (by simpa [Trace.push] using hreloaded)]
  exact ⟨_, rfl, by simp [Trace.push]⟩

theorem ingresses_isolated (machine : Host Text) (pool : String)
    (choices : ℕ → Option (Outcome Text)) (events : List (Event Exit))
    (hprovided : ∀ es p fs r t, events = es ++ .operation (.reconcile p) :: fs →
      Host.life machine pool choices es = ⟨some r, t⟩ →
        ∃ known due, Provided choices p r t known due) :
    ∀ es p fs r t, events = es ++ .operation (.reconcile p) :: fs →
      Host.life machine pool choices es = ⟨some r, t⟩ → Isolated choices p r t := by
  intro es p fs r t hevents hlife backends r' t' hrun
  obtain ⟨known, due, hp⟩ := hprovided es p fs r t hevents hlife
  have hmeets := Proc.wp_run (wp_rendered hp.needed hp.lacking) hp.forthcoming
  rw [Host.run_under, hrun] at hmeets
  have hfound : ∀ b ∈ backends, b.Found r'.pool t'.world := hmeets backends rfl
  refine ⟨hfound, fun hnginx => ?_⟩
  obtain ⟨t'', hpublish, hcalls⟩ := run_publish hnginx hfound
  refine ⟨t'', ?_, hcalls⟩
  rw [Reconciler.reconcileIngresses_eq, Proc.run_bind hrun]
  exact hpublish

end Life

namespace Sample

def ingress (name host service : String) : IngressSpec :=
  ⟨"keel/v1", "Ingress", ⟨name⟩, ⟨host, ⟨service, 8080⟩, ⟨"admin@example.com"⟩⟩⟩

/-- Every service has a VIP, and every call works but some. -/
def serving (failing : List ℕ) : ℕ → Option (Outcome Doc) := fun i =>
  some { Outcome.works with
    vip := some ("10.0.250.7", 80)
    fails := if i ∈ failing then some "" else none }

/-- A VIP is known at one call alone, and one call fails. -/
def servingAt (known failing : ℕ) : ℕ → Option (Outcome Doc) := fun i =>
  some { Outcome.works with
    vip := if i = known then some ("10.0.250.7", 80) else none
    fails := if i = failing then some "" else none }

/-- The host or the service a call is about. -/
def about : {ρ : Type} → Op Doc ρ → Option String
  | _, .requestCertificate host _ => some host
  | _, .serviceVip service => some service
  | _, _ => none

end Sample

section

open scoped Node.Sample Agent.Sample

/-- What `servingAt` makes of a call is what the ingress `a` needs. -/
theorem forthcoming_servingAt {r : Reconciler} {record : IngressRecord} {known failing i : ℕ}
    {x : Outcome Sample.Doc} {ρ : Type} {c : Op Sample.Doc ρ}
    (hbackoff : r.ingressBackoff.entries.isEmpty = true)
    (hrecord : r.ingressRecords.lookup "a" = some record)
    (hpath : Reconciler.certPath r.pool "b.example" ≠
      Reconciler.certPath r.pool record.spec.spec.host)
    (hknown : i = known → Sample.about c = some "web")
    (hfailing : i = failing → Sample.about c = some "b.example")
    (hx : Sample.servingAt known failing i = some x) :
    c.Forthcoming r (· = "web") (· = "a") x := by
  have hempty : r.ingressBackoff = ∅ := AList.ext (List.isEmpty_iff.1 hbackoff)
  have hspared : i = failing → ¬ c.Issues r.pool record.spec.spec.host := by
    intro hi hissues
    have habout := hfailing hi
    cases c with
    | requestCertificate host email =>
      cases habout
      exact hpath hissues
    | createRootfsDir path => cases habout
    | writeRootfsFile path content => cases habout
    | _ => exact hissues.elim
  have hworks : ∀ name record', name = "a" → r.ingressRecords.lookup name = some record' →
      c.Issues r.pool record'.spec.spec.host → x.fails = none := by
    rintro _ record' rfl hrecord' hissues
    cases hrecord.symm.trans hrecord'
    cases hx
    exact if_neg fun hi => hspared hi hissues
  cases c with
  | instantNow =>
    rintro _ rfl
    rw [hempty]
    rfl
  | serviceVip service =>
    intro hvip
    cases hx
    by_cases hi : i = known
    · exact Option.some.inj (hknown hi)
    · exact absurd (if_neg hi) hvip
  | _ => exact hworks

/-- The service of the second ingress has no VIP, and no certificate is to
be had for it: the first is served. -/
theorem ingresses_isolated_sample : ∃ r t r' t' backends,
    Sample.host.life "zroot" (Sample.servingAt 26 15)
      [.start, .operation (.applyIngress (Sample.ingress "a" "a.example" "web")),
        .operation (.applyIngress (Sample.ingress "b" "b.example" "db"))] = ⟨some r, t⟩ ∧
    (Reconciler.rendered (Sample.pass 0)).run Host.outside (Sample.servingAt 26 15) r t =
      (.returned (.ok backends) r', t') ∧
    backends.map Reconciler.IngressBackendConfig.host = ["a.example"] ∧
    (∀ b ∈ backends, b.Found r'.pool t'.world) ∧
    Isolated (Sample.servingAt 26 15) (Sample.pass 0) r t := by
  obtain ⟨sys, hsys⟩ : ∃ sys, Sample.host.life "zroot" (Sample.servingAt 26 15)
      [.start, .operation (.applyIngress (Sample.ingress "a" "a.example" "web")),
        .operation (.applyIngress (Sample.ingress "b" "b.example" "db"))] = sys := ⟨_, rfl⟩
  have hpass : (sys.memory.any fun r => (Ended.value ((Reconciler.rendered (Sample.pass 0)).run
      Host.outside (Sample.servingAt 26 15) r sys.trace).1).any fun v =>
        decide (v.1.map Reconciler.IngressBackendConfig.host = ["a.example"]) &&
        (r.ingressBackoff.entries.isEmpty &&
        ((r.ingressRecords.lookup "a").any (fun record =>
          decide (record.due r.pool sys.trace.world 0 = .ok true) &&
          decide (Reconciler.certPath r.pool "b.example" ≠
            Reconciler.certPath r.pool record.spec.spec.host)) &&
        (r.ingressRecords.entries.all (fun e => decide (e.2.spec.spec.backend.service = "web" →
            e.1 = "a")) &&
        ((Reconciler.rendered (Sample.pass 0)).run Host.outside (Sample.servingAt 26 15) r
          sys.trace).2.calls.zipIdx.all fun c =>
            decide ((c.2 = 26 → Sample.about c.1.2 = some "web") ∧
              (c.2 = 15 → Sample.about c.1.2 = some "b.example")))))) = true := by
    rw [← hsys]
    decide +kernel
  obtain ⟨r, hr, hpass⟩ := (Option.any_eq_true _ _).1 hpass
  obtain ⟨⟨backends, r'⟩, hvalue, hpass⟩ := (Option.any_eq_true _ _).1 hpass
  obtain ⟨hhosts, hpass⟩ := Bool.and_eq_true_iff.1 hpass
  obtain ⟨hbackoff, hpass⟩ := Bool.and_eq_true_iff.1 hpass
  obtain ⟨hrecord, hpass⟩ := Bool.and_eq_true_iff.1 hpass
  obtain ⟨hweb, hcalls⟩ := Bool.and_eq_true_iff.1 hpass
  obtain ⟨record, hrecord, hstate⟩ := (Option.any_eq_true _ _).1 hrecord
  obtain ⟨hdue, hpath⟩ := Bool.and_eq_true_iff.1 hstate
  have hreached : Sample.host.life "zroot" (Sample.servingAt 26 15)
      [.start, .operation (.applyIngress (Sample.ingress "a" "a.example" "web")),
        .operation (.applyIngress (Sample.ingress "b" "b.example" "db"))] =
          ⟨some r, sys.trace⟩ := by
    rw [hsys, ← hr]
  have hrun : (Reconciler.rendered (Sample.pass 0)).run Host.outside (Sample.servingAt 26 15) r
      sys.trace = (.returned (.ok backends) r', ((Reconciler.rendered (Sample.pass 0)).run
        Host.outside (Sample.servingAt 26 15) r sys.trace).2) :=
    Prod.ext (Ended.eq_of_value hvalue) rfl
  have hisolated : Isolated (Sample.servingAt 26 15) (Sample.pass 0) r sys.trace := by
    refine ingresses_isolated Sample.host "zroot" (Sample.servingAt 26 15)
      [.start, .operation (.applyIngress (Sample.ingress "a" "a.example" "web")),
        .operation (.applyIngress (Sample.ingress "b" "b.example" "db")),
        .operation (.reconcile (Sample.pass 0))] ?_ _ _ _ _ _ rfl hreached
    rintro (_ | ⟨e₀, _ | ⟨e₁, _ | ⟨e₂, _ | ⟨e₃, es⟩⟩⟩⟩) p fs r'' t' hevents hlife
    · cases hevents
    · cases hevents
    · cases hevents
    · cases hevents
      cases hreached.symm.trans hlife
      refine ⟨(· = "web"), (· = "a"), ?_, fun name record' hrecord' hservice => Or.inr ?_, ?_⟩
      · rintro _ rfl
        exact ⟨record, hrecord, of_decide_eq_true hdue⟩
      · have hname : name = "a" := of_decide_eq_true
          (List.all_eq_true.1 hweb _ (AList.mem_lookup_iff.1 hrecord')) hservice
        exact ⟨name, record', hname, hrecord', rfl⟩
      · refine Proc.allowed_of_answered fun i c x hi hc hx _ _ => ?_
        rw [Host.run_under] at hc
        have hcall := of_decide_eq_true (List.all_eq_true.1 hcalls (c, i)
          (List.mem_zipIdx_iff_getElem?.2 hc))
        exact forthcoming_servingAt hbackoff hrecord (of_decide_eq_true hpath) hcall.1 hcall.2 hx
    · have hlength := congrArg List.length hevents
      simp at hlength
  exact ⟨r, sys.trace, r', _, backends, hreached, hrun, of_decide_eq_true hhosts,
    (hisolated backends r' _ hrun).1, hisolated⟩

def Op.reloads {Text ρ : Type} : Op Text ρ → Bool
  | .reload _ => true
  | _ => false

/-- Two ingresses of services with a VIP, and no certificate is to be had
for the second: the pass has certified the first, and its config names
the files of both, is refused, and not reloaded. -/
theorem ingress_blocks_others : ∃ r t r' t' backends,
    Sample.host.life "zroot" (Sample.serving [15, 29])
      [.start, .operation (.applyIngress (Sample.ingress "a" "a.example" "web")),
        .operation (.applyIngress (Sample.ingress "b" "b.example" "db"))] = ⟨some r, t⟩ ∧
    (Reconciler.rendered (Sample.pass 0)).run Host.outside (Sample.serving [15, 29]) r t =
      (.returned (.ok backends) r', t') ∧
    NginxTests (Sample.serving [15, 29]) r'.pool backends t' ∧
    (∀ c ∈ ((Reconciler.reconcileIngresses (Sample.pass 0)).run Host.outside
      (Sample.serving [15, 29]) r t).2.calls, c.2.reloads = false) ∧
    ¬ Isolated (Sample.serving [15, 29]) (Sample.pass 0) r t := by
  obtain ⟨sys, hsys⟩ : ∃ sys, Sample.host.life "zroot" (Sample.serving [15, 29])
      [.start, .operation (.applyIngress (Sample.ingress "a" "a.example" "web")),
        .operation (.applyIngress (Sample.ingress "b" "b.example" "db"))] = sys := ⟨_, rfl⟩
  have hpass : (sys.memory.any fun r => (Ended.value ((Reconciler.rendered (Sample.pass 0)).run
      Host.outside (Sample.serving [15, 29]) r sys.trace).1).any fun v =>
        !decide (∀ b ∈ v.1, b.Found v.2.pool ((Reconciler.rendered (Sample.pass 0)).run
          Host.outside (Sample.serving [15, 29]) r sys.trace).2.world) &&
        (decide (((Reconciler.rendered (Sample.pass 0)).run
          Host.outside (Sample.serving [15, 29]) r sys.trace).2.calls.length = 28) &&
        ((Reconciler.reconcileIngresses (Sample.pass 0)).run Host.outside
          (Sample.serving [15, 29]) r sys.trace).2.calls.all fun c => !c.2.reloads)) = true := by
    rw [← hsys]
    decide +kernel
  obtain ⟨r, hr, hpass⟩ := (Option.any_eq_true _ _).1 hpass
  obtain ⟨⟨backends, r'⟩, hvalue, hpass⟩ := (Option.any_eq_true _ _).1 hpass
  obtain ⟨hmissing, hpass⟩ := Bool.and_eq_true_iff.1 hpass
  obtain ⟨hlength, hcalls⟩ := Bool.and_eq_true_iff.1 hpass
  rw [Bool.not_eq_true'] at hmissing
  have hlost := of_decide_eq_false hmissing
  have hrun : (Reconciler.rendered (Sample.pass 0)).run Host.outside (Sample.serving [15, 29]) r
      sys.trace = (.returned (.ok backends) r', ((Reconciler.rendered (Sample.pass 0)).run
        Host.outside (Sample.serving [15, 29]) r sys.trace).2) :=
    Prod.ext (Ended.eq_of_value hvalue) rfl
  refine ⟨r, sys.trace, r', _, backends, by rw [hsys, ← hr], hrun, ?_, fun c hc => ?_, ?_⟩
  · rw [NginxTests, of_decide_eq_true hlength]
    exact ⟨_, _, _, rfl, rfl, rfl, iff_of_false (Option.some_ne_none _) hlost, rfl⟩
  · have hcall := List.all_eq_true.1 hcalls c hc
    rw [Bool.not_eq_true'] at hcall
    exact hcall
  · exact fun h => hlost (h backends r' _ hrun).1

end

end Node

end Keel
