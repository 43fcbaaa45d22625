import Keel.Node.Helpers.Certs
import Keel.Node.Volumes
/-!
# Usable certificates

Whether a certificate is due is decided from a time kept by the name of
an ingress and from one of two files kept by its host. After a pass in
which everything works, a host has a certificate and its key, issued
together no longer than sixty days ago, exactly when an ingress of that
host was due before the pass or it had them already
(`usable_after_pass_iff`). A host an ingress comes back to may have
neither.
-/

namespace Keel

namespace Node

open Agent (JailRecord)

variable {Text : Type}

/-! ## What was issued -/

/-- A certificate, the host it was issued for, and when. -/
structure Issuance where
  time : ℤ
  host : String
  cert : Cert

/-- The certificates issued to the calls from the `n`-th on. -/
def issuedFrom (choices : ℕ → Option (Outcome Text)) (time : ℤ) (n : ℕ)
    (calls : List (Σ ρ : Type, Op Text ρ)) : List Issuance :=
  calls.zipIdx.filterMap fun c =>
    if n ≤ c.2 then do
      let host ← c.1.2.requested
      let x ← choices c.2
      if x.fails = none then some ⟨time, host, x.cert⟩ else none
    else none

theorem mem_issuedFrom {choices : ℕ → Option (Outcome Text)} {time : ℤ} {n : ℕ}
    {calls : List (Σ ρ : Type, Op Text ρ)} {issuance : Issuance} :
    issuance ∈ issuedFrom choices time n calls ↔ issuance.time = time ∧ ∃ i c x, n ≤ i ∧
      calls[i]? = some c ∧ c.2.requested = some issuance.host ∧ choices i = some x ∧
        x.fails = none ∧ x.cert = issuance.cert := by
  obtain ⟨time', host, cert⟩ := issuance
  simp only [issuedFrom, List.mem_filterMap, Prod.exists, List.mem_zipIdx_iff_getElem?]
  constructor
  · rintro ⟨c, i, hc, hissued⟩
    by_cases hi : n ≤ i
    · rw [if_pos hi] at hissued
      obtain ⟨host', hhost, hissued⟩ := Option.bind_eq_some_iff.1 hissued
      obtain ⟨x, hx, hissued⟩ := Option.bind_eq_some_iff.1 hissued
      by_cases hworks : x.fails = none
      · rw [if_pos hworks] at hissued
        cases hissued
        exact ⟨rfl, i, c, x, hi, hc, hhost, hx, hworks, rfl⟩
      · rw [if_neg hworks] at hissued
        cases hissued
    · rw [if_neg hi] at hissued
      cases hissued
  · rintro ⟨rfl, i, c, x, hi, hc, hhost, hx, hworks, rfl⟩
    refine ⟨c, i, hc, ?_⟩
    rw [if_pos hi, hhost]
    simp [hx, hworks]

/-- Sixty days, in seconds. -/
def sixtyDays : ℤ := 60 * 24 * 60 * 60

/-- A host has a certificate and its key, issued together no longer than
sixty days ago. -/
def Usable (issued : List Issuance) (pool host : String) (now : ℤ) (h : Host Text) : Prop :=
  ∃ issuance ∈ issued,
    Reconciler.certPath pool issuance.host = Reconciler.certPath pool host ∧
      now - sixtyDays ≤ issuance.time ∧ h.InPlace pool host issuance.cert

theorem Host.InPlace.congr {h h' : Host Text} {pool host host' : String} {cert : Cert}
    (hplace : h.InPlace pool host cert)
    (hcrt : h'.file (Reconciler.certPath pool host') = h.file (Reconciler.certPath pool host))
    (hkey : h'.file (Reconciler.keyPath pool host') = h.file (Reconciler.keyPath pool host)) :
    h'.InPlace pool host' cert :=
  ⟨hcrt.trans hplace.crt, hkey.trans hplace.key⟩

/-! ## A clean pass -/

section Clean

variable [Ipnet] [SerdeYaml Text IngressRecord] {r : Reconciler} {p : Pass}
variable {t : Trace (Op Text) (Host Text)} {log : List Issuance}

/-- A call works, finds no ingress in cooldown, and what is issued to it
is logged. -/
def Op.Clean (r : Reconciler) (time : ℤ) (log : List Issuance) (x : Outcome Text) {ρ : Type}
    (c : Op Text ρ) : Prop :=
  x.fails = none ∧
    (∀ name b, r.ingressBackoff.lookup name = some b → b.canRetry x.instant = true) ∧
    ∀ host, c.requested = some host → ⟨time, host, x.cert⟩ ∈ log

/-- A certificate was asked for only where one was due. -/
def Op.AsksDue (r : Reconciler) (h : Host Text) (nowUnix : ℤ) {ρ : Type} (c : Op Text ρ) : Prop :=
  ∀ host, c.requested = some host → ∃ name record, r.ingressRecords.lookup name = some record ∧
    record.spec.spec.host = host ∧ record.due r.pool h nowUnix = .ok true

/-- A host's files are of the log. -/
def Fresh (log : List Issuance) (pool host : String) (h : Host Text) : Prop :=
  ∃ issuance ∈ log, Reconciler.certPath pool issuance.host = Reconciler.certPath pool host ∧
    h.InPlace pool host issuance.cert

/-- A host's files are what they were, and the ingresses of the host that
are due are still to come. -/
structure Untouched (r : Reconciler) (nowUnix : ℤ) (h₀ : Host Text) (names : List String)
    (host : String) (h : Host Text) : Prop where
  crt : h.file (Reconciler.certPath r.pool host) = h₀.file (Reconciler.certPath r.pool host)
  key : h.file (Reconciler.keyPath r.pool host) = h₀.file (Reconciler.keyPath r.pool host)
  due : ∀ name record, r.ingressRecords.lookup name = some record →
    Reconciler.certPath r.pool record.spec.spec.host = Reconciler.certPath r.pool host →
      record.due r.pool h₀ nowUnix = .ok true → name ∈ names

omit [Ipnet] [SerdeYaml Text IngressRecord] in
/-- What is due with its certificate there is due without it. -/
theorem IngressRecord.due_of_fresh {record : IngressRecord} {pool : String} {h h₀ : Host Text}
    {nowUnix : ℤ} (hfresh : Fresh log pool record.spec.spec.host h)
    (hdue : record.due pool h nowUnix = .ok true) : record.due pool h₀ nowUnix = .ok true := by
  obtain ⟨issuance, -, -, hplace⟩ := hfresh
  rw [due, hplace.crt] at hdue
  rw [due]
  cases hexpires : record.certExpiresAtUnix with
  | none =>
    rw [Reconciler.needsIssuance, hexpires]
  | some expiresAt =>
    cases hfile : (h₀.file (Reconciler.certPath pool record.spec.spec.host)).isSome with
    | false =>
      rw [Reconciler.needsIssuance, hexpires]
      rfl
    | true => exact hdue

theorem wp_reconcileCerts_clean :
    (Reconciler.reconcileCerts p : Method Text Unit).wp
      (Host.under fun x c _ _ => c.Clean r p.nowUnix log x)
      (fun _ r' t' => r.Midway [] r' ∧ (∀ host, Fresh log r.pool host t'.world ∨
          Untouched r p.nowUnix t.world [] host t'.world) ∧
        t'.Since t.calls (Op.AsksDue r t.world p.nowUnix)) (fun _ _ => True) r t := by
  refine Proc.wp_mono (fun _ _ _ h => h.2) (fun _ _ _ => trivial) (wp_reconcileCerts
    (fun names h => ∀ host, Fresh log r.pool host h ∨
      Untouched r p.nowUnix t.world names host h) ?_ ?_ ?_ t.since_self)
  · intro name names record h hrecord hI ρ c hc host hhost
    obtain ⟨hhost', hdue⟩ := hc host hhost
    refine ⟨name, record, hrecord, hhost'.symm, ?_⟩
    rcases hI record.spec.spec.host with hfresh | huntouched
    · exact IngressRecord.due_of_fresh hfresh hdue
    · exact (IngressRecord.due_congr huntouched.crt).symm.trans hdue
  · intro name names record r₁ h r₂ h' hrecord hmid hI hturn host
    have hpool := hmid.pool
    -- a turn that is not about the host's files, or finds nothing due
    have hkept : h'.file (Reconciler.certPath r.pool host) =
          h.file (Reconciler.certPath r.pool host) →
        h'.file (Reconciler.keyPath r.pool host) = h.file (Reconciler.keyPath r.pool host) →
        (Untouched r p.nowUnix t.world (name :: names) host h →
          Reconciler.certPath r.pool record.spec.spec.host = Reconciler.certPath r.pool host →
            record.due r.pool t.world p.nowUnix ≠ .ok true) →
        Fresh log r.pool host h' ∨ Untouched r p.nowUnix t.world names host h' := by
      intro hcrt hkey hnot
      rcases hI host with ⟨issuance, hlog, hpath, hplace⟩ | huntouched
      · exact Or.inl ⟨issuance, hlog, hpath, hplace.congr hcrt hkey⟩
      · refine Or.inr ⟨hcrt.trans huntouched.crt, hkey.trans huntouched.key, ?_⟩
        intro other record' hrecord' hpath hdue
        refine (List.mem_cons.1 (huntouched.due other record' hrecord' hpath hdue)).resolve_left ?_
        rintro rfl
        cases hrecord.symm.trans hrecord'
        exact hnot huntouched hpath hdue
    cases hturn with
    | cooling x hx hcooling hsame' hsame =>
      have hretry : ((r.ingressBackoff.lookup name).getD .new).canRetry x.instant = true := by
        cases hlookup : r.ingressBackoff.lookup name with
        | none => rfl
        | some b => exact hx.2.1 name b hlookup
      rw [hmid.backoff name List.mem_cons_self] at hcooling
      cases hcooling.symm.trans hretry
    | valid hvalid hsame' hsame =>
      refine hkept (hsame _) (hsame _) fun huntouched hpath hdue => ?_
      have hcrt := huntouched.crt
      rw [← hpath] at hcrt
      rw [hpool] at hvalid
      cases hvalid.symm.trans ((IngressRecord.due_congr hcrt).trans hdue)
    | attempted hdue ha =>
      obtain ⟨-, hfiles, hresult⟩ := ha
      rw [hpool] at hfiles hresult
      have hworks : ¬ IssuanceFails (fun (x : Outcome Text) c _ _ => c.Clean r p.nowUnix log x)
          r.pool record.spec.spec.host := by
        rintro ⟨x, ρ, c, -, -, -, hx, hfails⟩
        exact hfails hx.1
      obtain ⟨cert, ⟨x, email, _, _, hx, -, rfl⟩, hplace⟩ := hresult.resolve_right hworks
      by_cases hpath : Reconciler.certPath r.pool record.spec.spec.host =
          Reconciler.certPath r.pool host
      · refine Or.inl ⟨_, hx.2.2 _ rfl, hpath, hplace.congr ?_ ?_⟩
        · rw [hpath]
        · rw [Reconciler.keyPath_eq_iff.2 hpath]
      · have hkeys : Reconciler.keyPath r.pool host ≠
            Reconciler.keyPath r.pool record.spec.spec.host :=
          fun h => hpath (Reconciler.keyPath_eq_iff.1 h).symm
        exact hkept
          (hfiles.others _ (Ne.symm hpath) (Reconciler.certPath_ne_keyPath r.pool _ _))
          (hfiles.others _ (Ne.symm (Reconciler.certPath_ne_keyPath r.pool _ _)) hkeys)
          fun _ h => absurd h hpath
  · intro host
    refine Or.inr ⟨rfl, rfl, fun name record hrecord _ _ => ?_⟩
    exact p.ingressOrder.mem_apply.2 (Table.mem_keys_of_lookup hrecord)

end Clean

/-! ## After a history -/

section Life

variable [Ipnet] [SerdeYaml Text JailRecord] [SerdeYaml Text IngressRecord]

/-- The certificates issued in the passes of a history. -/
def System.issuances (pool : String) (choices : ℕ → Option (Outcome Text)) :
    System Text (Host Text) → List (Event Exit) → List Issuance
  | _, [] => []
  | sys, e :: es =>
    let sys' := sys.step (Host.world pool choices) e
    (match e with
      | .operation (.reconcile p) =>
        issuedFrom choices p.nowUnix sys.trace.calls.length sys'.trace.calls
      | _ => []) ++ sys'.issuances pool choices es

section Pass

variable {past : List Issuance} {r r' : Reconciler} {t t' : Trace (Op Text) (Host Text)} {p : Pass}
variable {final : ℕ → Option (Outcome Text)}

omit [SerdeYaml Text JailRecord] in
theorem run_reconcileCerts_clean (hfinal : Reliable final)
    (hcool : ∀ name b, r.ingressBackoff.lookup name = some b → ∀ i x, final i = some x →
      b.canRetry x.instant = true)
    (hrun : (Reconciler.reconcileCerts p : Method Text Unit).run Host.outside final r t =
      (.returned (.ok ()) r', t')) :
    r.Midway [] r' ∧
      (∀ host, Fresh (issuedFrom final p.nowUnix t.calls.length t'.calls) r.pool host t'.world ∨
        Untouched r p.nowUnix t.world [] host t'.world) ∧
      t'.Since t.calls (Op.AsksDue r t.world p.nowUnix) := by
  have hallowed : (Reconciler.reconcileCerts p : Method Text Unit).Allowed (Host.under
      fun x c _ _ => c.Clean r p.nowUnix (issuedFrom final p.nowUnix t.calls.length t'.calls) x)
        final r t := by
    refine Proc.allowed_of_answered fun i c x hi hc hx _ _ => ?_
    rw [Host.run_under, hrun] at hc
    obtain ⟨x', hx', hworks⟩ := hfinal i
    cases hx.symm.trans hx'
    refine ⟨hworks, fun name b hb => hcool name b hb i x hx, fun host hhost => ?_⟩
    exact mem_issuedFrom.2 ⟨rfl, i, c, x, hi, hc, hhost, hx, hworks, rfl⟩
  have hmeets := Proc.wp_run wp_reconcileCerts_clean hallowed
  rw [Host.run_under, hrun] at hmeets
  exact hmeets

omit [SerdeYaml Text JailRecord] in
/-- A host has a usable certificate after a clean pass if and only if it
had one before or an ingress of the host was due. -/
theorem usable_iff (hfinal : Reliable final)
    (hcool : ∀ name b, r.ingressBackoff.lookup name = some b → ∀ i x, final i = some x →
      b.canRetry x.instant = true)
    (hrun : (Reconciler.reconcileCerts p : Method Text Unit).run Host.outside final r t =
      (.returned (.ok ()) r', t')) (host : String) :
    Usable (past ++ issuedFrom final p.nowUnix t.calls.length t'.calls) r.pool host p.nowUnix
        t'.world ↔
      (∃ name record, r.ingressRecords.lookup name = some record ∧
        Reconciler.certPath r.pool record.spec.spec.host = Reconciler.certPath r.pool host ∧
        record.due r.pool t.world p.nowUnix = .ok true) ∨
      Usable past r.pool host p.nowUnix t.world := by
  obtain ⟨-, hhosts, hasked⟩ := run_reconcileCerts_clean hfinal hcool hrun
  -- what this pass issued, it issued where it was due
  have hdue : ∀ issuance ∈ issuedFrom final p.nowUnix t.calls.length t'.calls,
      Reconciler.certPath r.pool issuance.host = Reconciler.certPath r.pool host →
      ∃ name record, r.ingressRecords.lookup name = some record ∧
        Reconciler.certPath r.pool record.spec.spec.host = Reconciler.certPath r.pool host ∧
        record.due r.pool t.world p.nowUnix = .ok true := by
    intro issuance hissuance hpath
    obtain ⟨-, i, c, x, hi, hc, hhost, -⟩ := mem_issuedFrom.1 hissuance
    obtain ⟨l, hl, hP⟩ := hasked
    rw [hl, List.getElem?_append_right hi] at hc
    obtain ⟨name, record, hrecord, hhost', hdue⟩ :=
      hP c (List.mem_of_getElem? hc) issuance.host hhost
    exact ⟨name, record, hrecord, by rw [hhost', hpath], hdue⟩
  constructor
  · rintro ⟨issuance, hmem, hpath, htime, hplace⟩
    by_cases hany : ∃ name record, r.ingressRecords.lookup name = some record ∧
        Reconciler.certPath r.pool record.spec.spec.host = Reconciler.certPath r.pool host ∧
        record.due r.pool t.world p.nowUnix = .ok true
    · exact Or.inl hany
    · have hnew : issuance ∈ past := (List.mem_append.1 hmem).resolve_right
        fun h => hany (hdue issuance h hpath)
      rcases hhosts host with ⟨other, hother, hpath', -⟩ | huntouched
      · exact absurd (hdue other hother hpath') hany
      · exact Or.inr ⟨issuance, hnew, hpath, htime,
          hplace.congr huntouched.crt.symm huntouched.key.symm⟩
  · intro hbefore
    rcases hhosts host with ⟨issuance, hissuance, hpath, hplace⟩ | huntouched
    · refine ⟨issuance, List.mem_append_right _ hissuance, hpath, ?_, hplace⟩
      rw [(mem_issuedFrom.1 hissuance).1, sixtyDays]
      omega
    · rcases hbefore with
        ⟨name, record, hrecord, hpath, hissue⟩ | ⟨issuance, hmem, hpath, htime, hplace⟩
      · exact absurd (huntouched.due name record hrecord hpath hissue) List.not_mem_nil
      · exact ⟨issuance, List.mem_append_left _ hmem, hpath, htime,
          hplace.congr huntouched.crt huntouched.key⟩

end Pass

/-- **After a clean pass** every ingress has a usable certificate if and
only if each one did before it or an ingress of its host was due. -/
theorem usable_after_pass_iff (machine : Host Text) (pool : String)
    (choices : ℕ → Option (Outcome Text)) (events : List (Event Exit)) {r : Reconciler}
    {t : Trace (Op Text) (Host Text)} (hlife : Host.life machine pool choices events = ⟨some r, t⟩)
    {final : ℕ → Option (Outcome Text)} (hfinal : Reliable final)
    (hcool : ∀ name b, r.ingressBackoff.lookup name = some b → ∀ i x, final i = some x →
      b.canRetry x.instant = true)
    {p : Pass} {r' : Reconciler} {t' : Trace (Op Text) (Host Text)}
    (hrun : (Reconciler.reconcileCerts p : Method Text Unit).run Host.outside final r t =
      (.returned (.ok ()) r', t')) :
    (∀ name record, r'.ingressRecords.lookup name = some record →
      Usable ((System.fresh machine).issuances pool choices events ++
          issuedFrom final p.nowUnix t.calls.length t'.calls)
        pool record.spec.spec.host p.nowUnix t'.world) ↔
    ∀ name record, r.ingressRecords.lookup name = some record →
      (∃ other record', r.ingressRecords.lookup other = some record' ∧
        Reconciler.certPath pool record'.spec.spec.host =
          Reconciler.certPath pool record.spec.spec.host ∧
        record'.due pool t.world p.nowUnix = .ok true) ∨
      Usable ((System.fresh machine).issuances pool choices events) pool
        record.spec.spec.host p.nowUnix t.world := by
  have hpool : r.pool = pool :=
    System.onPool_after r (congrArg System.memory hlife)
  subst hpool
  obtain ⟨hmid, -⟩ := run_reconcileCerts_clean hfinal hcool hrun
  have hiff : ∀ host, Usable ((System.fresh machine).issuances r.pool choices events ++
      issuedFrom final p.nowUnix t.calls.length t'.calls) r.pool host p.nowUnix t'.world ↔ _ :=
    usable_iff hfinal hcool hrun
  constructor
  · intro hafter name record hrecord
    have hspec := hmid.specs name
    rw [hrecord, Option.map_some] at hspec
    obtain ⟨record', hrecord', hspec⟩ := Option.map_eq_some_iff.1 hspec
    rw [← hiff, ← hspec]
    exact hafter name record' hrecord'
  · intro hbefore name record' hrecord'
    have hspec := hmid.specs name
    rw [hrecord', Option.map_some] at hspec
    obtain ⟨record, hrecord, hspec⟩ := Option.map_eq_some_iff.1 hspec.symm
    rw [hiff, ← hspec]
    exact hbefore name record hrecord

end Life

namespace Sample

def blog (host : String) : IngressSpec :=
  ⟨"keel/v1", "Ingress", ⟨"blog"⟩, ⟨host, ⟨"hugo-site", 8080⟩, ⟨"admin@example.com"⟩⟩⟩

/-- A pass some days after the first. -/
def passOn (day : ℤ) : Pass := { pass 0 with nowUnix := day * 24 * 60 * 60 }

/-- Every call works, and every certificate is another. -/
def issuing : ℕ → Option (Outcome Doc) := fun i =>
  some { Outcome.works with cert := ⟨"certificate " ++ toString i, "key " ++ toString i⟩ }

/-- An ingress and its first certificate. -/
def issued : List (Event Exit) :=
  [.start, .operation (.applyIngress (blog "a.example")), .operation (.reconcile (passOn 0))]

/-- It goes to another host for a while. -/
def backAndForth : List (Event Exit) :=
  issued ++ [.operation (.applyIngress (blog "b.example")), .operation (.reconcile (passOn 80)),
    .operation (.applyIngress (blog "a.example"))]

end Sample

section

open scoped Node.Sample Agent.Sample

theorem reliable_issuing : Reliable Sample.issuing := fun _ => ⟨_, rfl, rfl⟩

/-- A renewal. -/
theorem usable_after_pass_sample : ∃ r t r' t',
    Sample.host.life "zroot" Sample.issuing Sample.issued = ⟨some r, t⟩ ∧
    (Reconciler.reconcileCerts (Sample.passOn 70)).run Host.outside Sample.issuing r t =
      (.returned (.ok ()) r', t') ∧
    ∀ name record, r'.ingressRecords.lookup name = some record →
      Usable ((System.fresh Sample.host).issuances "zroot" Sample.issuing Sample.issued ++
        issuedFrom Sample.issuing (Sample.passOn 70).nowUnix t.calls.length t'.calls)
        "zroot" record.spec.spec.host (Sample.passOn 70).nowUnix t'.world := by
  obtain ⟨sys, hsys⟩ : ∃ sys, Sample.host.life "zroot" Sample.issuing Sample.issued = sys :=
    ⟨_, rfl⟩
  have hstate : (sys.memory.any fun r =>
      r.ingressBackoff.entries.all (fun e => e.2.canRetry 0) &&
      (r.ingressRecords.entries.all fun e =>
        decide (e.2.due "zroot" sys.trace.world (Sample.passOn 70).nowUnix = .ok true)) &&
      (Ended.value ((Reconciler.reconcileCerts (Sample.passOn 70)).run Host.outside
        Sample.issuing r sys.trace).1).isSome) = true := by
    rw [← hsys]
    decide +kernel
  obtain ⟨r, hr, hstate⟩ := (Option.any_eq_true _ _).1 hstate
  obtain ⟨hstate, hvalue⟩ := Bool.and_eq_true_iff.1 hstate
  obtain ⟨hbackoff, hdue⟩ := Bool.and_eq_true_iff.1 hstate
  obtain ⟨⟨u, r'⟩, hvalue⟩ := Option.isSome_iff_exists.1 hvalue
  have hlife : Sample.host.life "zroot" Sample.issuing Sample.issued = ⟨some r, sys.trace⟩ := by
    rw [hsys, ← hr]
  have hrun : (Reconciler.reconcileCerts (Sample.passOn 70)).run Host.outside Sample.issuing r
      sys.trace = (.returned (.ok ()) r', ((Reconciler.reconcileCerts (Sample.passOn 70)).run
        Host.outside Sample.issuing r sys.trace).2) :=
    Prod.ext (Ended.eq_of_value hvalue) rfl
  refine ⟨r, sys.trace, r', _, hlife, hrun, (usable_after_pass_iff Sample.host "zroot"
    Sample.issuing _ hlife reliable_issuing ?_ hrun).2 fun name record hrecord => ?_⟩
  · intro name b hb i x hx
    cases hx
    exact List.all_eq_true.1 hbackoff _ (AList.mem_lookup_iff.1 hb)
  · exact Or.inl ⟨name, record, hrecord, rfl,
      of_decide_eq_true (List.all_eq_true.1 hdue _ (AList.mem_lookup_iff.1 hrecord))⟩

/-- An ingress that goes to another host and comes back: its certificate
is a hundred days old after a clean pass. -/
theorem certificate_runs_out : ∃ r t r' t' record,
    Sample.host.life "zroot" Sample.issuing Sample.backAndForth = ⟨some r, t⟩ ∧
    (∀ name b, r.ingressBackoff.lookup name = some b → ∀ i x, Sample.issuing i = some x →
      b.canRetry x.instant = true) ∧
    (Reconciler.reconcileCerts (Sample.passOn 100)).run Host.outside Sample.issuing r t =
      (.returned (.ok ()) r', t') ∧
    r'.ingressRecords.lookup "blog" = some record ∧
    ¬ Usable ((System.fresh Sample.host).issuances "zroot" Sample.issuing Sample.backAndForth ++
        issuedFrom Sample.issuing (Sample.passOn 100).nowUnix t.calls.length t'.calls)
        "zroot" record.spec.spec.host (Sample.passOn 100).nowUnix t'.world := by
  obtain ⟨sys, hsys⟩ : ∃ sys, Sample.host.life "zroot" Sample.issuing
      Sample.backAndForth = sys := ⟨_, rfl⟩
  have hstate : (sys.memory.any fun r =>
      r.ingressBackoff.entries.all (fun e => e.2.canRetry 0) &&
      (Ended.value ((Reconciler.reconcileCerts (Sample.passOn 100)).run Host.outside
        Sample.issuing r sys.trace).1).any fun v =>
          (v.2.ingressRecords.lookup "blog").any fun record =>
            ((System.fresh Sample.host).issuances "zroot" Sample.issuing
                Sample.backAndForth ++
              issuedFrom Sample.issuing (Sample.passOn 100).nowUnix sys.trace.calls.length
                ((Reconciler.reconcileCerts (Sample.passOn 100)).run Host.outside
                  Sample.issuing r sys.trace).2.calls).all fun issuance =>
              decide (Reconciler.certPath "zroot" issuance.host =
                Reconciler.certPath "zroot" record.spec.spec.host →
                  issuance.time < (Sample.passOn 100).nowUnix - sixtyDays)) = true := by
    rw [← hsys]
    decide +kernel
  obtain ⟨r, hr, hstate⟩ := (Option.any_eq_true _ _).1 hstate
  obtain ⟨hbackoff, hvalue⟩ := Bool.and_eq_true_iff.1 hstate
  obtain ⟨⟨u, r'⟩, hvalue, hissued⟩ := (Option.any_eq_true _ _).1 hvalue
  obtain ⟨record, hrecord, hissued⟩ := (Option.any_eq_true _ _).1 hissued
  refine ⟨r, sys.trace, r', _, record, by rw [hsys, ← hr], fun name b hb i x hx => ?_,
    Prod.ext (Ended.eq_of_value hvalue) rfl, hrecord, ?_⟩
  · cases hx
    exact List.all_eq_true.1 hbackoff _ (AList.mem_lookup_iff.1 hb)
  · rintro ⟨issuance, hmem, hpath, htime, -⟩
    have hold := of_decide_eq_true (List.all_eq_true.1 hissued issuance hmem) hpath
    omega

end

end Node

end Keel
