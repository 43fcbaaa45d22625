import Mathlib.Data.Set.Pairwise.List
import Keel.ControlPlane.Helpers.Tables
import Keel.Node.Publishing
/-!
# Which block serves a host

The config has a block for every ingress whose service is known, with the
address *and* the port the service table has for it: the port the ingress
itself declares is looked at when it is applied, and never again. Nor are
the hosts of two ingresses compared, so two of them may claim one host, and
which of the two gets its traffic is up to the order a hash map is iterated
in.

What was declared is what is served exactly where these two do not come
up: the ports agree, and so do no two hosts (`vhosts_faithful_iff`).
-/

namespace Keel

namespace Node

variable {Text : Type}

/-- What hosts are compared by: letters in either case are the same. -/
def foldHost (host : String) : List Char := host.toList.map asciiLower

namespace Reconciler

variable (records : Table IngressRecord) (vips : String → Option (String × ℕ))

/-- The blocks of some ingresses under a service table. -/
def blocksOf (entries : List (String × IngressRecord)) : List IngressBackendConfig :=
  entries.filterMap fun e => (vips e.2.spec.spec.backend.service).map (serverBlock e.2)

theorem blocksOf_cons (name : String) (record : IngressRecord)
    (rest : List (String × IngressRecord)) : blocksOf vips ((name, record) :: rest) =
      ((vips record.spec.spec.backend.service).map (serverBlock record)).toList ++
        blocksOf vips rest := by
  rw [blocksOf, List.filterMap_cons]
  cases vips record.spec.spec.backend.service with
  | none => rfl
  | some entry => rfl

/-- The blocks of a config. -/
def blocks (ord : IterOrder) : List IngressBackendConfig := blocksOf vips (records.iter ord)

/-- The block a request for a host goes to: the first one of its name. -/
def route (bs : List IngressBackendConfig) (host : String) : Option IngressBackendConfig :=
  bs.find? fun b => foldHost b.host = foldHost host

/-- **What was declared is what is served.** -/
structure Faithful : Prop where
  /-- Every ingress of a known service has a block, with its own port. -/
  served : ∀ ord name record vip port, records.lookup name = some record →
    vips record.spec.spec.backend.service = some (vip, port) →
      ∃ b ∈ blocks records vips ord, b.host = record.spec.spec.host ∧ b.vip = vip ∧
        b.port = record.spec.spec.backend.port
  /-- No host has two. -/
  once : ∀ ord, ((blocks records vips ord).map fun b => foldHost b.host).Nodup
  /-- The order does not matter. -/
  settled : ∀ ord ord' host,
    route (blocks records vips ord) host = route (blocks records vips ord') host

/-- **When it is**: every declared port is that of the service, and no two
ingresses of known services are for one host. -/
structure Agrees : Prop where
  ports : ∀ name record vip port, records.lookup name = some record →
    vips record.spec.spec.backend.service = some (vip, port) →
      record.spec.spec.backend.port = port
  hosts : ∀ name record name' record', records.lookup name = some record →
    records.lookup name' = some record' → vips record.spec.spec.backend.service ≠ none →
      vips record'.spec.spec.backend.service ≠ none → name ≠ name' →
        foldHost record.spec.spec.host ≠ foldHost record'.spec.spec.host

/-! ## The blocks -/

variable {records vips} {ord : IterOrder}

theorem mem_blocks {b : IngressBackendConfig} :
    b ∈ blocks records vips ord ↔ ∃ name record entry, records.lookup name = some record ∧
      vips record.spec.spec.backend.service = some entry ∧ serverBlock record entry = b := by
  simp only [blocks, blocksOf, List.mem_filterMap, Option.map_eq_some_iff, Prod.exists,
    Table.mem_iter]
  constructor
  · rintro ⟨name, record, hlookup, vip, port, hvip, hb⟩
    exact ⟨name, record, vip, port, hlookup, hvip, hb⟩
  · rintro ⟨name, record, vip, port, hlookup, hvip, hb⟩
    exact ⟨name, record, hlookup, vip, port, hvip, hb⟩

theorem serverBlock_host (record : IngressRecord) (entry : String × ℕ) :
    (serverBlock record entry).host = record.spec.spec.host := rfl

theorem serverBlock_port (record : IngressRecord) (entry : String × ℕ) :
    (serverBlock record entry).port = entry.2 := rfl

/-- The host of an ingress, if its service is known. -/
def knownHost (vips : String → Option (String × ℕ)) (record : IngressRecord) :
    Option (List Char) :=
  (vips record.spec.spec.backend.service).map fun _ => foldHost record.spec.spec.host

theorem hosts_blocks : ((blocks records vips ord).map fun b => foldHost b.host) =
    (records.iter ord).filterMap fun e => knownHost vips e.2 := by
  rw [blocks, blocksOf, List.map_filterMap]
  congr 1
  funext e
  rw [knownHost, Option.map_map]
  rfl

/-- **No host has two blocks** where no two ingresses of known services
are for one host, whatever the order. -/
theorem nodup_hosts_iff : ((blocks records vips ord).map fun b => foldHost b.host).Nodup ↔
    ∀ name record name' record', records.lookup name = some record →
      records.lookup name' = some record' → name ≠ name' →
        ∀ host, knownHost vips record = some host → knownHost vips record' ≠ some host := by
  have hnodup : (records.iter ord).Nodup := (Table.nodup_iter_keys records ord).of_map _
  let Apart (e e' : String × IngressRecord) : Prop :=
    ∀ host, knownHost vips e.2 = some host → ∀ host', knownHost vips e'.2 = some host' →
      host ≠ host'
  have : Std.Symm Apart := ⟨fun e e' h host' hhost' host hhost => (h host hhost host' hhost').symm⟩
  rw [hosts_blocks, List.Nodup, List.pairwise_filterMap]
  show (records.iter ord).Pairwise Apart ↔ _
  rw [← hnodup.pairwise_coe]
  constructor
  · intro h name record name' record' hrecord hrecord' hname host hhost hhost'
    have hne : (name, record) ≠ (name', record') := fun heq => hname (congrArg Prod.fst heq)
    exact h (Table.mem_iter.2 hrecord) (Table.mem_iter.2 hrecord') hne host hhost host hhost' rfl
  · rintro h ⟨name, record⟩ hmem ⟨name', record'⟩ hmem' hne host hhost host' hhost' rfl
    have hrecord := Table.mem_iter.1 hmem
    have hrecord' := Table.mem_iter.1 hmem'
    refine h name record name' record' hrecord hrecord' ?_ host hhost hhost'
    rintro rfl
    cases hrecord.symm.trans hrecord'
    exact hne rfl

theorem knownHost_eq_some {record : IngressRecord} {host : List Char} :
    knownHost vips record = some host ↔ vips record.spec.spec.backend.service ≠ none ∧
      foldHost record.spec.spec.host = host := by
  rw [knownHost]
  cases vips record.spec.spec.backend.service with
  | none => simp
  | some entry => simp

/-- Where no host has two blocks, a request goes to the one of its host. -/
theorem route_eq_some {bs : List IngressBackendConfig} {host : String}
    (hnodup : (bs.map fun b => foldHost b.host).Nodup) {b : IngressBackendConfig} :
    route bs host = some b ↔ b ∈ bs ∧ foldHost b.host = foldHost host := by
  constructor
  · intro h
    have hhost := List.find?_some h
    exact ⟨List.mem_of_find?_eq_some h, of_decide_eq_true hhost⟩
  · rintro ⟨hb, hhost⟩
    have hfound : (route bs host).isSome = true := by
      rw [route, List.find?_isSome]
      exact ⟨b, hb, decide_eq_true hhost⟩
    obtain ⟨c, hc⟩ := Option.isSome_iff_exists.1 hfound
    have hfirst := List.find?_some hc
    have hsame : foldHost c.host = foldHost host := of_decide_eq_true hfirst
    rw [hc, List.inj_on_of_nodup_map hnodup (List.mem_of_find?_eq_some hc) hb
      (hsame.trans hhost.symm)]

/-- **What was declared is served** exactly where the ports agree and no
two hosts do. -/
theorem faithful_iff : Faithful records vips ↔ Agrees records vips := by
  constructor
  · intro h
    have hhosts := nodup_hosts_iff.1 (h.once .listed)
    refine ⟨fun name record vip port hrecord hvip => ?_, ?_⟩
    · -- the block with the declared port is that of the ingress itself
      obtain ⟨b, hb, hhost, -, hport⟩ := h.served .listed name record vip port hrecord hvip
      have hown : serverBlock record (vip, port) ∈ blocks records vips .listed :=
        mem_blocks.2 ⟨name, record, (vip, port), hrecord, hvip, rfl⟩
      have hsame : b = serverBlock record (vip, port) := by
        refine List.inj_on_of_nodup_map (h.once .listed) hb hown ?_
        rw [hhost, serverBlock_host]
      rw [← hport, hsame, serverBlock_port]
    · intro name record name' record' hrecord hrecord' hknown hknown' hname hhost
      exact hhosts name record name' record' hrecord hrecord' hname _
        (knownHost_eq_some.2 ⟨hknown, rfl⟩) (knownHost_eq_some.2 ⟨hknown', hhost.symm⟩)
  · intro h
    have honce : ∀ ord, ((blocks records vips ord).map fun b => foldHost b.host).Nodup := by
      refine fun ord => nodup_hosts_iff.2 ?_
      intro name record name' record' hrecord hrecord' hname host hhost hhost'
      obtain ⟨hknown, rfl⟩ := knownHost_eq_some.1 hhost
      obtain ⟨hknown', hsame⟩ := knownHost_eq_some.1 hhost'
      exact h.hosts name record name' record' hrecord hrecord' hknown hknown' hname hsame.symm
    refine ⟨fun ord name record vip port hrecord hvip => ?_, honce, fun ord ord' host => ?_⟩
    · exact ⟨serverBlock record (vip, port),
        mem_blocks.2 ⟨name, record, (vip, port), hrecord, hvip, rfl⟩, rfl, rfl,
        (h.ports name record vip port hrecord hvip).symm⟩
    · refine Option.ext fun b => ?_
      rw [route_eq_some (honce ord), route_eq_some (honce ord'), mem_blocks, mem_blocks]

end Reconciler

/-! ## What is written -/

/-- The service table is as it is throughout. -/
def Op.Follows (vips : String → Option (String × ℕ)) (x : Outcome Text) : {ρ : Type} →
    Op Text ρ → Prop
  | _, .serviceVip service => x.vip = vips service
  | _, _ => True

/-- No other config is written. -/
def Op.Renders (config : String) : {ρ : Type} → Op Text ρ → Prop
  | _, .writeConfig _ c => c = config
  | _, _ => True

/-- Since `before`, a config was written. -/
def Wrote (before : List (Σ ρ : Type, Op Text ρ)) (config : String)
    (t : Trace (Op Text) (Host Text)) : Prop :=
  ∃ l l', t.calls = before ++ l ++ ⟨_, .writeConfig "keel-ingress" config⟩ :: l'

theorem Wrote.push {before : List (Σ ρ : Type, Op Text ρ)} {config : String}
    {t : Trace (Op Text) (Host Text)} (h : Wrote before config t) {ρ : Type} {c : Op Text ρ}
    {w : Host Text} : Wrote before config (t.push c w) := by
  obtain ⟨l, l', hcalls⟩ := h
  refine ⟨l, l' ++ [⟨ρ, c⟩], ?_⟩
  rw [Trace.push, hcalls, List.append_assoc]
  rfl

section Written

variable [Ipnet] {vips : String → Option (String × ℕ)} {r : Reconciler} {config : String}
variable {before : List (Σ ρ : Type, Op Text ρ)}

/-- The blocks of some ingresses are those under the service table. -/
theorem wp_ingressBackends_blocksOf (entries : List (String × IngressRecord)) :
    ∀ {t : Trace (Op Text) (Host Text)}, t.Since before (Op.Renders config) →
      (Reconciler.ingressBackends entries : Method Text _).wp
        (Host.under fun x c _ _ => c.Follows vips x)
        (fun result r' t' => result = .ok (Reconciler.blocksOf vips entries) ∧ r' = r ∧
          t'.Since before (Op.Renders config))
        (fun _ t' => t'.Since before (Op.Renders config)) r t := by
  induction entries with
  | nil => exact fun ht => ⟨rfl, rfl, ht⟩
  | cons entry rest ih =>
    intro t ht
    obtain ⟨name, record⟩ := entry
    rw [Reconciler.ingressBackends_cons, Proc.wp_ask_bind]
    refine ⟨ht, fun x hx => ?_⟩
    have hcall : (Host.under fun x (c : Op Text _) _ _ => c.Follows vips x).call x
        (.serviceVip record.spec.spec.backend.service) t.world = (x.vip, t.world) := rfl
    have hvip : x.vip = vips record.spec.spec.backend.service := hx
    rw [hcall, hvip, Proc.wp_bind]
    refine Proc.wp_mono ?_ (fun _ _ h => h) (ih (ht.after trivial))
    rintro result r' t' ⟨rfl, rfl, ht'⟩
    rw [Reconciler.blocksOf_cons]
    exact ⟨rfl, rfl, ht'⟩

/-- The config of some backends is written, and nothing else. -/
theorem wp_publish {backends : List Reconciler.IngressBackendConfig}
    {t : Trace (Op Text) (Host Text)}
    (ht : t.Since before (Op.Renders (Reconciler.renderNginxConfig backends))) :
    (Reconciler.publish backends : Method Text Unit).wp
      (Host.under fun x c _ _ => c.Follows vips x)
      (fun _ _ t' => t'.Since before (Op.Renders (Reconciler.renderNginxConfig backends)) ∧
        Wrote before (Reconciler.renderNginxConfig backends) t')
      (fun _ t' => t'.Since before (Op.Renders (Reconciler.renderNginxConfig backends))) r t := by
  have hwritten : ∀ w, (t.push (.writeConfig "keel-ingress"
      (Reconciler.renderNginxConfig backends)) w).Since before
        (Op.Renders (Reconciler.renderNginxConfig backends)) := fun w => ht.push rfl
  have htested : ∀ w w', ((t.push (.writeConfig "keel-ingress"
      (Reconciler.renderNginxConfig backends)) w).push (.testConfig "keel-ingress") w').Since before
        (Op.Renders (Reconciler.renderNginxConfig backends)) :=
    fun w w' => (hwritten w).push trivial
  have hwrote : ∀ w, Wrote before (Reconciler.renderNginxConfig backends)
      (t.push (.writeConfig "keel-ingress" (Reconciler.renderNginxConfig backends)) w) := by
    intro w
    obtain ⟨l, hl, -⟩ := ht
    refine ⟨l, [], ?_⟩
    rw [Trace.push, hl]
  rw [Reconciler.publish]
  simp only [Proc.bind_eq]
  rw [Proc.wp_ask_bind]
  refine ⟨ht, fun written _ => ?_⟩
  split
  · rw [Proc.wp_ask_bind]
    refine ⟨hwritten _, fun tested _ => ?_⟩
    split
    · rw [Proc.wp_ask_bind]
      exact ⟨htested _ _, fun reloaded _ => ⟨(htested _ _).after trivial, (hwrote _).push.push⟩⟩
    · exact ⟨htested _ _, (hwrote _).push⟩
  · exact ⟨hwritten _, hwrote _⟩

/-- **What a pass writes** is the config of its ingresses under the
service table, and it does write it. -/
theorem wp_reconcileIngressConfig (p : Pass) {t : Trace (Op Text) (Host Text)} :
    (Reconciler.reconcileIngressConfig p : Method Text Unit).wp
      (Host.under fun x c _ _ => c.Follows vips x)
      (fun _ _ t' => t'.Since t.calls (Op.Renders (Reconciler.renderNginxConfig
          (Reconciler.blocks r.ingressRecords vips p.ingressOrder))) ∧
        Wrote t.calls (Reconciler.renderNginxConfig
          (Reconciler.blocks r.ingressRecords vips p.ingressOrder)) t')
      (fun _ t' => t'.Since t.calls (Op.Renders (Reconciler.renderNginxConfig
          (Reconciler.blocks r.ingressRecords vips p.ingressOrder)))) r t := by
  rw [Reconciler.reconcileIngressConfig_eq, Reconciler.serverBlocks]
  simp only [Proc.bind_eq, Proc.bind_assoc]
  rw [Proc.wp_get_bind, Proc.wp_bind]
  refine Proc.wp_mono ?_ (fun _ _ h => h)
    (wp_ingressBackends_blocksOf (r.ingressRecords.iter p.ingressOrder) t.since_self)
  rintro result r' t' ⟨rfl, rfl, hsince⟩
  exact wp_publish hsince

/-- A pass under a service table writes the config of its ingresses,
unless the machine goes down before. -/
theorem run_reconcileIngressConfig {choices : ℕ → Option (Outcome Text)} {p : Pass}
    {t : Trace (Op Text) (Host Text)}
    (hfollows : (Reconciler.reconcileIngressConfig p : Method Text Unit).Allowed
      (Host.under fun x c _ _ => c.Follows vips x) choices r t) :
    ∀ ending t', (Reconciler.reconcileIngressConfig p : Method Text Unit).run Host.outside choices
        r t = (ending, t') →
      t'.Since t.calls (Op.Renders (Reconciler.renderNginxConfig
        (Reconciler.blocks r.ingressRecords vips p.ingressOrder))) ∧
      ∀ result r', ending = .returned result r' → Wrote t.calls (Reconciler.renderNginxConfig
        (Reconciler.blocks r.ingressRecords vips p.ingressOrder)) t' := by
  intro ending t' hrun
  have hmeets := Proc.wp_run (wp_reconcileIngressConfig p) hfollows
  rw [Host.run_under, hrun] at hmeets
  cases ending with
  | returned result r' => exact ⟨hmeets.1, fun _ _ _ => hmeets.2⟩
  | stopped stop => exact ⟨hmeets, fun _ _ h => by cases h⟩

/-- **The vhosts are the ingresses' own** exactly where the ports agree
and no two hosts do: a pass writes the blocks of its ingresses under the
service table, and these are what was declared if and only if every port
is the service's and no host is claimed twice. -/
theorem vhosts_faithful_iff (records : Table IngressRecord)
    (vips : String → Option (String × ℕ)) :
    (∀ (r : Reconciler) (p : Pass) (choices : ℕ → Option (Outcome Text))
      (t : Trace (Op Text) (Host Text)), r.ingressRecords = records →
      (Reconciler.reconcileIngressConfig p : Method Text Unit).Allowed
        (Host.under fun x c _ _ => c.Follows vips x) choices r t →
      ∀ ending t', (Reconciler.reconcileIngressConfig p : Method Text Unit).run Host.outside
          choices r t = (ending, t') →
        t'.Since t.calls (Op.Renders (Reconciler.renderNginxConfig
          (Reconciler.blocks records vips p.ingressOrder))) ∧
        ∀ result r', ending = .returned result r' → Wrote t.calls (Reconciler.renderNginxConfig
          (Reconciler.blocks records vips p.ingressOrder)) t') ∧
    (Reconciler.Faithful records vips ↔ Reconciler.Agrees records vips) := by
  refine ⟨?_, Reconciler.faithful_iff⟩
  rintro r p choices t rfl hfollows
  exact run_reconcileIngressConfig hfollows

end Written

/-! ## Two ingresses -/

/-- What is checked of a spec when it is applied. -/
def Accepted (spec : IngressSpec) : Prop :=
  validateName spec.metadata.name = .ok () ∧ validateHost spec.spec.host = .ok () ∧
    validateEmail spec.spec.tls.email = .ok () ∧ spec.spec.backend.port ≠ 0

namespace Sample

/-- The shop, on port 8080 of a service. -/
def shop : Table IngressRecord :=
  AList.insert "shop" ⟨ingress "shop" "shop.example" "web", none⟩ ∅

/-- And an ingress of another service for the same host, in other
letters. -/
def claimed : Table IngressRecord :=
  AList.insert "mirror" ⟨ingress "mirror" "Shop.example" "db", none⟩ shop

/-- Two services, each on a VIP of its own, on one port. -/
def tableOn (port : ℕ) (service : String) : Option (String × ℕ) :=
  if service = "web" then some ("10.0.250.7", port)
  else if service = "db" then some ("10.0.250.8", port)
  else none

end Sample

/-- Two accepted ingresses. Where its service is on port 80 the shop is
proxied there, whatever it declares; and once its host is claimed twice,
its traffic goes where the order of a hash map has it. -/
theorem vhosts_mismatch :
    Accepted (Sample.ingress "shop" "shop.example" "web") ∧
    Accepted (Sample.ingress "mirror" "Shop.example" "db") ∧
    ¬ Reconciler.Faithful Sample.shop (Sample.tableOn 80) ∧
    ¬ Reconciler.Faithful Sample.claimed (Sample.tableOn 8080) := by
  refine ⟨⟨rfl, rfl, rfl, by decide⟩, ⟨rfl, rfl, rfl, by decide⟩, fun h => ?_, fun h => ?_⟩
  · obtain ⟨b, hb, -, -, hport⟩ := h.served .listed "shop" _ "10.0.250.7" 80 rfl rfl
    have hports : ∀ b ∈ Reconciler.blocks Sample.shop (Sample.tableOn 80) .listed, b.port ≠ 8080 := by
      decide +kernel
    exact hports b hb hport
  · have horder := h.settled .listed ⟨List.reverse, List.reverse_perm⟩ "shop.example"
    revert horder
    decide +kernel

end Node

end Keel
