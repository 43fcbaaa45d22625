import Keel.Node.Helpers.Ledger
/-!
# Sturdy records

What a record must be for the reconciler not to panic on it, and what the
methods come to while no ingress is on record.
-/

namespace Keel

namespace Node

open Agent (JailRecord)

/-! ## The gateway -/

section Gateway

variable [Ipnet]

/-- An address the gateway can be computed from: an IPv4 network other
than the last address there is. -/
def GatewayFits (address : String) : Prop :=
  ∃ net, parseIpv4Net address = .ok net ∧ net.network ≠ BitVec.allOnes 32

/-- **Exactly these** have a gateway. -/
theorem exists_bridgeGateway_iff {address : String} :
    (∃ gateway, bridgeGateway address = .ok gateway) ↔ GatewayFits address := by
  have hroom : ∀ a : Ipv4Addr, a ≠ BitVec.allOnes 32 ↔ a.toNat + 1 < 2 ^ 32 := by
    intro a
    have hlt := a.isLt
    rw [Ne, ← BitVec.toNat_inj, BitVec.toNat_allOnes]
    omega
  rw [GatewayFits, bridgeGateway]
  cases hnet : parseIpv4Net address with
  | error e => simp
  | ok net =>
    simp only [Except.ok.injEq, exists_eq_left', hroom]
    constructor
    · rintro ⟨gateway, hgateway⟩
      obtain ⟨sum, hsum, -⟩ := bind_eq_ok.1 hgateway
      rw [Checked.add] at hsum
      split at hsum
      · assumption
      · cases hsum
    · intro hlt
      exact ⟨_, by rw [Checked.add_of_lt hlt]; rfl⟩

end Gateway

/-! ## What is on record -/

section Sturdy

variable [Ipnet]

/-- A record the worker cannot panic on. -/
structure Sturdy (record : JailRecord) : Prop where
  valid : Validated record
  fits : GatewayFits record.spec.spec.network.address
  ordinal : record.epairOrdinal + 1 < 2 ^ 32

/-- The first half of the checks of an apply are those a sum relies on. -/
theorem Validated.resources {record : JailRecord} (h : Validated record) :
    (∃ cores, parseCpuCores record.spec.spec.resources.cpu = .ok cores) ∧
      ∃ memoryBytes, parseMemoryBytes record.spec.spec.resources.memory = .ok memoryBytes := by
  simp only [Validated, Reconciler.validate, bind_eq_ok] at h
  obtain ⟨-, -, -, -, cores, hcores, memoryBytes, hmemory, -⟩ := h
  exact ⟨⟨cores, hcores⟩, memoryBytes, hmemory⟩

/-- A retargeted record is as sturdy. -/
theorem Sturdy.retarget {record : JailRecord} (h : Sturdy record) (replicateTo : Option String) :
    Sturdy (retarget record replicateTo) :=
  ⟨h.valid, h.fits, h.ordinal⟩

theorem admits_sturdy {r : Reconciler} {spec : JailSpec}
    (h : Reconciler.validate spec = .ok () → r.records.lookup spec.metadata.name = none →
      GatewayFits spec.spec.network.address) : Admits Sturdy r spec := by
  constructor
  · intro hvalid hnew hroom
    exact ⟨hvalid, h hvalid hnew, hroom⟩
  · intro hvalid old _ htransition hold
    have haddress : spec.spec.network.address = old.spec.spec.network.address :=
      (fixed_of_validateTransition htransition).address
    refine ⟨hvalid, ?_, hold.ordinal⟩
    change GatewayFits spec.spec.network.address
    rw [haddress]
    exact hold.fits

end Sturdy

/-! ## The methods -/

section Methods

variable {Text : Type}

/-- No ingress is on record. -/
def NoIngress (r : Reconciler) : Prop := r.ingressRecords.entries = []

theorem Op.OfFile.leavesIngress {name : String} {ρ : Type} {c : Op Text ρ}
    (h : c.OfFile .state name) : c.Leaves .ingress := by
  have hother : ∀ {d : Dir}, d = .state → d ≠ .ingress := by
    rintro d rfl hd
    cases hd
  cases c <;> first | exact trivial | exact h.elim | exact hother h.1

theorem Op.OfConfig.leaves {dir : Dir} {ρ : Type} {c : Op Text ρ} (h : c.OfConfig) :
    c.Leaves dir := by
  cases c <;> first | exact trivial | exact h.elim

variable {R : {ρ : Type} → Op Text ρ → ρ → Prop} {N : Prop} {r : Reconciler}

theorem steady_delete {name : String} :
    (Reconciler.delete name : Method Text Unit).Keeps (Op.Leaves .ingress) R N NoIngress := by
  refine Proc.keeps_bind Reconciler.keeps_find fun record => Proc.keeps_get_bind fun r _ => ?_
  refine Proc.keeps_bind (Reconciler.keeps_tearDownJail.imp (fun _ => Op.OfJail.leaves)
    fun _ _ _ h => h) fun _ => ?_
  refine Proc.keeps_bind (Reconciler.keeps_removeYaml.imp (fun _ => Op.OfFile.leavesIngress)
    fun _ _ _ h => h) fun _ => ?_
  exact Proc.keeps_modify fun r hr => hr

/-- Without ingresses there is none to delete. -/
theorem steady_deleteIngress {name : String} (hr : NoIngress r) :
    (Reconciler.deleteIngress name : Method Text Unit).Makes (Op.Leaves .ingress) R N
      (fun _ r' => NoIngress r') r := by
  have hnone : name ∉ r.ingressRecords := by
    intro hmem
    rw [AList.mem_keys, AList.keys, show r.ingressRecords.entries = [] from hr] at hmem
    cases hmem
  rw [Reconciler.deleteIngress, Proc.bind_eq, Proc.makes_bind, Proc.makes_get]
  dsimp only
  rw [if_neg hnone]
  exact hr

variable [SerdeYaml Text JailRecord]

theorem steady_keep {name : String} {record : JailRecord} :
    (Reconciler.keep name record : Method Text Unit).Keeps (Op.Leaves .ingress) R N NoIngress :=
  Proc.keeps_bind (Reconciler.keeps_save fun _ => Op.OfFile.leavesIngress) fun _ =>
    Proc.keeps_modify fun _ hr => hr

theorem steady_setReplicateTo {name : String} {replicateTo : Option String} :
    (Reconciler.setReplicateTo name replicateTo : Method Text Unit).Keeps (Op.Leaves .ingress) R N
      NoIngress :=
  Proc.keeps_bind Reconciler.keeps_find fun _ => steady_keep

variable [Ipnet]

/-- An apply panics only where there is no room for an ordinal. -/
theorem steady_apply {spec : JailSpec} (hr : NoIngress r)
    (hroom : Reconciler.validate spec = .ok () → r.records.lookup spec.metadata.name = none →
      r.nextEpairOrdinal + 1 < 2 ^ 32) :
    (Reconciler.apply spec : Method Text Unit).Makes (Op.Leaves .ingress) R N
      (fun _ r' => NoIngress r') r := by
  rw [Reconciler.apply, Proc.bind_eq, Proc.makes_bind]
  cases hvalid : Reconciler.validate spec with
  | error e => exact hr
  | ok u =>
    simp only [Proc.ofExcept, Proc.makes_ret]
    rw [Proc.bind_eq, Proc.makes_bind, Reconciler.takeOrdinal, Proc.bind_eq, Proc.makes_bind,
      Proc.makes_get]
    cases hlookup : r.records.lookup spec.metadata.name with
    | some existing =>
      simp only [hlookup]
      cases validateTransition existing.spec spec with
      | error e => exact hr
      | ok u => exact steady_keep r hr
    | none =>
      simp only [hlookup]
      rw [Checked.add_of_lt (hroom hvalid hlookup)]
      exact steady_keep { r with nextEpairOrdinal := r.nextEpairOrdinal + 1 } hr

variable [SerdeYaml Text IngressRecord]

/-- Without ingresses there is no jail to serve them, and no certificate
to renew. -/
theorem makes_reconcileIngresses {p : Pass} (hr : NoIngress r) :
    (Reconciler.reconcileIngresses p : Method Text Unit).Makes Op.OfConfig R N
      (fun _ r' => r' = r) r := by
  have hkeys : p.ingressOrder.apply r.ingressRecords.keys = [] := by
    have hnil : r.ingressRecords.keys = [] := by
      rw [AList.keys, show r.ingressRecords.entries = [] from hr]
      rfl
    rw [hnil]
    exact (p.ingressOrder.perm []).eq_nil
  have hcerts : (Reconciler.reconcileCerts p : Method Text Unit).Makes Op.OfConfig R N
      (fun _ r' => r' = r) r := by
    rw [Reconciler.reconcileCerts, Proc.bind_eq, Proc.makes_bind, Proc.makes_get]
    dsimp only
    rw [hkeys]
    exact rfl
  rw [Reconciler.reconcileIngresses]
  simp only [Proc.bind_eq]
  rw [Proc.makes_bind, Proc.makes_attempt]
  refine Proc.makes_mono ?_ (Reconciler.makes_ensureIngressJail (Or.inl hr))
  rintro result r₁ rfl
  dsimp only
  rw [Proc.makes_bind]
  refine Proc.makes_mono ?_ hcerts
  rintro (e | u) r₂ rfl
  · rfl
  · exact Reconciler.keeps_reconcileIngressConfig (K := fun r' => r' = r₂) r₂ rfl

omit [SerdeYaml Text JailRecord] [SerdeYaml Text IngressRecord] in
/-- The config of the ingress jail is written to it, and nothing else. -/
theorem Op.OfConfig.call_snd {ρ : Type} {c : Op Text ρ} (hc : c.OfConfig) (x : Outcome Text)
    (h : Host Text) : ∃ nginxConfig, (Host.call x c h).2 = { h with nginxConfig } := by
  rcases Host.call_snd x c h with heq | heq
  · exact ⟨h.nginxConfig, heq⟩
  rw [heq]
  cases c <;> first | exact ⟨_, rfl⟩ | exact hc.elim

variable {allows : {ρ : Type} → Outcome Text → Op Text ρ → Reconciler → Host Text → Prop}
variable {l : Ledger} {t : Trace (Op Text) (Host Text)}

/-- Nothing comes of serving no ingress but a config. -/
theorem wp_reconcileIngresses_idle {p : Pass} (hingress : NoIngress r) :
    (Reconciler.reconcileIngresses p : Method Text Unit).wp (Host.under allows)
      (fun result r' t' => result = .ok () ∧ r' = r ∧
        ∃ nginxConfig, t'.world = { t.world with nginxConfig })
      (fun x _ => x = .crashed) r t := by
  refine Proc.wp_mono ?_ ?_ (Proc.wp_of_neverFails Reconciler.neverFails_reconcileIngresses
    (Proc.wp_of_makes (I := fun w => ∃ nginxConfig, w = { t.world with nginxConfig })
      (R := fun _ _ => True) (N := False) ?_ (makes_reconcileIngresses hingress)
      ⟨t.world.nginxConfig, rfl⟩ t.since_self))
  · rintro _ r' t' ⟨u, rfl, hr', ht', -⟩
    exact ⟨rfl, hr', ht'⟩
  · rintro x t' ⟨hx | hx, -⟩
    · exact hx
    · exact hx.elim
  · rintro ρ x c s w hc ⟨nginxConfig, rfl⟩ -
    obtain ⟨nginxConfig', hcall⟩ := hc.call_snd x { t.world with nginxConfig }
    exact ⟨trivial, nginxConfig', hcall⟩

/-! ## A start -/

omit [SerdeYaml Text JailRecord] [Ipnet] [SerdeYaml Text IngressRecord] in
theorem exists_firstFreeOrdinal {loaded : List JailRecord}
    (h : ∀ record ∈ loaded, record.epairOrdinal + 1 < 2 ^ 32) :
    ∃ next, Reconciler.firstFreeOrdinal loaded = .ok next := by
  rw [Reconciler.firstFreeOrdinal]
  cases hmax : (loaded.map JailRecord.epairOrdinal).max? with
  | none => exact ⟨1, rfl⟩
  | some m =>
    obtain ⟨record, hrecord, rfl⟩ := List.mem_map.1 (List.max?_mem hmax)
    exact ⟨_, Checked.add_of_lt (h record hrecord)⟩

/-- **A start** on sturdy records, with no ingress to read. -/
theorem steady_new (pool : String) (h : Holds t.world.stateDir l.records) (hl : l.Sound Sturdy)
    (hingress : ∀ file content, t.world.ingressDir.lookup file = some content →
      extension file ≠ some "yaml") :
    (Reconciler.new pool : Method Text Unit).wp (Host.under allows)
      (fun result r' t' => t'.world = t.world ∧ (result = .ok () → NoIngress r'))
      (fun x t' => x = .crashed ∧ t'.world = t.world) r t := by
  rw [Reconciler.new]
  simp only [Proc.bind_eq]
  refine Proc.wp_seq (wp_loadAll h) ?_ ?_ fun _ _ hx => hx
  · rintro loaded r₁ t₁ ⟨-, ht₁, hmem, -⟩
    obtain ⟨next, hnext⟩ : ∃ next, Reconciler.firstFreeOrdinal loaded = .ok next := by
      refine exists_firstFreeOrdinal fun record hrecord => ?_
      obtain ⟨name, hname⟩ := (hmem record).1 hrecord
      exact (hl.record name record hname).ordinal
    rw [hnext, Proc.ofChecked, Proc.ret_bind]
    refine Proc.wp_seq (wp_loadYaml_none (by rw [ht₁]; exact hingress)) ?_ ?_ ?_
    · rintro ingresses r₂ t₂ ⟨-, ht₂, hnone⟩
      refine ⟨ht₂.trans ht₁, fun _ => ?_⟩
      rw [hnone ingresses rfl]
      rfl
    · rintro e r₂ t₂ ⟨-, ht₂, -⟩
      exact ⟨ht₂.trans ht₁, fun he => by cases he⟩
    · rintro x t₂ ⟨hx, ht₂⟩
      exact ⟨hx, ht₂.trans ht₁⟩
  · rintro e r₁ t₁ ⟨-, ht₁, -⟩
    exact ⟨ht₁, fun he => by cases he⟩

end Methods

end Node

end Keel
