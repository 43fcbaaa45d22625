import Keel.Agent.Model.Http
import Keel.Node.Helpers.Sturdy
/-!
# What the worker can panic on

The address of a spec is read twice: as any network when the spec is
accepted, and as an IPv4 network when its jail is attached, where the
network's first host address is computed too. A spec can pass the first
and panic the second. Where every accepted address is an IPv4 network with
room above it, and the other arithmetic has room, no step of the worker
panics, whatever the machine answers and however often it is started.
-/

namespace Keel

namespace Node

open Agent (JailRecord)

/-! ## What may panic -/

section Gateway

variable [Ipnet] {Text : Type}

/-- An attach at such an address comes to an answer. -/
def Op.Attaches : {ρ : Type} → Op Text ρ → ρ → Prop
  | _, .attachJail _ _ _ address, answer => GatewayFits address → ∃ result, answer = .ok result
  | _, _, _ => True

theorem Op.attaches_call {ρ : Type} (x : Outcome Text) (c : Op Text ρ) (h : Host Text) :
    c.Attaches (Host.call x c h).1 := by
  cases c with
  | attachJail jail bridge epair address =>
    intro hfits
    obtain ⟨gateway, hgateway⟩ := exists_bridgeGateway_iff.2 hfits
    cases hfails : x.fails with
    | some m =>
      simp only [Host.call, hfails]
      exact ⟨_, rfl⟩
    | none =>
      simp only [Host.call, hfails, Host.attachJail]
      split
      · simp only [hgateway]
        exact ⟨_, rfl⟩
      · exact ⟨_, rfl⟩
  | _ => trivial

theorem attachPanics_of_fits {address : String} (h : GatewayFits address) :
    Reconciler.AttachPanics (Op.Attaches : {ρ : Type} → Op Text ρ → ρ → Prop) False address := by
  intro jail bridge epair p hp
  obtain ⟨result, hresult⟩ := hp h
  cases hresult

end Gateway

section Sums

variable [Ipnet]

/-- The memory of some jails, in bytes. -/
def memoryTotal (records : List JailRecord) : ℕ :=
  (records.map fun record =>
    (parseMemoryBytes record.spec.spec.resources.memory).toOption.getD 0).sum

/-- What is asked of an operation: a new record's address has a gateway,
there is room for its ordinal, and there is room for the memory summed. -/
def Operation.Fits (r : Reconciler) : Operation → Prop
  | .apply spec => Reconciler.validate spec = .ok () →
      r.records.lookup spec.metadata.name = none →
      GatewayFits spec.spec.network.address ∧ r.nextEpairOrdinal + 1 < 2 ^ 32
  | .committedResources order => memoryTotal ((r.records.iter order).map Prod.snd) < 2 ^ 64
  | _ => True

/-- The `expect`s of a sum hold, and it panics only past 64 bits. -/
theorem exists_committed {records : List JailRecord} (hvalid : ∀ record ∈ records, Validated record) :
    ∀ {cpu : ℚ} {mem : ℕ}, mem + memoryTotal records < 2 ^ 64 →
      ∃ total, Reconciler.committed records cpu mem = .ok total := by
  induction records with
  | nil => exact fun _ => ⟨_, rfl⟩
  | cons record records ih =>
    intro cpu mem hroom
    obtain ⟨⟨cores, hcores⟩, memoryBytes, hmemory⟩ :=
      (hvalid record List.mem_cons_self).resources
    have htotal : memoryTotal (record :: records) = memoryBytes + memoryTotal records := by
      rw [memoryTotal, List.map_cons, List.sum_cons, hmemory]
      rfl
    rw [htotal] at hroom
    have hsum : mem + memoryBytes < 2 ^ 64 := by omega
    obtain ⟨total, htotal⟩ :
        ∃ total, Reconciler.committed records (cpu + cores) (mem + memoryBytes) = .ok total :=
      ih (fun a ha => hvalid a (List.mem_cons_of_mem record ha)) (by omega)
    refine ⟨total, ?_⟩
    rw [Reconciler.committed, hcores, hmemory]
    simp only [Except.toOption, Checked.expect]
    change (Checked.add 64 mem memoryBytes >>= _) = _
    rw [Checked.add_of_lt hsum]
    exact htotal

end Sums

/-! ## The methods -/

section Methods

variable {Text : Type} [Ipnet] [SerdeYaml Text JailRecord] [SerdeYaml Text IngressRecord]
variable {r : Reconciler}

/-- **A pass** over sturdy records. -/
theorem steady_reconcile {p : Pass} (hr : NoIngress r)
    (hsturdy : ∀ name record, r.records.lookup name = some record → Sturdy record) :
    (Reconciler.reconcile p : Method Text _).Makes (Op.Leaves .ingress) Op.Attaches False
      (fun _ r' => NoIngress r') r := by
  rw [Reconciler.reconcile, Proc.bind_eq, Proc.makes_bind]
  refine Proc.makes_mono ?_ (Proc.makes_imp (fun _ => Op.OfConfig.leaves) (fun _ _ _ h => h)
    (makes_reconcileIngresses hr))
  rintro (e | u) r₁ rfl
  · exact hr
  · have hall : (Reconciler.reconcileAll p.now (p.order.apply r₁.records.keys) :
        Method Text _).Keeps (Op.Leaves .ingress) Op.Attaches False
        (fun r' => r'.records = r₁.records ∧ NoIngress r') := by
      refine Reconciler.keeps_reconcileAll fun name hname => ?_
      refine Reconciler.keeps_reconcileOne (fun _ _ _ _ _ _ => Op.OfJail.leaves) ?_ ?_
      · intro r₂ r₃ hr₂ hr₃
        refine ⟨hr₃.records.trans hr₂.1, ?_⟩
        rw [NoIngress, hr₃.ingressRecords]
        exact hr₂.2
      · rintro r₂ ⟨hrecords, -⟩
        rw [hrecords]
        refine ⟨fun hnone => ?_, fun record hrecord => ?_⟩
        · exact AList.lookup_eq_none.1 hnone (AList.mem_keys.2 (p.order.mem_apply.1 hname))
        · exact attachPanics_of_fits (hsturdy name record hrecord).fits
    exact Proc.makes_mono (fun _ _ hr' => hr'.2) (hall r₁ ⟨rfl, hr⟩)

/-- **No method panics** on sturdy records, where it fits. -/
theorem Operation.steady {op : Operation} (hr : NoIngress r)
    (hsturdy : ∀ name record, r.records.lookup name = some record → Sturdy record)
    (hingress : ∀ spec, op ≠ .applyIngress spec) (hfits : op.Fits r) :
    (op.method : Method Text Unit).Makes (Op.Leaves .ingress) Op.Attaches False
      (fun _ r' => NoIngress r') r := by
  cases op with
  | apply spec => exact steady_apply hr fun hvalid hnew => (hfits hvalid hnew).2
  | delete name => exact steady_delete r hr
  | setReplicateTo name replicateTo => exact steady_setReplicateTo r hr
  | applyIngress spec => exact absurd rfl (hingress spec)
  | deleteIngress name => exact steady_deleteIngress hr
  | ensureIngressJail =>
    exact Proc.makes_mono (fun _ r' hr' => hr' ▸ hr) (Reconciler.makes_ensureIngressJail (Or.inl hr))
  | reconcile p =>
    refine Proc.makes_bind.2 (Proc.makes_mono ?_ (steady_reconcile hr hsturdy))
    rintro (e | failures) r' hr'
    · exact hr'
    · exact hr'
  | get name now =>
    exact Proc.keeps_bind (Reconciler.keeps_get fun _ => trivial) (fun _ => Proc.keeps_ret) r hr
  | list now =>
    exact Proc.keeps_bind (Reconciler.keeps_list fun _ => trivial) (fun _ => Proc.keeps_ret) r hr
  | committedResources order =>
    have hvalid : ∀ record ∈ (r.records.iter order).map Prod.snd, Validated record := by
      intro record hrecord
      obtain ⟨⟨name, record⟩, hmem, rfl⟩ := List.mem_map.1 hrecord
      exact (hsturdy name record (Table.mem_iter.1 hmem)).valid
    obtain ⟨total, htotal⟩ : ∃ total,
        Reconciler.committed ((r.records.iter order).map Prod.snd) 0 0 = .ok total := by
      refine exists_committed hvalid ?_
      rw [Nat.zero_add]
      exact hfits
    refine Proc.makes_mono (fun _ r' hr' => hr' ▸ hr) (Proc.keeps_bind
      (Reconciler.keeps_committedResources (K := fun r' => r' = r) ?_) (fun _ => Proc.keeps_ret)
      r rfl)
    intro r' p hr' hpanic
    rw [hr', htotal] at hpanic
    cases hpanic
  | getVolume name => exact Reconciler.keeps_getVolume (fun _ => trivial) r hr
  | deleteVolume name => exact Proc.keeps_get_bind (fun _ _ => Proc.keeps_tryCall trivial) r hr
  | addRoute subnet gatewayAddr => exact Proc.keeps_tryCall trivial r hr
  | removeRoute subnet => exact Proc.keeps_tryCall trivial r hr
  | addAlias bridge address => exact Proc.keeps_tryCall trivial r hr
  | removeAlias bridge address => exact Proc.keeps_tryCall trivial r hr

end Methods

/-! ## An agent's life -/

/-- The event makes the worker panic. -/
def System.Panics {Text O W H : Type} [Ipnet] [SerdeYaml Text JailRecord]
    [SerdeYaml Text IngressRecord] (world : World Text O W H) (sys : System Text W) :
    Event H → Prop
  | .operation op => ∃ r p t, sys.memory = some r ∧
      op.method.run world.out world.choices r sys.trace = (.stopped (.panicked p), t)
  | .start => sys.memory = none ∧ ∃ p t, (Reconciler.new world.pool).run world.out world.choices
      (Reconciler.blank world.pool) sys.trace = (.stopped (.panicked p), t)
  | .kill => False
  | .outside _ => False

section Life

variable {Text : Type}

/-- What keeps an agent poised, besides its records. -/
def System.KeepsOff (files : Table Text) (sys : System Text (Host Text)) : Prop :=
  (∀ r, sys.memory = some r → NoIngress r) ∧ sys.trace.world.ingressDir = files

theorem keepsOff_up {files : Table Text} {r : Reconciler} {t : Trace (Op Text) (Host Text)}
    (hr : NoIngress r) (ht : t.world.ingressDir = files) : System.KeepsOff files ⟨some r, t⟩ := by
  refine ⟨fun r' hr' => ?_, ht⟩
  cases hr'
  exact hr

theorem keepsOff_down {files : Table Text} {t : Trace (Op Text) (Host Text)}
    (ht : t.world.ingressDir = files) : System.KeepsOff files ⟨none, t⟩ := by
  refine ⟨fun r' hr' => ?_, ht⟩
  cases hr'

variable [Ipnet] [SerdeYaml Text JailRecord] [SerdeYaml Text IngressRecord]

/-- Sturdy records and no ingress, in memory and on disk. -/
structure System.Poised (sys : System Text (Host Text)) : Prop where
  tracks : ∃ l, sys.Tracks Sturdy l
  noIngress : ∀ r, sys.memory = some r → NoIngress r
  ingressDir : ∀ file content, sys.trace.world.ingressDir.lookup file = some content →
    extension file ≠ some "yaml"

/-- **One event** that fits does not panic, and leaves the agent poised. -/
theorem System.Poised.step (pool : String) (choices : ℕ → Option (Outcome Text))
    {sys : System Text (Host Text)} (h : sys.Poised) {e : Event Exit}
    (hjails : ∀ spec, e ≠ .operation (.applyIngress spec))
    (hfits : ∀ r op, sys.memory = some r → e = .operation op → op.Fits r) :
    ¬ sys.Panics (Host.world pool choices) e ∧
      (sys.step (Host.world pool choices) e).Poised := by
  obtain ⟨l, hl⟩ := h.tracks
  obtain ⟨l', hl', -⟩ := hl.step pool choices e
    (fun r spec hr he => admits_sturdy fun hvalid hnew => (hfits r (.apply spec) hr he hvalid hnew).1)
    (fun _ replicateTo hrecord => hrecord.retarget replicateTo)
    (fun r hr hne => absurd (h.noIngress r hr) hne)
  -- what is left is what the ledger does not say
  suffices hrest : ¬ sys.Panics (Host.world pool choices) e ∧
      (sys.step (Host.world pool choices) e).KeepsOff sys.trace.world.ingressDir by
    refine ⟨hrest.1, ⟨l', hl'⟩, hrest.2.1, ?_⟩
    rw [hrest.2.2]
    exact h.ingressDir
  have hsame : sys.KeepsOff sys.trace.world.ingressDir := ⟨h.noIngress, rfl⟩
  cases e with
  | operation op =>
    cases hmemory : sys.memory with
    | none =>
      refine ⟨?_, ?_⟩
      · rintro ⟨r, p, t, hr, -⟩
        cases hmemory.symm.trans hr
      · simpa only [System.step, hmemory] using hsame
    | some r =>
      have hsteady : (op.method : Method Text Unit).Makes (Op.Leaves .ingress) Op.Attaches False
          (fun _ r' => NoIngress r') r := by
        refine op.steady (h.noIngress r hmemory) (fun name record hrecord => ?_)
          (fun spec hspec => hjails spec (by rw [hspec])) (hfits r op hmemory rfl)
        rw [(hl.memory r hmemory).records] at hrecord
        exact hl.sound.record name record hrecord
      have hmeets : Ended.Meets _ _ (op.method.run Host.outside choices r sys.trace) :=
        Host.meets_of_wp (Proc.wp_of_makes
          (I := fun w => w.dir .ingress = sys.trace.world.dir .ingress)
          (fun x c s w hc hw _ => ⟨Op.attaches_call x c w, (Host.dir_call x w hc).trans hw⟩)
          hsteady rfl (Trace.since_self _))
      constructor
      · rintro ⟨r', p, t, hr', hrun⟩
        cases hmemory.symm.trans hr'
        rw [show op.method.run Host.outside choices r sys.trace = _ from hrun] at hmeets
        rcases hmeets.1 with hcrash | hnever
        · cases hcrash
        · exact hnever
      · simp only [System.step, hmemory]
        exact System.of_ended hmeets (fun _ _ _ hq => keepsOff_up hq.1 hq.2.1)
          fun _ _ hx => keepsOff_down hx.2.1
  | start =>
    cases hmemory : sys.memory with
    | some r =>
      refine ⟨?_, ?_⟩
      · rintro ⟨hdown, -⟩
        cases hmemory.symm.trans hdown
      · simpa only [System.step, hmemory] using hsame
    | none =>
      have hmeets : Ended.Meets _ _ ((Reconciler.new pool).run Host.outside choices
          (Reconciler.blank pool) sys.trace) :=
        Host.meets_of_wp (steady_new pool hl.holds hl.sound h.ingressDir)
      constructor
      · rintro ⟨-, p, t, hrun⟩
        rw [show (Reconciler.new pool).run Host.outside choices (Reconciler.blank pool) sys.trace =
          _ from hrun] at hmeets
        cases hmeets.1
      · simp only [System.step, hmemory]
        exact System.of_started hmeets (fun _ _ hq => keepsOff_up (hq.2 rfl) (by rw [hq.1]))
          (fun _ _ _ hq => keepsOff_down (by rw [hq.1])) fun _ _ hx => keepsOff_down (by rw [hx.2])
  | kill => exact ⟨id, keepsOff_down rfl⟩
  | outside x =>
    obtain ⟨jail⟩ := x
    obtain ⟨jails, hjails⟩ := sys.trace.world.withJail_eq jail
      fun jail => { jail with running := false }
    refine ⟨id, h.noIngress, ?_⟩
    change (Host.happens (.exits jail) sys.trace.world).ingressDir = _
    rw [Host.happens, Host.markExited, hjails]

/-- **The worker never panics** as long as what it is given fits: over any
life of an agent that serves no ingress, on a machine any call may fail on
or go down at, if every new record's address has a gateway and every
sum has room, no event makes it panic. -/
theorem worker_steady (pool : String) (choices : ℕ → Option (Outcome Text)) (machine : Host Text)
    (hstate : ∀ file content, machine.stateDir.lookup file = some content →
      extension file ≠ some "yaml")
    (hingress : ∀ file content, machine.ingressDir.lookup file = some content →
      extension file ≠ some "yaml") (events : List (Event Exit))
    (hjails : ∀ spec, Event.operation (.applyIngress spec) ∉ events)
    (hfits : ∀ es op rest r, events = es ++ .operation op :: rest →
      (machine.life pool choices es).memory = some r → op.Fits r)
    (es : List (Event Exit)) (e : Event Exit) (rest : List (Event Exit))
    (hevents : events = es ++ e :: rest) :
    ¬ (machine.life pool choices es).Panics (Host.world pool choices) e := by
  have hpoised : ∀ es rest, events = es ++ rest → (machine.life pool choices es).Poised := by
    intro es
    induction es using List.reverseRecOn with
    | nil =>
      intro rest _
      exact ⟨⟨_, System.tracks_fresh hstate⟩, fun r hr => (by cases hr), hingress⟩
    | append_singleton es e ih =>
      intro rest hes
      rw [List.append_assoc, List.singleton_append] at hes
      have hstep := (ih (e :: rest) hes).step pool choices (e := e)
        (fun spec he => hjails spec (by rw [hes, he]; simp))
        (fun r op hr he => hfits es op rest r (by rw [hes, he]) hr)
      rw [Host.life, System.after_append]
      exact hstep.2
  refine ((hpoised es (e :: rest) hevents).step pool choices ?_ ?_).1
  · exact fun spec he => hjails spec (by rw [hevents, he]; simp)
  · exact fun r op hr he => hfits es op rest r (by rw [hevents, he]) hr

end Life

section

open Agent.Sample (jail)
open scoped Agent.Sample Node.Sample

/-- A jail applied, brought up, and summed. -/
theorem worker_steady_sample :
    (Sample.host.life "zroot" (Sample.failing 9)
      [.start, .operation (.apply (jail "db-0" none)),
        .operation (.reconcile (Sample.pass 0))]).memory.isSome = true ∧
    ¬ (Sample.host.life "zroot" (Sample.failing 9)
      [.start, .operation (.apply (jail "db-0" none)),
        .operation (.reconcile (Sample.pass 0))]).Panics
        (Host.world "zroot" (Sample.failing 9)) (.operation (.committedResources .listed)) := by
  have hgateway : GatewayFits (jail "db-0" none).spec.network.address :=
    ⟨⟨Ipv4Addr.ofOctets 10 0 9 9, 24, by decide⟩, by decide +kernel, by decide +kernel⟩
  have hordinal : (Sample.host.life "zroot" (Sample.failing 9) [.start]).memory.all
      (fun r => r.nextEpairOrdinal = 1) = true := by decide +kernel
  have hmemory : (Sample.host.life "zroot" (Sample.failing 9)
      [.start, .operation (.apply (jail "db-0" none)),
        .operation (.reconcile (Sample.pass 0))]).memory.all
      (fun r => memoryTotal ((r.records.iter .listed).map Prod.snd) < 2 ^ 64) = true := by
    decide +kernel
  refine ⟨by decide +kernel, ?_⟩
  refine worker_steady "zroot" (Sample.failing 9) Sample.host
    (fun file content hfile => by cases hfile) (fun file content hfile => by cases hfile)
    [.start, .operation (.apply (jail "db-0" none)), .operation (.reconcile (Sample.pass 0)),
      .operation (.committedResources .listed)] (by simp) ?_ _ _ [] rfl
  rintro (_ | ⟨e₀, _ | ⟨e₁, _ | ⟨e₂, _ | ⟨e₃, es⟩⟩⟩⟩) op rest r hevents hr
  · cases hevents
  · cases hevents
    intro _ _
    refine ⟨hgateway, ?_⟩
    rw [hr] at hordinal
    have hnext : r.nextEpairOrdinal = 1 := of_decide_eq_true hordinal
    omega
  · cases hevents
    trivial
  · cases hevents
    rw [hr] at hmemory
    change memoryTotal ((r.records.iter .listed).map Prod.snd) < 2 ^ 64
    exact of_decide_eq_true hmemory
  · simp at hevents

end

/-! ## Two specs it panics on -/

/-- A panic, from a run. -/
theorem System.panics_of_isPanic {Text O W H : Type} [Ipnet] [SerdeYaml Text JailRecord]
    [SerdeYaml Text IngressRecord] {world : World Text O W H} {sys : System Text W} {op : Operation}
    (h : (sys.memory.any fun r =>
      (op.method.run world.out world.choices r sys.trace).1.isPanic) = true) :
    sys.Panics world (.operation op) := by
  obtain ⟨r, hr, hpanic⟩ := (Option.any_eq_true _ _).1 h
  obtain ⟨p, hp⟩ := Ended.exists_of_isPanic hpanic
  exact ⟨r, p, _, hr, Prod.ext hp rfl⟩

namespace Sample

namespace Dual

/-- IPv4 networks in dotted decimal, and one IPv6 network. -/
scoped instance ipnet : Ipnet where
  parse s := if s = "fd00::5/64" then .ok (.v6 (BitVec.ofNat 128 (0xfd00 * 2 ^ 112 + 5)) 64)
    else Agent.Sample.ipnet.parse s

end Dual

/-- A jail at some address. -/
def jailAt (address : String) : JailSpec where
  apiVersion := "keel/v1"
  kind := "Jail"
  metadata := ⟨"web"⟩
  spec :=
    { image := "base"
      command := ["app"]
      network := ⟨true, "keel0", address⟩
      resources := ⟨"1", "256M"⟩
      restartPolicy := .always
      volumes := []
      replicateTo := none }

/-- Every call works. -/
def working : ℕ → Option (Outcome Doc) := fun _ => some .works

theorem le_of_slash24 : 24 ≤ 32 := by decide

/-- A node told that its pod network is `255.255.255.0/24`. -/
def topNode : Agent.Agentd :=
  { Agent.Agentd.start "zroot" Agent.FakeZfsManager.new ∅ ∅ with
    podCidr := some ⟨Ipv4Addr.ofOctets 255 255 255 0, 24, le_of_slash24⟩ }

end Sample

section

open Node.Sample (jailAt working)
open scoped Node.Sample Node.Sample.Dual

/-- An IPv6 network is accepted, and the next pass panics on it, as does
the one after a restart; so does the last IPv4 address, which may even lie
in the node's own network. -/
theorem worker_panics_on_accepted :
    (Sample.host.life "zroot" working
        [.start, .operation (.apply (jailAt "fd00::5/64"))]).memory.map (·.records.keys) =
      some ["web"] ∧
    (Sample.host.life "zroot" working
      [.start, .operation (.apply (jailAt "fd00::5/64"))]).Panics (Host.world "zroot" working)
        (.operation (.reconcile (Sample.pass 0))) ∧
    (Sample.host.life "zroot" working
      [.start, .operation (.apply (jailAt "fd00::5/64")), .operation (.reconcile (Sample.pass 0)),
        .start]).Panics (Host.world "zroot" working)
        (.operation (.reconcile (Sample.pass 0))) ∧
    Sample.topNode.outsidePodCidr "255.255.255.255/32" = none ∧
    (Sample.host.life "zroot" working
      [.start, .operation (.apply (jailAt "255.255.255.255/32"))]).Panics
        (Host.world "zroot" working) (.operation (.reconcile (Sample.pass 0))) := by
  refine ⟨by decide +kernel, System.panics_of_isPanic ?_, System.panics_of_isPanic ?_,
    by decide +kernel, System.panics_of_isPanic ?_⟩
  · decide +kernel
  · decide +kernel
  · decide +kernel

end

end Node

end Keel
