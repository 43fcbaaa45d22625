import Keel.Node.Helpers.Endings
import Keel.Node.Helpers.Fates
/-!
# The order of a pass

A pass goes over the jails in whichever order their records are listed.
With a fate for every jail, what it leaves is the same in every order,
and what it leaves of one jail is the same whatever the other records are:
each jail is left as its visit by itself leaves it, and the rest of the
machine as it was. That is so of every pass that returns; every pass does
just where none of the jails that would be started has an address without
a gateway.
-/

namespace Keel

namespace Node

open Agent (JailRecord volumeDatasetPath)
open Reconciler (Off LacksAll)

variable {Text : Type}

/-! ## What is nobody's -/

/-- What no visit has anything to do with. -/
def Plot.wild (r : Reconciler) : Plot where
  jails := {jail | ∀ name record, r.records.lookup name = some record →
    jail ∉ (Plot.around r.pool name record).jails}
  epairs := {epair | ∀ name record, r.records.lookup name = some record →
    epair ∉ (Plot.around r.pool name record).epairs}
  targets := {target | ∀ name record, r.records.lookup name = some record →
    target ∉ (Plot.around r.pool name record).targets}
  datasets := {dataset | ∀ name record, r.records.lookup name = some record →
    dataset ∉ (Plot.around r.pool name record).datasets}

theorem lacksAll_wild (r : Reconciler) (names : List String) : LacksAll (.wild r) r names := by
  intro name _ record hrecord
  refine ⟨fun h => h name record hrecord rfl, fun h => h name record hrecord rfl,
    fun v hv h => h name record hrecord ⟨v, hv, rfl⟩,
    fun h => h name record hrecord (Or.inl rfl), fun v hv h => ?_⟩
  exact h name record hrecord (Or.inr (Or.inr ⟨v, hv, rfl⟩))

/-! ## Ends of a pass -/

/-- **Two ends of a pass that are the same**: the jails, datasets, mounts
and epairs, the cooldowns, and the failures. -/
structure SameEnd (failures : List (String × ReconcileError)) (r : Reconciler) (h : Host Text)
    (failures' : List (String × ReconcileError)) (r' : Reconciler) (h' : Host Text) : Prop where
  jails : ∀ jail, h'.jails.lookup jail = h.jails.lookup jail
  datasets : h'.zfs.datasets = h.zfs.datasets
  mounts : h'.mounts = h.mounts
  attachments : ∀ epair, h'.net.attachments.lookup epair = h.net.attachments.lookup epair
  backoff : ∀ name, r'.backoff.lookup name = r.backoff.lookup name
  failures : ∀ f, f ∈ failures' ↔ f ∈ failures

/-- **The same for one jail.** -/
structure SameFor (pool name : String) (record : JailRecord)
    (failures : List (String × ReconcileError)) (r : Reconciler) (h : Host Text)
    (failures' : List (String × ReconcileError)) (r' : Reconciler) (h' : Host Text) : Prop where
  abreast : Abreast (.around pool name record) name r r' h h'
  failures : ∀ e, (name, e) ∈ failures' ↔ (name, e) ∈ failures

section Ends

variable {r r' r'' : Reconciler} {h' h'' : Host Text}
variable {failures failures' : List (String × ReconcileError)}

/-- The same for every jail, and in what is nobody's. -/
theorem sameEnd_of_sameFor (hfor : ∀ name record, r.records.lookup name = some record →
      SameFor r.pool name record failures r' h' failures' r'' h'')
    (hwild : SameOn (.wild r) h' h'')
    (hbackoff : ∀ name, name ∉ r.records → r''.backoff.lookup name = r'.backoff.lookup name)
    (hfailures : ∀ f ∈ failures, f.1 ∈ r.records) (hfailures' : ∀ f ∈ failures', f.1 ∈ r.records) :
    SameEnd failures r' h' failures' r'' h'' := by
  have hsame : ∀ name record, r.records.lookup name = some record →
      SameOn (.around r.pool name record) h' h'' :=
    fun name record hrecord => (hfor name record hrecord).abreast.same
  -- what is on no jail's plot is nobody's
  have hpart : ∀ {β : Type} (part : Plot → Set β) (b : β),
      (∃ name record, r.records.lookup name = some record ∧
        b ∈ part (.around r.pool name record)) ∨
      ∀ name record, r.records.lookup name = some record →
        b ∉ part (.around r.pool name record) := by
    intro β part b
    by_cases h : ∃ name record, r.records.lookup name = some record ∧
        b ∈ part (.around r.pool name record)
    · exact Or.inl h
    · exact Or.inr fun name record hrecord hb => h ⟨name, record, hrecord, hb⟩
  refine ⟨fun jail => ?_, Finset.ext fun dataset => ?_, Finset.ext fun target => ?_,
    fun epair => ?_, fun name => ?_, fun f => ?_⟩
  · rcases hpart (·.jails) jail with ⟨name, record, hrecord, hjail⟩ | hnone
    · exact (hsame name record hrecord).jails jail hjail
    · exact hwild.jails jail hnone
  · rcases hpart (·.datasets) dataset with ⟨name, record, hrecord, hdataset⟩ | hnone
    · exact (hsame name record hrecord).datasets dataset hdataset
    · exact hwild.datasets dataset hnone
  · rcases hpart (·.targets) target with ⟨name, record, hrecord, htarget⟩ | hnone
    · exact (hsame name record hrecord).mounts target htarget
    · exact hwild.mounts target hnone
  · rcases hpart (·.epairs) epair with ⟨name, record, hrecord, hepair⟩ | hnone
    · exact (hsame name record hrecord).epairs epair hepair
    · exact hwild.epairs epair hnone
  · by_cases hname : name ∈ r.records
    · obtain ⟨record, hrecord⟩ := Table.exists_of_mem hname
      exact (hfor name record hrecord).abreast.cooldown
    · exact hbackoff name hname
  · by_cases hname : f.1 ∈ r.records
    · obtain ⟨record, hrecord⟩ := Table.exists_of_mem hname
      exact (hfor f.1 record hrecord).failures f.2
    · exact iff_of_false (fun hf => hname (hfailures' f hf)) fun hf => hname (hfailures f hf)

/-- One jail's visit by itself, from two states that are abreast. -/
theorem AsAlone.sameFor [Ipnet] {fate fate' : Fate Text} {now : ℕ} {name : String}
    {record : JailRecord} {r₀ r₂ : Reconciler} {t₀ t₂ : Trace (Op Text) (Host Text)}
    (hfate : fate' name = fate name) (hpool : r₂.pool = r₀.pool)
    (hrecord : r₀.records.lookup name = some record)
    (hrecord₂ : r₂.records.lookup name = some record)
    (hstart : Abreast (.around r₀.pool name record) name r₀ r₂ t₀.world t₂.world)
    (h : AsAlone fate now r₀ t₀ name record failures r' h')
    (h₂ : AsAlone fate' now r₂ t₂ name record failures' r'' h'') :
    SameFor r₀.pool name record failures r' h' failures' r'' h'' := by
  obtain ⟨result, s, u, hvisit, hfailures, habreast⟩ := h
  obtain ⟨result₂, s₂, u₂, hvisit₂, hfailures₂, habreast₂⟩ := h₂
  rw [hpool] at habreast₂
  have halike : Ended.Alike (fun _ => Abreast (.around r₀.pool name record) name)
      (fate.visit now name r₀ t₀) (fate'.visit now name r₂ t₂) :=
    Fate.alike hfate rfl hpool hrecord hrecord₂ hstart
  rw [hvisit, hvisit₂] at halike
  obtain ⟨rfl, hs⟩ := halike
  refine ⟨(habreast.symm.trans hs).trans habreast₂, fun e => ?_⟩
  rw [hfailures, hfailures₂]

end Ends

/-! ## Passes -/

section Passes

variable [Ipnet] [SerdeYaml Text JailRecord] [SerdeYaml Text IngressRecord]

/-- The answers of a pass that finds the records `r₁` once the ingresses
are served, and whose visits have a fate. -/
structure Fate.Guides (fate : Fate Text) (p : Pass) (r : Reconciler)
    (t : Trace (Op Text) (Host Text)) (r₁ : Reconciler) (t₁ : Trace (Op Text) (Host Text))
    (choices : ℕ → Option (Outcome Text)) : Prop where
  served : (Reconciler.reconcileIngresses p).run Host.outside choices r t =
    (.returned (.ok ()) r₁, t₁)
  governs : fate.Governs p.now choices (p.order.apply r₁.records.keys) r₁ t₁

/-- Such a pass returns. -/
def Fate.Ends (fate : Fate Text) (p : Pass) (r : Reconciler) (t : Trace (Op Text) (Host Text))
    (r₁ : Reconciler) (t₁ : Trace (Op Text) (Host Text))
    (failures : List (String × ReconcileError)) (r' : Reconciler)
    (t' : Trace (Op Text) (Host Text)) : Prop :=
  ∃ choices, fate.Guides p r t r₁ t₁ choices ∧
    (Reconciler.reconcile p).run Host.outside choices r t = (.returned (.ok failures) r', t')

variable {fate fate' : Fate Text} {p : Pass} {choices : ℕ → Option (Outcome Text)}
variable {r r₁ r' : Reconciler} {t t₁ t' : Trace (Op Text) (Host Text)}
variable {failures : List (String × ReconcileError)}

theorem Fate.Guides.run_eq (h : fate.Guides p r t r₁ t₁ choices) :
    (Reconciler.reconcile p).run Host.outside choices r t =
      (Reconciler.reconcileAll p.now (p.order.apply r₁.records.keys)).run Host.outside choices
        r₁ t₁ := by
  rw [Reconciler.reconcile, Proc.bind_eq, Proc.run_bind h.served]
  rfl

/-- **A pass sums its visits up**, or one of them does not return. -/
theorem Fate.Guides.sums (h : fate.Guides p r t r₁ t₁ choices) (hr₁ : r₁.Disjoint) :
    Ended.Meets (fun result r' t' => ∃ failures, result = .ok failures ∧
        Sums fate p.now r₁ t₁ (p.order.apply r₁.records.keys) failures r' t'.world)
      (fun _ _ => ∃ name ∈ p.order.apply r₁.records.keys,
        ∃ x, (fate.visit p.now name r₁ t₁).1 = .stopped x)
      ((Reconciler.reconcile p).run Host.outside choices r t) := by
  rw [h.run_eq]
  refine sums_reconcileAll hr₁ (p.order.nodup_apply r₁.records.keys_nodup) rfl rfl
    (fun name hname => ?_) h.governs
  obtain ⟨record, hrecord⟩ := Table.exists_of_mem (p.order.mem_apply.1 hname)
  exact ⟨record, hrecord, rfl, .refl _⟩

/-- What a pass that returned has made of one jail. -/
theorem Fate.Ends.asAlone (h : fate.Ends p r t r₁ t₁ failures r' t') (hr₁ : r₁.Disjoint)
    {name : String} {record : JailRecord} (hrecord : r₁.records.lookup name = some record) :
    AsAlone fate p.now r₁ t₁ name record failures r' t'.world := by
  obtain ⟨choices, hguides, hrun⟩ := h
  have hmeets := hguides.sums hr₁
  rw [hrun] at hmeets
  obtain ⟨_, ⟨rfl⟩, hsums⟩ := hmeets
  exact hsums.visited name (p.order.mem_apply.2 (Table.mem_keys_of_lookup hrecord)) record hrecord

/-- And of what is nobody's. -/
theorem Fate.Ends.leaves (h : fate.Ends p r t r₁ t₁ failures r' t') (hr₁ : r₁.Disjoint) :
    SameOn (.wild r₁) t₁.world t'.world ∧
      (∀ name, name ∉ r₁.records → r'.backoff.lookup name = r₁.backoff.lookup name) ∧
      ∀ f ∈ failures, f.1 ∈ r₁.records := by
  obtain ⟨choices, hguides, hrun⟩ := h
  have hmeets := hguides.sums hr₁
  have hoff : Ended.Meets _ _ ((Reconciler.reconcileAll p.now (p.order.apply r₁.records.keys) :
      Method Text _).run Host.outside choices r₁ t₁) :=
    Reconciler.sameOn_of_makes (Reconciler.off_reconcileAll
      (lacksAll_wild r₁ (p.order.apply r₁.records.keys)) r₁ (.refl _ r₁))
  rw [← hguides.run_eq, hrun] at hoff
  rw [hrun] at hmeets
  obtain ⟨_, ⟨rfl⟩, hsums⟩ := hmeets
  have hmem : ∀ {name}, name ∈ p.order.apply r₁.records.keys ↔ name ∈ r₁.records := by
    intro name
    rw [p.order.mem_apply, AList.mem_keys]
  exact ⟨hoff.2, fun name hname => hoff.1.backoff name fun h => hname (hmem.1 h),
    fun f hf => hmem.1 (hsums.failures f hf)⟩

/-! ## Independence -/

/-- **The order does not matter, and nor does anyone else.** With
everything but the jails' calls as it was, and for every fate of those: a
pass returns in every order; two passes in two orders end the same; and a
jail is left the same by any other pass, over whichever other records,
that finds the jail abreast and has the same fate for it. -/
structure Independent (p : Pass) (r : Reconciler) (t : Trace (Op Text) (Host Text))
    (r₁ : Reconciler) (t₁ : Trace (Op Text) (Host Text)) : Prop where
  returns : ∀ (fate : Fate Text) (order : IterOrder),
    (∃ choices, fate.Guides { p with order } r t r₁ t₁ choices) ∧
    ∀ choices, fate.Guides { p with order } r t r₁ t₁ choices → ∃ failures r' t',
      (Reconciler.reconcile { p with order }).run Host.outside choices r t =
        (.returned (.ok failures) r', t')
  orders : ∀ (fate : Fate Text) (order order' : IterOrder) failures r' t' failures' r'' t'',
    fate.Ends { p with order } r t r₁ t₁ failures r' t' →
    fate.Ends { p with order := order' } r t r₁ t₁ failures' r'' t'' →
    SameEnd failures r' t'.world failures' r'' t''.world
  others : ∀ (fate : Fate Text) (order : IterOrder) failures r' t',
    fate.Ends { p with order } r t r₁ t₁ failures r' t' →
    ∀ name record, r₁.records.lookup name = some record →
    ∀ (fate' : Fate Text) (p' : Pass) r₀ t₀ (r₂ : Reconciler) (t₂ : Trace (Op Text) (Host Text))
      failures' r'' t'', fate' name = fate name → p'.now = p.now → r₂.Disjoint →
      r₂.pool = r₁.pool → r₂.records.lookup name = some record →
      Abreast (.around r₁.pool name record) name r₁ r₂ t₁.world t₂.world →
      fate'.Ends p' r₀ t₀ r₂ t₂ failures' r'' t'' →
      SameFor r₁.pool name record failures r' t'.world failures' r'' t''.world

/-- No jail would be started, its cooldown over, under an address without
a gateway. -/
def Startable (now : ℕ) (r : Reconciler) (h : Host Text) : Prop :=
  ∀ name record, r.records.lookup name = some record → (r.cooldown name).canRetry now = true →
    Starts r.pool name record h → GatewayFits record.spec.spec.network.address

theorem exists_guides (hserved : (Reconciler.reconcileIngresses p).run Host.outside choices r t =
      (.returned (.ok ()) r₁, t₁)) (fate : Fate Text) (order : IterOrder) :
    ∃ choices, fate.Guides { p with order } r t r₁ t₁ choices := by
  obtain ⟨choices', hsame, hgoverns⟩ := Fate.exists_governs fate p.now
    (order.apply r₁.records.keys) choices r₁ t₁
  refine ⟨choices', ?_, hgoverns⟩
  change (Reconciler.reconcileIngresses p).run Host.outside choices' r t = _
  rw [← hserved]
  refine Proc.run_congr_choices (fun i _ hi => ?_) ?_
  · rw [hserved] at hi
    exact hsame i hi
  · rw [hserved]
    exact fun he => by cases he

omit [SerdeYaml Text JailRecord] [SerdeYaml Text IngressRecord] in
/-- Where each jail can be started, each visit returns. -/
theorem Startable.returns {now : ℕ} (h : Startable now r₁ t₁.world) {name : String}
    (hname : name ∈ r₁.records) (fate : Fate Text) :
    ∃ result s u, fate.visit now name r₁ t₁ = (.returned result s, u) := by
  obtain ⟨record, hrecord⟩ := Table.exists_of_mem hname
  obtain ⟨result, s, u, hvisit, -⟩ := Proc.run_returns (o := fate.stream name t₁)
    (fun i hnone => by cases hnone) (wp_reconcileOne_ends hrecord (h name record hrecord))
    (Proc.allowed_of_allows fun _ _ _ _ _ _ _ => trivial)
  exact ⟨result, s, u, hvisit⟩

/-- A pass returns if every visit does. -/
theorem Fate.Guides.returns (h : fate.Guides p r t r₁ t₁ choices) (hr₁ : r₁.Disjoint)
    (hstartable : Startable p.now r₁ t₁.world) : ∃ failures r' t',
    (Reconciler.reconcile p).run Host.outside choices r t = (.returned (.ok failures) r', t') := by
  have hmeets := h.sums hr₁
  cases hrun : (Reconciler.reconcile p : Method Text _).run Host.outside choices r t with
  | mk ending t' =>
    rw [hrun] at hmeets
    cases ending with
    | stopped x =>
      obtain ⟨name, hname, x, hx⟩ := hmeets
      have hmem : name ∈ r₁.records := AList.mem_keys.2 (p.order.mem_apply.1 hname)
      obtain ⟨result, s, u, hvisit⟩ := hstartable.returns hmem fate
      rw [hvisit] at hx
      cases hx
    | returned result r' =>
      obtain ⟨failures, rfl, -⟩ := hmeets
      exact ⟨failures, r', t', rfl⟩

/-- Passes return only if each jail can be started. -/
theorem Independent.startable (h : Independent p r t r₁ t₁) (hr₁ : r₁.Disjoint) :
    Startable p.now r₁ t₁.world := by
  intro name record hrecord hready hstarts
  by_contra hnot
  -- a pass in which no call fails comes to the jail
  obtain ⟨⟨choices', hguides⟩, hreturns⟩ := h.returns (fun _ _ => .works) .listed
  obtain ⟨failures, r', t', hrun⟩ := hreturns choices' hguides
  obtain ⟨result, s, u, hvisit, -⟩ := Fate.Ends.asAlone ⟨choices', hguides, hrun⟩ hr₁ hrecord
  obtain ⟨x, hx⟩ := (doomed_reconcileOne hrecord hready hstarts hnot).stopped
    (fun i => ⟨.works, rfl, rfl⟩ : Reliable (Fate.stream (fun _ _ => .works) name t₁))
  change (Fate.visit (fun _ _ => .works) p.now name r₁ t₁).1 = _ at hx
  rw [hvisit] at hx
  cases hx

/-- Two passes in two orders. -/
theorem Fate.Ends.sameEnd {order order' : IterOrder} {failures' : List (String × ReconcileError)}
    {r'' : Reconciler} {t'' : Trace (Op Text) (Host Text)} (hr₁ : r₁.Disjoint)
    (h : fate.Ends { p with order } r t r₁ t₁ failures r' t')
    (h' : fate.Ends { p with order := order' } r t r₁ t₁ failures' r'' t'') :
    SameEnd failures r' t'.world failures' r'' t''.world := by
  obtain ⟨hwild, hbackoff, hfailures⟩ := h.leaves hr₁
  obtain ⟨hwild', hbackoff', hfailures'⟩ := h'.leaves hr₁
  refine sameEnd_of_sameFor (fun name record hrecord => ?_) (hwild.symm.trans hwild')
    (fun name hname => (hbackoff' name hname).trans (hbackoff name hname).symm) hfailures hfailures'
  exact (h.asAlone hr₁ hrecord).sameFor rfl rfl hrecord hrecord ⟨rfl, .refl _⟩
    (h'.asAlone hr₁ hrecord)

/-- **Reconcile order does not matter**, for records that have nothing in
common: that is so of just the states in which every jail that would be
started has a gateway. -/
theorem order_irrelevant (hserved : (Reconciler.reconcileIngresses p).run Host.outside choices r t =
      (.returned (.ok ()) r₁, t₁)) (hr₁ : r₁.Disjoint) :
    Independent p r t r₁ t₁ ↔ Startable p.now r₁ t₁.world := by
  refine ⟨fun h => h.startable hr₁, fun h => ?_⟩
  refine ⟨fun fate order => ⟨exists_guides hserved fate order, fun choices hguides => ?_⟩, ?_, ?_⟩
  · exact hguides.returns hr₁ h
  · intro fate order order' failures r' t' failures' r'' t'' hends hends'
    exact hends.sameEnd hr₁ hends'
  · intro fate order failures r' t' hends name record hrecord fate' p' r₀ t₀ r₂ t₂ failures' r''
      t'' hfate hnow hr₂ hpool hrecord₂ habreast hends'
    have halone' := hends'.asAlone hr₂ hrecord₂
    rw [hnow] at halone'
    exact (hends.asAlone hr₁ hrecord).sameFor hfate hpool hrecord hrecord₂ habreast halone'

end Passes

/-! ## Two jails -/

namespace Sample

open Agent.Sample (jail)

/-- A process with two records. -/
def pair (a b : JailSpec) : Reconciler :=
  { Reconciler.blank "zroot" with
    records := ((∅ : Table JailRecord).insert a.metadata.name ⟨a, 1⟩).insert b.metadata.name ⟨b, 2⟩
    nextEpairOrdinal := 3 }

theorem lookup_pair {a b : JailSpec} {name : String} {record : JailRecord}
    (h : (pair a b).records.lookup name = some record) :
    (name = b.metadata.name ∧ record = ⟨b, 2⟩) ∨ (name = a.metadata.name ∧ record = ⟨a, 1⟩) := by
  rw [pair, Table.lookup_insert_eq, Table.lookup_insert_eq] at h
  split at h
  · rename_i hname
    cases h
    exact Or.inl ⟨hname, rfl⟩
  · split at h
    · rename_i hname
      cases h
      exact Or.inr ⟨hname, rfl⟩
    · cases h

/-- Two specs with nothing in common. -/
structure Unlike (a b : JailSpec) : Prop where
  valid : ∀ c ∈ [a, b], validateName c.metadata.name = .ok ()
  names : a.metadata.name ≠ b.metadata.name
  volumes : ∀ v ∈ a.spec.volumes, ∀ w ∈ b.spec.volumes, v.name ≠ w.name
  images : ∀ c ∈ [a, b], ∀ d ∈ [a, b],
    baseDatasetPath "zroot" c.spec.image ≠ jailDatasetPath "zroot" d.metadata.name ∧
      ∀ v ∈ d.spec.volumes,
        baseDatasetPath "zroot" c.spec.image ≠ volumeDatasetPath "zroot" v.name

theorem disjoint_pair {a b : JailSpec} (h : Unlike a b) : (pair a b).Disjoint := by
  have hrecord : ∀ {name record}, (pair a b).records.lookup name = some record →
      record.spec ∈ [a, b] ∧ name = record.spec.metadata.name := by
    intro name record hlookup
    rcases lookup_pair hlookup with ⟨rfl, rfl⟩ | ⟨rfl, rfl⟩
    · exact ⟨by simp, rfl⟩
    · exact ⟨by simp, rfl⟩
  refine ⟨⟨fun n c hc => ?_, fun n m c d hc hd hne => ?_⟩, fun n m c d hc hd hne => ?_,
    fun n m c d hc hd hne => ?_, fun n m c d hc hd hne => ?_⟩
  · obtain ⟨hmem, rfl⟩ := hrecord hc
    exact h.valid c.spec hmem
  · rcases lookup_pair hc with ⟨rfl, rfl⟩ | ⟨rfl, rfl⟩
    · rcases lookup_pair hd with ⟨rfl, rfl⟩ | ⟨rfl, rfl⟩
      · exact absurd rfl hne
      · show 2 ≠ 1
        omega
    · rcases lookup_pair hd with ⟨rfl, rfl⟩ | ⟨rfl, rfl⟩
      · show 1 ≠ 2
        omega
      · exact absurd rfl hne
  · rcases lookup_pair hc with ⟨rfl, rfl⟩ | ⟨rfl, rfl⟩
    · rcases lookup_pair hd with ⟨rfl, rfl⟩ | ⟨rfl, rfl⟩
      · exact absurd rfl hne
      · exact fun v hv w hw => (h.volumes w hw v hv).symm
    · rcases lookup_pair hd with ⟨rfl, rfl⟩ | ⟨rfl, rfl⟩
      · exact h.volumes
      · exact absurd rfl hne
  · obtain ⟨hmem, -⟩ := hrecord hc
    obtain ⟨hmem', rfl⟩ := hrecord hd
    exact (h.images c.spec hmem d.spec hmem').1
  · obtain ⟨hmem, -⟩ := hrecord hc
    obtain ⟨hmem', -⟩ := hrecord hd
    exact (h.images c.spec hmem d.spec hmem').2

end Sample

/-- On a process without ingresses, the records are found as they are. -/
theorem served_of_noIngress [Ipnet] [SerdeYaml Text JailRecord] [SerdeYaml Text IngressRecord]
    {r : Reconciler} {t : Trace (Op Text) (Host Text)} {p : Pass} (hnone : NoIngress r)
    {choices : ℕ → Option (Outcome Text)} (hchoices : Reliable choices) : ∃ t₁,
    (Reconciler.reconcileIngresses p).run Host.outside choices r t =
      (.returned (.ok ()) r, t₁) := by
  obtain ⟨result, r', t₁, hserved, rfl, rfl, -⟩ :=
    Host.returns_of_wp (wp_reconcileIngresses_idle (t := t) (p := p) hnone) hchoices
  exact ⟨t₁, hserved⟩

section

open Agent.Sample (jail)
open Node.Sample (pair working Unlike disjoint_pair)
open scoped Agent.Sample Node.Sample

/-- Two jails that can both be started. -/
theorem order_irrelevant_sample : ∃ t₁ : Trace (Op Sample.Doc) (Host Sample.Doc),
    Independent (Sample.pass 0) (pair (jail "web" none) (jail "db-0" none)) ⟨Sample.host, []⟩
      (pair (jail "web" none) (jail "db-0" none)) t₁ := by
  obtain ⟨t₁, hserved⟩ := served_of_noIngress
    (r := pair (jail "web" none) (jail "db-0" none)) (t := ⟨Sample.host, []⟩) (p := Sample.pass 0)
    rfl (fun _ => ⟨.works, rfl, rfl⟩ : Reliable working)
  have hunlike : Unlike (jail "web" none) (jail "db-0" none) :=
    ⟨by decide +kernel, by decide +kernel, by decide +kernel, by decide +kernel⟩
  have hgateway : GatewayFits "10.0.9.9/24" :=
    ⟨⟨Ipv4Addr.ofOctets 10 0 9 9, 24, by decide⟩, by decide +kernel, by decide +kernel⟩
  refine ⟨t₁, (order_irrelevant hserved (disjoint_pair hunlike)).2 ?_⟩
  intro name record hrecord _ _
  rcases Sample.lookup_pair hrecord with ⟨rfl, rfl⟩ | ⟨rfl, rfl⟩
  · exact hgateway
  · exact hgateway

end

section

open Agent.Sample (jail)
open Node.Sample (pair working Unlike disjoint_pair jailAt)
open scoped Node.Sample Node.Sample.Dual

/-- The other way around. -/
def Sample.reversed : IterOrder := ⟨List.reverse, List.reverse_perm⟩

/-- A jail whose address has no gateway, and one that can be started. -/
def Sample.broken : Reconciler := pair (jailAt "fd00::5/64") (jail "db-0" none)

/-- Both are accepted. In one order the pass panics with the second jail
up, in the other before it has come to it. -/
theorem order_irrelevant_not :
    (Sample.host.life "zroot" working [.start, .operation (.apply (jailAt "fd00::5/64")),
      .operation (.apply (jail "db-0" none))]).memory.map (fun r => r.records.entries) =
        some Sample.broken.records.entries ∧
    Sample.broken.Disjoint ∧
    (∃ p t', (Reconciler.reconcile (Sample.pass 0)).run Host.outside working Sample.broken
        ⟨Sample.host, []⟩ = (.stopped (.panicked p), t') ∧
      t'.world.isRunning (jailName "db-0") = true) ∧
    (∃ p t', (Reconciler.reconcile { Sample.pass 0 with order := Sample.reversed }).run Host.outside
        working Sample.broken ⟨Sample.host, []⟩ = (.stopped (.panicked p), t') ∧
      t'.world.jails.lookup (jailName "db-0") = none) ∧
    ∃ t₁, (Reconciler.reconcileIngresses (Sample.pass 0)).run Host.outside working Sample.broken
        ⟨Sample.host, []⟩ = (.returned (.ok ()) Sample.broken, t₁) ∧
      ¬ Independent (Sample.pass 0) Sample.broken ⟨Sample.host, []⟩ Sample.broken t₁ := by
  have hends : ∀ (p : Pass) (q : Host Sample.Doc → Bool),
      (((Reconciler.reconcile p).run Host.outside working Sample.broken
          ⟨Sample.host, []⟩).1.isPanic &&
        q ((Reconciler.reconcile p).run Host.outside working Sample.broken
          ⟨Sample.host, []⟩).2.world) = true →
      ∃ x t', (Reconciler.reconcile p).run Host.outside working Sample.broken ⟨Sample.host, []⟩ =
        (.stopped (.panicked x), t') ∧ q t'.world = true := by
    intro p q h
    obtain ⟨hpanic, hq⟩ := Bool.and_eq_true_iff.1 h
    obtain ⟨x, hx⟩ := Ended.exists_of_isPanic hpanic
    exact ⟨x, _, Prod.ext hx rfl, hq⟩
  have hlisted := hends (Sample.pass 0) (fun h => h.isRunning (jailName "db-0")) (by decide +kernel)
  have hreversed := hends { Sample.pass 0 with order := Sample.reversed }
    (fun h => (h.jails.lookup (jailName "db-0")).isNone) (by decide +kernel)
  have hunlike : Unlike (jailAt "fd00::5/64") (jail "db-0" none) :=
    ⟨by decide +kernel, by decide +kernel, by decide +kernel, by decide +kernel⟩
  obtain ⟨t₁, hserved⟩ := served_of_noIngress (r := Sample.broken) (t := ⟨Sample.host, []⟩)
    (p := Sample.pass 0) rfl (fun _ => ⟨.works, rfl, rfl⟩ : Reliable working)
  refine ⟨by decide +kernel, disjoint_pair hunlike, hlisted, ?_, t₁, hserved, fun h => ?_⟩
  · obtain ⟨x, t', hrun, hnone⟩ := hreversed
    exact ⟨x, t', hrun, Option.isNone_iff_eq_none.1 hnone⟩
  · obtain ⟨failures, r', t', hrun⟩ := (h.returns (fun _ _ => .works) .listed).2 working
      ⟨hserved, Fate.governs_const .works⟩
    obtain ⟨x, t'', hstopped, -⟩ := hlisted
    cases hstopped.symm.trans hrun

end

end Node

end Keel
