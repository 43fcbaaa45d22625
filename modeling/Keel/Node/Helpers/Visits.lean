import Keel.Node.Undisturbed
import Keel.Node.Helpers.Plots
/-!
# A pass comes to a jail

Where a pass stands when it comes to one of its jails, and what is left of
it after. Up to there and from there on it misses that jail's plot and
keeps its cooldown, so what becomes of a jail in a pass is what becomes of
it in its visit. In the visit the reconciler first makes up its mind
(`visitTask`), and then acts on it (`Task.perform`).
-/

namespace Keel

namespace Node

open Agent (JailRecord)

variable {Text : Type}

/-! ## What a visit does -/

/-- What there is to do for a jail. -/
inductive Task
  | provision
  | restart
  | limit
  | leave
deriving DecidableEq

namespace Task

/-- It is taken for a start of the jail, whatever becomes of it. -/
def isAttempt : Task → Bool
  | provision => true
  | restart => true
  | limit => false
  | leave => false

def perform (pool name : String) (record : JailRecord) (now : ℕ) : Task → Method Text Unit
  | provision => Reconciler.reconcileAbsent pool name record now
  | restart => do
    let result ← (Reconciler.restart name record).attempt
    Reconciler.recordAttempt name now
    Proc.ofExcept id result
  | limit => Reconciler.setLimits name record
  | leave => pure ()

end Task

namespace Reconciler

/-- What there is to do for a jail whose cooldown is over. -/
def chooseTask (name : String) (record : JailRecord) : Method Text Task := do
  if ← Proc.tryCall .jail (.jailExists (jailName name)) then
    if ← Proc.tryCall .jail (.isRunning (jailName name)) then pure .limit
    else if record.spec.spec.restartPolicy = .never then pure .leave
    else pure .restart
  else pure .provision

/-- What there is to do for a jail. -/
def visitTask (name : String) (record : JailRecord) (now : ℕ) : Method Text Task := do
  if ← checkCooldown name now then chooseTask name record else pure .leave

/-- **A visit** makes up its mind, and acts on it. -/
theorem reconcileRecord_eq (pool name : String) (record : JailRecord) (now : ℕ) :
    (reconcileRecord pool name record now : Method Text Unit) =
      (visitTask name record now).bind (Task.perform pool name record now) := by
  rw [reconcileRecord, visitTask]
  simp only [Proc.bind_eq, Proc.pure_eq]
  rw [Proc.bind_assoc]
  refine congrArg _ (funext fun ready => ?_)
  cases ready with
  | false => rfl
  | true =>
    rw [if_pos rfl, if_pos rfl, chooseTask]
    simp only [Proc.bind_eq, Proc.pure_eq]
    rw [Proc.bind_assoc]
    refine congrArg _ (funext fun there => ?_)
    cases there with
    | false => rfl
    | true =>
      rw [if_pos rfl, if_pos rfl, reconcileExisting]
      simp only [Proc.bind_eq, Proc.pure_eq]
      rw [Proc.bind_assoc]
      refine congrArg _ (funext fun running => ?_)
      cases running with
      | true => rfl
      | false =>
        simp only [Bool.false_eq_true, if_false]
        by_cases hpolicy : record.spec.spec.restartPolicy = .never
        · rw [if_pos hpolicy, if_pos hpolicy]
          rfl
        · rw [if_neg hpolicy, if_neg hpolicy]
          rfl

theorem reconcileOne_eq {O W : Type} {out : Outside (Op Text) O Reconciler W}
    {o : ℕ → Option O} {name : String} {record : JailRecord} {now : ℕ} {r : Reconciler}
    {t : Trace (Op Text) W} (hrecord : r.records.lookup name = some record) :
    (reconcileOne name now : Method Text Unit).run out o r t =
      ((visitTask name record now).bind (Task.perform r.pool name record now)).run out o r t := by
  rw [← reconcileRecord_eq, reconcileOne]
  change ((Proc.ofChecked (Checked.expect _ (r.records.lookup name)) :
    Method Text JailRecord).bind fun record => reconcileRecord r.pool name record now).run _ _ _ _ = _
  rw [hrecord]
  rfl

/-! ## Where a pass stands -/

/-- The same but for other jails: the pool, the record of one, and its
cooldown. -/
structure Aside (name : String) (r r' : Reconciler) : Prop where
  pool : r'.pool = r.pool
  record : r'.records.lookup name = r.records.lookup name
  cooldown : r'.backoff.lookup name = r.backoff.lookup name

theorem Aside.refl (name : String) (r : Reconciler) : Aside name r r := ⟨rfl, rfl, rfl⟩

theorem Aside.trans {name : String} {r r' r'' : Reconciler} (h : Aside name r r')
    (h' : Aside name r' r'') : Aside name r r'' :=
  ⟨h'.pool.trans h.pool, h'.record.trans h.record, h'.cooldown.trans h.cooldown⟩

theorem Aside.cooldown_eq {name : String} {r r' : Reconciler} (h : Aside name r r') :
    r'.cooldown name = r.cooldown name := by
  rw [Reconciler.cooldown, Reconciler.cooldown, h.cooldown]

section Off

variable [Ipnet] {choices : ℕ → Option (Outcome Text)} {a : Plot} {name : String}
variable {record : JailRecord} {r : Reconciler} {t : Trace (Op Text) (Host Text)}

/-- A method that only makes calls that miss a plot leaves it. -/
theorem sameOn_of_makes {α : Type} {m : Method Text α}
    {K : Except ReconcileError α → Reconciler → Prop}
    (hm : m.Makes (Op.Misses a) (fun _ _ => True) True K r) :
    Ended.Meets (fun result r' t' => K result r' ∧ SameOn a t.world t'.world)
      (fun _ t' => SameOn a t.world t'.world) (m.run Host.outside choices r t) := by
  have hwp : m.wp Host.outside (fun result r' t' => K result r' ∧ SameOn a t.world t'.world)
      (fun _ t' => SameOn a t.world t'.world) r t := by
    refine Proc.wp_mono (fun _ _ _ hq => ⟨hq.1, hq.2.1⟩) (fun _ _ hx => hx.2.1)
      (Proc.wp_of_makes (I := SameOn a t.world) ?_ hm (.refl _) t.since_self)
    intro ρ x c s w hc hw _
    exact ⟨trivial, hw.trans (hc.sameOn x w)⟩
  exact Host.meets_of_wp hwp

omit [Ipnet] in
/-- The same but for the cooldowns of some jails. -/
structure Off (names : List String) (r r' : Reconciler) : Prop where
  pool : r'.pool = r.pool
  records : r'.records = r.records
  backoff : ∀ m, m ∉ names → r'.backoff.lookup m = r.backoff.lookup m

omit [Ipnet] in
theorem Off.refl (names : List String) (r : Reconciler) : Off names r r :=
  ⟨rfl, rfl, fun _ _ => rfl⟩

omit [Ipnet] in
theorem Off.aside {names : List String} {r' : Reconciler} (h : Off names r r')
    (hname : name ∉ names) : Aside name r r' :=
  ⟨h.pool, by rw [h.records], h.backoff name hname⟩

/-- A plot that has nothing of any of some jails. -/
def LacksAll (a : Plot) (r : Reconciler) (names : List String) : Prop :=
  ∀ other ∈ names, ∀ record', r.records.lookup other = some record' →
    a.Lacks r.pool other record'

omit [Ipnet] in
theorem LacksAll.of_records {r' : Reconciler} {names : List String} (h : LacksAll a r names)
    (hpool : r'.pool = r.pool) (hrecords : r'.records = r.records) : LacksAll a r' names := by
  intro other hother record' hlookup
  rw [hrecords] at hlookup
  rw [hpool]
  exact h other hother record' hlookup

omit [Ipnet] in
/-- A visit to one of them misses it. -/
theorem off_reconcileOne {names : List String} (ha : LacksAll a r names) {other : String}
    (hother : other ∈ names) {now : ℕ} : (reconcileOne other now : Method Text Unit).Keeps
      (Op.Misses a) (fun _ _ => True) True (Off names r) := by
  refine keeps_reconcileOne (fun r₁ record' hr₁ hlookup _ c hc => ?_) (fun r₁ r₂ hr₁ hr₂ => ?_)
    fun _ _ => ⟨fun _ => trivial, fun _ _ _ _ _ _ _ => trivial⟩
  · rw [hr₁.records] at hlookup
    rw [hr₁.pool] at hc
    exact hc.misses (ha other hother record' hlookup)
  · refine ⟨hr₂.pool.trans hr₁.pool, hr₂.records.trans hr₁.records, fun m hm => ?_⟩
    have hne : m ≠ other := by
      rintro rfl
      exact hm hother
    exact (hr₂.backoff m hne).trans (hr₁.backoff m hm)

omit [Ipnet] in
/-- So does a pass over them. -/
theorem off_reconcileAll {names : List String} (ha : LacksAll a r names) {now : ℕ} :
    (reconcileAll now names : Method Text _).Keeps (Op.Misses a) (fun _ _ => True) True
      (Off names r) :=
  keeps_reconcileAll fun _ hother => off_reconcileOne ha hother

omit [Ipnet] in
/-- A jail's plot has nothing of the others. -/
theorem lacksAll_ofJail (hr : r.Apart) (hrecord : r.records.lookup name = some record)
    {names : List String} (hname : name ∉ names) :
    LacksAll (.ofJail r.pool name record) r names := by
  intro other hother record' hlookup
  refine hr.lacksJail hrecord hlookup ?_
  rintro rfl
  exact hname hother

omit [Ipnet] in
/-- A pass over other jails misses one, and keeps its cooldown. -/
theorem misses_reconcileAll (hr : r.Apart) (hrecord : r.records.lookup name = some record)
    {names : List String} (hname : name ∉ names) {now : ℕ} :
    (reconcileAll now names : Method Text _).Makes (Op.Misses (.ofJail r.pool name record))
      (fun _ _ => True) True (fun _ r' => Aside name r r' ∧ r'.records = r.records) r := by
  refine Proc.makes_mono (fun _ _ h => ⟨h.aside hname, h.records⟩)
    (off_reconcileAll (lacksAll_ofJail hr hrecord hname) r (.refl names r))

omit [Ipnet] in
/-- The failures of a pass are those of its jails. -/
theorem makes_reconcileAll_failures {now : ℕ} {names : List String} {r : Reconciler} :
    (reconcileAll now names : Method Text _).Makes (fun _ => True) (fun _ _ => True) True
      (fun result _ => ∀ failures, result = .ok failures → ∀ f ∈ failures, f.1 ∈ names) r := by
  induction names generalizing r with
  | nil =>
    intro failures hfailures f hf
    cases hfailures
    cases hf
  | cons name names ih =>
    have hone : (reconcileOne name now : Method Text Unit).Keeps (fun _ => True) (fun _ _ => True)
        True fun _ => True :=
      keeps_reconcileOne (fun _ _ _ _ _ _ _ => trivial) (fun _ _ _ _ => trivial)
        fun _ _ => ⟨fun _ => trivial, fun _ _ _ _ _ _ _ => trivial⟩
    rw [reconcileAll, Proc.bind_eq, Proc.makes_bind, Proc.makes_attempt]
    refine Proc.makes_mono ?_ (hone r trivial)
    rintro result r₁ -
    dsimp only
    rw [Proc.bind_eq, Proc.makes_bind]
    refine Proc.makes_mono ?_ ih
    rintro (e | failures) r₂ hfailures
    · exact fun _ he => absurd he (by simp)
    · have hrest := hfailures failures rfl
      cases result with
      | ok u =>
        rintro _ ⟨rfl⟩ f hf
        exact List.mem_cons_of_mem name (hrest f hf)
      | error e =>
        rintro _ ⟨rfl⟩ f hf
        rcases List.mem_cons.1 hf with rfl | hf
        · exact List.mem_cons_self
        · exact List.mem_cons_of_mem name (hrest f hf)

variable [SerdeYaml Text JailRecord]

/-- The ingress jail is put on record at most where it was not. -/
theorem makes_ensureIngressJail_aside (hrecord : r.records.lookup name = some record) :
    (ensureIngressJail : Method Text Unit).Makes (Op.Misses a) (fun _ _ => True) True
      (fun _ => Aside name r) r := by
  by_cases hdone : r.ingressRecords.entries = [] ∨ "ingress" ∈ r.records
  · refine Proc.makes_mono ?_ (makes_ensureIngressJail hdone)
    rintro _ r' hr'
    rw [hr']
    exact .refl name r
  · have hne : name ≠ "ingress" := by
      rintro rfl
      exact hdone (Or.inr (Table.mem_of_lookup hrecord))
    have hkeeps : (ensureIngressJail : Method Text Unit).Keeps (Op.Misses a) (fun _ _ => True) True
        (Aside name r) := by
      refine Proc.keeps_get_bind fun _ _ => Proc.keeps_ite Proc.keeps_ret ?_
      refine keeps_apply (fun _ => Op.OfFile.misses) (fun r' _ hr' => ?_) fun r' record' hr' => ?_
      · exact ⟨hr'.pool, hr'.record, hr'.cooldown⟩
      · refine ⟨hr'.pool, ?_, hr'.cooldown⟩
        exact (AList.lookup_insert_ne hne).trans hr'.record
    exact hkeeps r (.refl name r)

variable [SerdeYaml Text IngressRecord]

/-- Serving ingresses misses every jail that is on record. -/
theorem makes_reconcileIngresses_aside {p : Pass} (hrecord : r.records.lookup name = some record) :
    (reconcileIngresses p : Method Text Unit).Makes (Op.Misses a) (fun _ _ => True) True
      (fun _ => Aside name r) r := by
  have hserving : ∀ {m : Method Text Unit},
      (∀ r₀, m.Keeps Op.OfIngress (fun _ _ => True) True (AgreesOnJails r₀)) →
        m.Keeps (Op.Misses a) (fun _ _ => True) True (Aside name r) := by
    intro m hm
    refine keeps_of_ofIngress hm (fun _ => Op.OfIngress.misses) fun r₁ r₂ hr₁ hr₂ => ?_
    exact hr₁.trans ⟨hr₂.pool, by rw [hr₂.records], by rw [hr₂.backoff]⟩
  rw [reconcileIngresses, Proc.bind_eq, Proc.makes_bind, Proc.makes_attempt]
  refine Proc.makes_mono ?_ (makes_ensureIngressJail_aside hrecord)
  rintro _ r₁ hr₁
  refine Proc.keeps_bind (hserving fun _ => keeps_reconcileCerts) (fun _ => ?_) r₁ hr₁
  exact hserving fun _ =>
    keeps_reconcileIngressConfig.imp (fun _ => OfConfig.ofIngress) fun _ _ _ h => h

end Off

/-- **A pass comes to a jail**: the ingresses are served, and the jails
before it gone over. -/
def Comes [Ipnet] [SerdeYaml Text JailRecord] [SerdeYaml Text IngressRecord]
    (choices : ℕ → Option (Outcome Text)) (p : Pass) (name : String) (r : Reconciler)
    (t : Trace (Op Text) (Host Text)) (r₂ : Reconciler) (t₂ : Trace (Op Text) (Host Text)) : Prop :=
  ∃ r₁ t₁ earlier later failures,
    (reconcileIngresses p).run Host.outside choices r t = (.returned (.ok ()) r₁, t₁) ∧
    p.order.apply r₁.records.keys = earlier ++ name :: later ∧
    (reconcileAll p.now earlier).run Host.outside choices r₁ t₁ = (.returned (.ok failures) r₂, t₂)

section Visit

variable [Ipnet] [SerdeYaml Text JailRecord] [SerdeYaml Text IngressRecord]
variable {choices : ℕ → Option (Outcome Text)} {l : Ledger} {p : Pass} {name : String}
variable {record : JailRecord} {r r₁ r₂ : Reconciler} {t t₁ t₂ : Trace (Op Text) (Host Text)}

/-- The ingresses are served, and the records are apart still. -/
theorem served {a : Plot} (hl : l.Sound Validated) (his : l.Is r t.world)
    (hrecord : r.records.lookup name = some record)
    (hserved : (reconcileIngresses p).run Host.outside choices r t =
      (.returned (.ok ()) r₁, t₁)) :
    r₁.Apart ∧ Aside name r r₁ ∧ SameOn a t.world t₁.world := by
  have hledger : Ended.Meets _ _ ((reconcileIngresses p).run Host.outside choices r t) :=
    Host.meets_of_wp (wp_reconcileIngresses (P := Validated) his p fun _ => admits_validated _ _)
  have haside : Ended.Meets _ _ ((reconcileIngresses p).run Host.outside choices r t) :=
    sameOn_of_makes (a := a) (makes_reconcileIngresses_aside hrecord)
  rw [hserved] at hledger haside
  obtain ⟨-, l₁, hmove, his₁⟩ := hledger
  exact ⟨his₁.apart (hl.move hmove) fun _ ha => ha, haside⟩

omit [Ipnet] [SerdeYaml Text JailRecord] [SerdeYaml Text IngressRecord] in
/-- A pass comes to a jail once. -/
theorem notMem_of_order {earlier later : List String}
    (hnames : p.order.apply r.records.keys = earlier ++ name :: later) :
    name ∉ earlier ∧ name ∉ later := by
  have hnodup : (earlier ++ name :: later).Nodup := by
    rw [← hnames]
    exact p.order.nodup_apply r.records.keys_nodup
  rw [List.nodup_middle, List.nodup_cons, List.mem_append, not_or] at hnodup
  exact hnodup.1

/-- **Up to a jail**, a pass leaves it and its cooldown alone. -/
structure Arrived (name : String) (record : JailRecord) (r : Reconciler) (h : Host Text)
    (r₂ : Reconciler) (h₂ : Host Text) : Prop where
  apart : r₂.Apart
  aside : Aside name r r₂
  same : SameOn (.ofJail r.pool name record) h h₂

theorem Comes.arrived (hl : l.Sound Validated) (his : l.Is r t.world)
    (hrecord : r.records.lookup name = some record) (h : Comes choices p name r t r₂ t₂) :
    Arrived name record r t.world r₂ t₂.world := by
  obtain ⟨r₁, t₁, earlier, later, failures, hserved, hnames, hreached⟩ := h
  obtain ⟨hapart, haside, hsame⟩ := served hl his hrecord hserved
  have hearlier : name ∉ earlier := (notMem_of_order hnames).1
  have hrecord₁ : r₁.records.lookup name = some record := haside.record.trans hrecord
  have hmeets : Ended.Meets _ _
      ((reconcileAll p.now earlier).run Host.outside choices r₁ t₁) :=
    sameOn_of_makes (misses_reconcileAll hapart hrecord₁ hearlier)
  rw [hreached] at hmeets
  obtain ⟨⟨haside₂, hrecords₂⟩, hsame₂⟩ := hmeets
  rw [haside.pool] at hsame₂
  exact ⟨hapart.of_records hrecords₂, haside.trans haside₂, hsame.trans hsame₂⟩

theorem Comes.unique {r₃ : Reconciler} {t₃ : Trace (Op Text) (Host Text)}
    (h : Comes choices p name r t r₂ t₂) (h' : Comes choices p name r t r₃ t₃) :
    r₃ = r₂ ∧ t₃ = t₂ := by
  obtain ⟨r₁, t₁, earlier, later, failures, hserved, hnames, hreached⟩ := h
  obtain ⟨_, _, earlier', later', failures', hserved', hnames', hreached'⟩ := h'
  cases hserved.symm.trans hserved'
  obtain ⟨hearlier', hlater'⟩ := notMem_of_order hnames'
  have hsplit : earlier' = earlier :=
    ((List.append_cons_inj_of_notMem hearlier' hlater').1 (hnames'.symm.trans hnames)).1
  subst hsplit
  cases hreached.symm.trans hreached'
  exact ⟨rfl, rfl⟩

/-- **From a jail on**, a pass leaves it and its cooldown alone, and tells
how its visit ended. -/
structure Departed (pool name : String) (record : JailRecord) (result : Except ReconcileError Unit)
    (r₃ : Reconciler) (h₃ : Host Text)
    (ending : Ended Reconciler ReconcileError (List (String × ReconcileError))) (h' : Host Text) :
    Prop where
  same : SameOn (.ofJail pool name record) h₃ h'
  returned : ∀ result' r', ending = .returned result' r' → Aside name r₃ r' ∧
    ∃ failures, result' = .ok failures ∧ ∀ e, (name, e) ∈ failures ↔ result = .error e

/-- What is left of a pass once it has come to a jail. -/
theorem Comes.run_eq (h : Comes choices p name r t r₂ t₂) : ∃ (earlier later : List String)
    (failures : List (String × ReconcileError)),
    name ∉ earlier ∧ name ∉ later ∧ (∀ f ∈ failures, f.1 ∈ earlier) ∧
    (reconcile p).run Host.outside choices r t =
      ((reconcileAll p.now (name :: later)).bind fun failures' =>
        Proc.ret (failures ++ failures')).run Host.outside choices r₂ t₂ := by
  obtain ⟨r₁, t₁, earlier, later, failures, hserved, hnames, hreached⟩ := h
  obtain ⟨hearlier, hlater⟩ := notMem_of_order hnames
  have hmeets : Ended.Meets _ _
      ((reconcileAll p.now earlier : Method Text _).run Host.outside choices r₁ t₁) :=
    Proc.run_of_makes (fun _ _ => trivial) makes_reconcileAll_failures t₁.since_self
  rw [hreached] at hmeets
  refine ⟨earlier, later, failures, hearlier, hlater, hmeets.1 failures rfl, ?_⟩
  rw [reconcile, Proc.bind_eq, Proc.run_bind hserved]
  change (reconcileAll p.now (p.order.apply r₁.records.keys)).run _ _ _ _ = _
  rw [hnames, reconcileAll_append, Proc.run_bind hreached]

/-- A visit that does not return is the end of the pass. -/
theorem Comes.stopped (h : Comes choices p name r t r₂ t₂) {x : Stop}
    {t₃ : Trace (Op Text) (Host Text)}
    (hvisit : (reconcileOne name p.now).run Host.outside choices r₂ t₂ = (.stopped x, t₃)) :
    (reconcile p).run Host.outside choices r t = (.stopped x, t₃) := by
  obtain ⟨earlier, later, failures, -, -, -, hrun⟩ := h.run_eq
  rw [hrun, reconcileAll, Proc.bind_eq, Proc.bind_assoc, Proc.run_bind_eq, Proc.run_attempt, hvisit]

/-- And one that returns is told of in the failures. -/
theorem Comes.departed (hl : l.Sound Validated) (his : l.Is r t.world)
    (hrecord : r.records.lookup name = some record) (h : Comes choices p name r t r₂ t₂)
    {result : Except ReconcileError Unit} {r₃ : Reconciler} {t₃ : Trace (Op Text) (Host Text)}
    (hvisit : (reconcileOne name p.now).run Host.outside choices r₂ t₂ =
      (.returned result r₃, t₃)) : Departed r.pool name record result r₃ t₃.world
      ((reconcile p).run Host.outside choices r t).1
      ((reconcile p).run Host.outside choices r t).2.world := by
  obtain ⟨hapart, haside, -⟩ := h.arrived hl his hrecord
  have hrecord₂ : r₂.records.lookup name = some record := haside.record.trans hrecord
  have hagrees : r₂.AgreesBut name r₃ := by
    have hone : (reconcileOne name p.now : Method Text Unit).Keeps (fun _ => True)
        (fun _ _ => True) True (r₂.AgreesBut name) :=
      keeps_reconcileOne (fun _ _ _ _ _ _ _ => trivial) (fun _ _ h h' => h.trans h')
        fun _ _ => ⟨fun _ => trivial, fun _ _ _ _ _ _ _ => trivial⟩
    have hmeets : Ended.Meets _ _ ((reconcileOne name p.now).run Host.outside choices r₂ t₂) :=
      Proc.run_of_makes (fun _ _ => trivial) (hone r₂ (.refl name r₂)) t₂.since_self
    rw [hvisit] at hmeets
    exact hmeets.1
  obtain ⟨earlier, later, failures, hearlier, hlater, hfailures, hrun⟩ := h.run_eq
  have hmisses : Ended.Meets _ _
      ((reconcileAll p.now later : Method Text _).run Host.outside choices r₃ t₃) :=
    sameOn_of_makes (misses_reconcileAll (hapart.of_records hagrees.records)
      (by rw [hagrees.records]; exact hrecord₂) hlater)
  have hlast : Ended.Meets _ _
      ((reconcileAll p.now later : Method Text _).run Host.outside choices r₃ t₃) :=
    Proc.run_of_makes (fun _ _ => trivial) makes_reconcileAll_failures t₃.since_self
  have hnofail : ∀ e r', ((reconcileAll p.now later : Method Text _).run Host.outside choices r₃
      t₃).1 ≠ .returned (.error e) r' := fun _ _ => Proc.run_of_neverFails neverFails_reconcileAll
  rw [hagrees.pool, haside.pool] at hmisses
  rw [hrun, reconcileAll, Proc.bind_eq, Proc.bind_assoc, Proc.run_bind_eq, Proc.run_attempt, hvisit]
  dsimp only
  rw [Proc.bind_eq, Proc.bind_assoc, Proc.run_bind_eq]
  cases hrest : (reconcileAll p.now later : Method Text _).run Host.outside choices r₃ t₃ with
  | mk ending t₄ =>
    rw [hrest] at hmisses hlast hnofail
    cases ending with
    | stopped x => exact ⟨hmisses, fun _ _ he => by cases he⟩
    | returned result' r₄ =>
      cases result' with
      | error e => exact absurd rfl (hnofail e r₄)
      | ok failures' =>
        obtain ⟨⟨haside', -⟩, hsame⟩ := hmisses
        have hnot : ∀ {fs : List (String × ReconcileError)} {names : List String}, name ∉ names →
            (∀ f ∈ fs, f.1 ∈ names) → ∀ e, (name, e) ∉ fs := by
          intro fs names hname hfs e hmem
          exact hname (hfs (name, e) hmem)
        have hearlier' := hnot hearlier hfailures
        have hlater' := hnot hlater (hlast.1 failures' rfl)
        cases result with
        | ok u =>
          refine ⟨hsame, ?_⟩
          rintro _ _ ⟨rfl, rfl⟩
          refine ⟨haside', _, rfl, fun e => ?_⟩
          simp [hearlier' e, hlater' e]
        | error error =>
          refine ⟨hsame, ?_⟩
          rintro _ _ ⟨rfl, rfl⟩
          refine ⟨haside', _, rfl, fun e => ?_⟩
          simp [hearlier' e, hlater' e, eq_comm]

/-- A pass that does not come to a jail has stopped before, and left it. -/
theorem stopped_before (hl : l.Sound Validated) (his : l.Is r t.world)
    (hrecord : r.records.lookup name = some record)
    (hnot : ∀ r₂ t₂, ¬ Comes choices p name r t r₂ t₂) :
    (∃ x, ((reconcile p).run Host.outside choices r t).1 = .stopped x) ∧
      SameOn (.ofJail r.pool name record) t.world
        ((reconcile p).run Host.outside choices r t).2.world := by
  have hmeets : Ended.Meets _ _ ((reconcileIngresses p).run Host.outside choices r t) :=
    sameOn_of_makes (a := .ofJail r.pool name record) (makes_reconcileIngresses_aside hrecord)
  have hnofail : ∀ e r₁, ((reconcileIngresses p).run Host.outside choices r t).1 ≠
      .returned (.error e) r₁ := fun _ _ => Proc.run_of_neverFails neverFails_reconcileIngresses
  rw [reconcile, Proc.bind_eq, Proc.run_bind_eq]
  cases hserved : (reconcileIngresses p).run Host.outside choices r t with
  | mk ending t₁ =>
    rw [hserved] at hmeets hnofail
    cases ending with
    | stopped x => exact ⟨⟨x, rfl⟩, hmeets⟩
    | returned result r₁ =>
      cases result with
      | error e => exact absurd rfl (hnofail e r₁)
      | ok u =>
        obtain ⟨hapart, haside, hsame⟩ :=
          served (a := .ofJail r.pool name record) hl his hrecord hserved
        have hrecord₁ : r₁.records.lookup name = some record := haside.record.trans hrecord
        obtain ⟨earlier, later, hnames⟩ := List.append_of_mem
          (p.order.mem_apply.2 (Table.mem_keys_of_lookup hrecord₁))
        have hmeets₂ : Ended.Meets _ _
            ((reconcileAll p.now earlier : Method Text _).run Host.outside choices r₁ t₁) :=
          sameOn_of_makes (misses_reconcileAll hapart hrecord₁ (notMem_of_order hnames).1)
        have hnofail₂ : ∀ e r₂, ((reconcileAll p.now earlier : Method Text _).run Host.outside
            choices r₁ t₁).1 ≠ .returned (.error e) r₂ :=
          fun _ _ => Proc.run_of_neverFails neverFails_reconcileAll
        dsimp only
        change (∃ x, ((reconcileAll p.now (p.order.apply r₁.records.keys)).run _ _ _ _).1 = _) ∧
          SameOn _ _ ((reconcileAll p.now (p.order.apply r₁.records.keys)).run _ _ _ _).2.world
        rw [hnames, reconcileAll_append, Proc.run_bind_eq]
        cases hreached : (reconcileAll p.now earlier : Method Text _).run Host.outside choices r₁
            t₁ with
        | mk ending₂ t₂ =>
          rw [hreached] at hmeets₂ hnofail₂
          cases ending₂ with
          | stopped x =>
            have hsame₂ : SameOn (.ofJail r₁.pool name record) t₁.world t₂.world := hmeets₂
            rw [haside.pool] at hsame₂
            exact ⟨⟨x, rfl⟩, hsame.trans hsame₂⟩
          | returned result₂ r₂ =>
            cases result₂ with
            | error e => exact absurd rfl (hnofail₂ e r₂)
            | ok failures =>
              refine absurd ?_ (hnot r₂ t₂)
              exact ⟨r₁, t₁, earlier, later, failures, hserved, hnames, hreached⟩

/-- **A pass that returns** has come to each jail on record, and its visit
has returned. -/
theorem departed_of_returned (hl : l.Sound Validated) (his : l.Is r t.world)
    (hrecord : r.records.lookup name = some record)
    {result : Except ReconcileError (List (String × ReconcileError))} {r' : Reconciler}
    {t' : Trace (Op Text) (Host Text)}
    (hrun : (reconcile p).run Host.outside choices r t = (.returned result r', t')) :
    ∃ r₂ t₂ visited r₃ t₃, Comes choices p name r t r₂ t₂ ∧
      (reconcileOne name p.now).run Host.outside choices r₂ t₂ = (.returned visited r₃, t₃) ∧
      Departed r.pool name record visited r₃ t₃.world (.returned result r') t'.world := by
  by_cases hcomes : ∃ r₂ t₂, Comes choices p name r t r₂ t₂
  · obtain ⟨r₂, t₂, hcomes⟩ := hcomes
    cases hvisit : (reconcileOne name p.now).run Host.outside choices r₂ t₂ with
    | mk ending t₃ =>
      cases ending with
      | stopped x => cases hrun.symm.trans (hcomes.stopped hvisit)
      | returned visited r₃ =>
        have hdeparted := hcomes.departed hl his hrecord hvisit
        rw [hrun] at hdeparted
        exact ⟨r₂, t₂, visited, r₃, t₃, hcomes, hvisit, hdeparted⟩
  · have hnone : ∀ r₂ t₂, ¬ Comes choices p name r t r₂ t₂ :=
      fun r₂ t₂ h => hcomes ⟨r₂, t₂, h⟩
    obtain ⟨⟨x, hx⟩, -⟩ := stopped_before hl his hrecord hnone
    rw [hrun] at hx
    cases hx

end Visit

end Reconciler

end Node

end Keel
