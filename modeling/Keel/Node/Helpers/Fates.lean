import Keel.Node.Helpers.Abreast
/-!
# A fate for every jail

How the calls of a pass are answered, by the jail and the step of its
visit. Whatever else is done in a pass, and in whichever order, the visit
of a jail then ends as it does by itself, from where the pass started: no
other visit sets foot on its plot.
-/

namespace Keel

namespace Node

open Agent (JailRecord volumeDatasetPath)
open Reconciler (Off LacksAll)

variable {Text : Type}

/-- **How calls for jails are answered**: by the jail, and the step of its
visit. -/
abbrev Fate (Text : Type) := String → ℕ → Outcome Text

namespace Fate

/-- The answers to a visit, from where it starts. -/
def stream (fate : Fate Text) (name : String) (t : Trace (Op Text) (Host Text)) :
    ℕ → Option (Outcome Text) :=
  fun i => some (fate name (i - t.calls.length))

variable [Ipnet]

/-- A visit that is answered so. -/
def visit (fate : Fate Text) (now : ℕ) (name : String) (r : Reconciler)
    (t : Trace (Op Text) (Host Text)) :
    Ended Reconciler ReconcileError Unit × Trace (Op Text) (Host Text) :=
  (Reconciler.reconcileOne name now).run Host.outside (fate.stream name t) r t

/-- The visits to some jails, one after the other, are answered so. -/
def Governs (fate : Fate Text) (now : ℕ) (choices : ℕ → Option (Outcome Text)) :
    List String → Reconciler → Trace (Op Text) (Host Text) → Prop
  | [], _, _ => True
  | name :: names, r, t =>
    (∀ i, t.calls.length ≤ i → i < (fate.visit now name r t).2.calls.length →
      choices i = fate.stream name t i) ∧
    ∀ result r' t', fate.visit now name r t = (.returned result r', t') →
      fate.Governs now choices names r' t'

variable {fate fate' : Fate Text} {now : ℕ} {name : String} {names : List String}
variable {choices : ℕ → Option (Outcome Text)} {r r' : Reconciler}
variable {t t' : Trace (Op Text) (Host Text)}

/-- Then they are those visits. -/
theorem Governs.run_eq (h : fate.Governs now choices (name :: names) r t) :
    (Reconciler.reconcileOne name now : Method Text Unit).run Host.outside choices r t =
      fate.visit now name r t :=
  Proc.run_congr_choices h.1 (Proc.run_ne_crashed fun i hnone => by cases hnone)

/-- Every call is answered the same. -/
theorem governs_const (x : Outcome Text) :
    Governs (fun _ _ => x) now (fun _ => some x) names r t := by
  induction names generalizing r t with
  | nil => trivial
  | cons name names ih => exact ⟨fun _ _ _ => rfl, fun _ _ _ _ => ih⟩

/-- **A fate can be met**, whatever was answered before. -/
theorem exists_governs (fate : Fate Text) (now : ℕ) (names : List String) :
    ∀ (before : ℕ → Option (Outcome Text)) (r : Reconciler) (t : Trace (Op Text) (Host Text)),
      ∃ choices, (∀ i, i < t.calls.length → choices i = before i) ∧
        fate.Governs now choices names r t := by
  induction names with
  | nil => exact fun before _ _ => ⟨before, fun _ _ => rfl, trivial⟩
  | cons name names ih =>
    intro before r t
    let here : ℕ → Option (Outcome Text) := fun i =>
      if i < t.calls.length then before i else fate.stream name t i
    have hbefore : ∀ i, i < t.calls.length → here i = before i := fun i hi => if_pos hi
    have hhere : ∀ i, t.calls.length ≤ i → here i = fate.stream name t i :=
      fun i hi => if_neg (not_lt.2 hi)
    cases hvisit : fate.visit now name r t with
    | mk ending t' =>
      obtain ⟨l, hl⟩ : ∃ l, (fate.visit now name r t).2.calls = t.calls ++ l := Proc.run_calls
      rw [hvisit] at hl
      have hlength := congrArg List.length hl
      rw [List.length_append] at hlength
      dsimp only at hlength
      cases ending with
      | stopped x =>
        refine ⟨here, hbefore, fun i hi _ => hhere i hi, fun result r'' t'' he => ?_⟩
        rw [hvisit] at he
        cases he
      | returned result r' =>
        obtain ⟨choices, hsame, hrest⟩ := ih here r' t'
        refine ⟨choices, fun i hi => ?_, fun i hi hlt => ?_, fun result' r'' t'' he => ?_⟩
        · rw [hsame i (by omega), hbefore i hi]
        · rw [hvisit] at hlt
          rw [hsame i hlt, hhere i hi]
        · rw [hvisit] at he
          cases he
          exact hrest

/-- **A visit sees its plot only**: from abreast, two visits end abreast. -/
theorem alike (hfate : fate' name = fate name) {pool : String} {record : JailRecord}
    (hpool : r.pool = pool) (hpool' : r'.pool = pool)
    (hrecord : r.records.lookup name = some record)
    (hrecord' : r'.records.lookup name = some record)
    (h : Abreast (.around pool name record) name r r' t.world t'.world) :
    Ended.Alike (fun _ => Abreast (.around pool name record) name) (fate.visit now name r t)
      (fate'.visit now name r' t') := by
  refine (tandem_reconcileOne hpool hpool' hrecord hrecord' h now).run rfl rfl fun i => ?_
  rw [stream, stream, hfate, Nat.add_sub_cancel_left, Nat.add_sub_cancel_left]

/-- What a visit leaves alone. -/
theorem off_visit {result : Except ReconcileError Unit}
    (hvisit : fate.visit now name r t = (.returned result r', t')) :
    Off [name] r r' ∧ ∀ a, LacksAll a r [name] → SameOn a t.world t'.world := by
  have hoff : ∀ a, LacksAll a r [name] → Off [name] r r' ∧ SameOn a t.world t'.world := by
    intro a ha
    have hmeets : Ended.Meets _ _ (fate.visit now name r t) :=
      Reconciler.sameOn_of_makes
        (Reconciler.off_reconcileOne ha List.mem_cons_self r (.refl [name] r))
    rw [hvisit] at hmeets
    exact hmeets
  refine ⟨(hoff ⟨.none, ∅⟩ ?_).1, fun a ha => (hoff a ha).2⟩
  intro other _ record _
  exact ⟨id, id, fun _ _ => id, id, fun _ _ => id⟩

end Fate

/-! ## Records that have nothing in common -/

/-- **Records are disjoint**: apart, with no volume in two of them, and no
image that is another's dataset or volume. -/
structure Reconciler.Disjoint (r : Reconciler) : Prop extends r.Apart where
  volumes : ∀ n m a b, r.records.lookup n = some a → r.records.lookup m = some b → n ≠ m →
    ∀ v ∈ a.spec.spec.volumes, ∀ w ∈ b.spec.spec.volumes, v.name ≠ w.name
  imageOfJail : ∀ n m a b, r.records.lookup n = some a → r.records.lookup m = some b → n ≠ m →
    baseDatasetPath r.pool a.spec.spec.image ≠ jailDatasetPath r.pool m
  imageOfVolume : ∀ n m a b, r.records.lookup n = some a → r.records.lookup m = some b → n ≠ m →
    ∀ v ∈ b.spec.spec.volumes,
      baseDatasetPath r.pool a.spec.spec.image ≠ volumeDatasetPath r.pool v.name

section Disjoint

variable {r : Reconciler} {name : String} {record : JailRecord}

/-- All a visit sees is none of another's business. -/
theorem Reconciler.Disjoint.lacks (hr : r.Disjoint)
    (hrecord : r.records.lookup name = some record) {names : List String} (hname : name ∉ names) :
    LacksAll (.around r.pool name record) r names := by
  intro other hother record' hlookup
  have hne : other ≠ name := by
    rintro rfl
    exact hname hother
  refine hr.toApart.lacks hrecord hlookup hne ?_ fun v hv => ?_
  · rintro (heq | heq | ⟨w, -, heq⟩)
    · exact hne (jailDatasetPath_inj heq)
    · exact hr.imageOfJail name other record record' hrecord hlookup hne.symm heq.symm
    · exact jailDatasetPath_ne_volumeDatasetPath r.pool other w.name heq
  · rintro (heq | heq | ⟨w, hw, heq⟩)
    · exact jailDatasetPath_ne_volumeDatasetPath r.pool name v.name heq.symm
    · exact hr.imageOfVolume name other record record' hrecord hlookup hne.symm v hv heq.symm
    · exact hr.volumes name other record record' hrecord hlookup hne.symm w hw v hv
        ((String.append_right_inj _).1 heq).symm

end Disjoint

/-! ## A pass -/

section Pass

variable [Ipnet] {fate : Fate Text} {now : ℕ} {choices : ℕ → Option (Outcome Text)}
variable {r₀ r r' : Reconciler} {t₀ t t' : Trace (Op Text) (Host Text)}

/-- **A jail is left as its visit by itself leaves it**, and its failure
reported. -/
def AsAlone (fate : Fate Text) (now : ℕ) (r₀ : Reconciler) (t₀ : Trace (Op Text) (Host Text))
    (name : String) (record : JailRecord) (failures : List (String × ReconcileError))
    (r' : Reconciler) (h' : Host Text) : Prop :=
  ∃ result s u, fate.visit now name r₀ t₀ = (.returned result s, u) ∧
    (∀ e, (name, e) ∈ failures ↔ result = .error e) ∧
    Abreast (.around r₀.pool name record) name s r' u.world h'

/-- **A pass is the sum of its visits.** -/
structure Sums (fate : Fate Text) (now : ℕ) (r₀ : Reconciler) (t₀ : Trace (Op Text) (Host Text))
    (names : List String) (failures : List (String × ReconcileError)) (r' : Reconciler)
    (h' : Host Text) : Prop where
  visited : ∀ name ∈ names, ∀ record, r₀.records.lookup name = some record →
    AsAlone fate now r₀ t₀ name record failures r' h'
  failures : ∀ f ∈ failures, f.1 ∈ names

/-- One more visit. -/
theorem Sums.cons {name : String} {names : List String} (hname : name ∉ names)
    {failures failures' : List (String × ReconcileError)} {result : Except ReconcileError Unit}
    {s : Reconciler} {u : Trace (Op Text) (Host Text)} {h' : Host Text}
    (hsums : Sums fate now r₀ t₀ names failures r' h')
    (hvisit : fate.visit now name r₀ t₀ = (.returned result s, u))
    (habreast : ∀ record, r₀.records.lookup name = some record →
      Abreast (.around r₀.pool name record) name s r' u.world h')
    (hfailures : ∀ f, f ∈ failures' ↔ (f.1 = name ∧ result = .error f.2) ∨ f ∈ failures) :
    Sums fate now r₀ t₀ (name :: names) failures' r' h' := by
  refine ⟨fun other hother record hrecord => ?_, fun f hf => ?_⟩
  · rcases List.mem_cons.1 hother with rfl | hmem
    · refine ⟨result, s, u, hvisit, fun e => ?_, habreast record hrecord⟩
      rw [hfailures, or_iff_left fun hf => hname (hsums.failures (other, e) hf)]
      exact and_iff_right rfl
    · obtain ⟨result', s', u', hvisit', hresult', habreast'⟩ :=
        hsums.visited other hmem record hrecord
      refine ⟨result', s', u', hvisit', fun e => ?_, habreast'⟩
      rw [hfailures, or_iff_right, hresult']
      rintro ⟨rfl, -⟩
      exact hname hmem
  · rcases (hfailures f).1 hf with ⟨heq, -⟩ | hf
    · rw [heq]
      exact List.mem_cons_self
    · exact List.mem_cons_of_mem name (hsums.failures f hf)

/-- A visit leaves the other jails abreast. -/
theorem Reconciler.Disjoint.abreast_visit (hr₀ : r₀.Disjoint) (hpool : r.pool = r₀.pool)
    (hrecords : r.records = r₀.records) {name other : String} {record : JailRecord}
    (hne : other ≠ name) (hrecord : r₀.records.lookup other = some record)
    (h : Abreast (.around r₀.pool other record) other r₀ r t₀.world t.world)
    {result : Except ReconcileError Unit}
    (hvisit : fate.visit now name r t = (.returned result r', t')) :
    Abreast (.around r₀.pool other record) other r₀ r' t₀.world t'.world := by
  have hother : other ∉ [name] := fun hmem => hne (List.mem_singleton.1 hmem)
  have hlacks : LacksAll (.around r₀.pool other record) r [name] :=
    (hr₀.lacks hrecord hother).of_records hpool hrecords
  obtain ⟨hoff, hsame⟩ := Fate.off_visit hvisit
  exact h.trans ⟨hoff.backoff other hother, hsame _ hlacks⟩

/-- And so does a run of visits of others. -/
theorem Reconciler.Disjoint.abreast_reconcileAll (hr₀ : r₀.Disjoint) (hpool : r.pool = r₀.pool)
    (hrecords : r.records = r₀.records) {name : String} {names : List String}
    {record : JailRecord} (hname : name ∉ names) (hrecord : r₀.records.lookup name = some record)
    {result : Except ReconcileError (List (String × ReconcileError))}
    (hrun : (Reconciler.reconcileAll now names).run Host.outside choices r t =
      (.returned result r', t')) :
    Abreast (.around r₀.pool name record) name r r' t.world t'.world := by
  have hlacks : LacksAll (.around r₀.pool name record) r names :=
    (hr₀.lacks hrecord hname).of_records hpool hrecords
  have hmeets : Ended.Meets _ _
      ((Reconciler.reconcileAll now names : Method Text _).run Host.outside choices r t) :=
    Reconciler.sameOn_of_makes (Reconciler.off_reconcileAll hlacks r (.refl names r))
  rw [hrun] at hmeets
  exact ⟨hmeets.1.backoff name hname, hmeets.2⟩

/-- **A run of visits**, from where each of its jails is as it was at the
start, sums them up; it stops where one of them would by itself. -/
theorem sums_reconcileAll (hr₀ : r₀.Disjoint) {names : List String} (hnodup : names.Nodup)
    (hpool : r.pool = r₀.pool) (hrecords : r.records = r₀.records)
    (hstart : ∀ name ∈ names, ∃ record, r₀.records.lookup name = some record ∧
      Abreast (.around r₀.pool name record) name r₀ r t₀.world t.world)
    (hgoverns : fate.Governs now choices names r t) :
    Ended.Meets (fun result r' t' => ∃ failures, result = .ok failures ∧
        Sums fate now r₀ t₀ names failures r' t'.world)
      (fun _ _ => ∃ name ∈ names, ∃ x, (fate.visit now name r₀ t₀).1 = .stopped x)
      ((Reconciler.reconcileAll now names).run Host.outside choices r t) := by
  induction names generalizing r t with
  | nil =>
    exact ⟨[], rfl, fun _ h => absurd h List.not_mem_nil, fun _ h => absurd h List.not_mem_nil⟩
  | cons name names ih =>
    obtain ⟨hname, hnodup⟩ := List.nodup_cons.1 hnodup
    obtain ⟨record, hrecord, habreast⟩ := hstart name List.mem_cons_self
    have halike : Ended.Alike (fun _ => Abreast (.around r₀.pool name record) name)
        (fate.visit now name r t) (fate.visit now name r₀ t₀) :=
      Fate.alike rfl hpool rfl (by rw [hrecords]; exact hrecord) hrecord habreast.symm
    rw [Reconciler.reconcileAll, Proc.bind_eq, Proc.run_bind_eq, Proc.run_attempt, hgoverns.run_eq]
    cases hvisit : fate.visit now name r t with
    | mk ending t₁ =>
      rw [hvisit] at halike
      cases ending with
      | stopped x => exact ⟨name, List.mem_cons_self, x, halike.stopped rfl⟩
      | returned result r₁ =>
        obtain ⟨s, hs, habreast₁⟩ := halike.returned rfl
        obtain ⟨hoff, -⟩ := Fate.off_visit hvisit
        have hpool₁ : r₁.pool = r₀.pool := hoff.pool.trans hpool
        have hrecords₁ : r₁.records = r₀.records := hoff.records.trans hrecords
        have hstart₁ : ∀ other ∈ names, ∃ record', r₀.records.lookup other = some record' ∧
            Abreast (.around r₀.pool other record') other r₀ r₁ t₀.world t₁.world := by
          intro other hother
          obtain ⟨record', hrecord', habreast'⟩ := hstart other (List.mem_cons_of_mem name hother)
          have hne : other ≠ name := by
            rintro rfl
            exact hname hother
          exact ⟨record', hrecord',
            hr₀.abreast_visit hpool hrecords hne hrecord' habreast' hvisit⟩
        have hrest := ih hnodup hpool₁ hrecords₁ hstart₁ (hgoverns.2 result r₁ t₁ hvisit)
        dsimp only
        rw [Proc.bind_eq, Proc.run_bind_eq]
        cases hrun : (Reconciler.reconcileAll now names : Method Text _).run Host.outside choices
            r₁ t₁ with
        | mk ending t₂ =>
          rw [hrun] at hrest
          cases ending with
          | stopped x =>
            obtain ⟨other, hother, hstopped⟩ := hrest
            exact ⟨other, List.mem_cons_of_mem name hother, hstopped⟩
          | returned result' r₂ =>
            obtain ⟨failures, rfl, hsums⟩ := hrest
            have hadd : ∀ failures', (∀ f, f ∈ failures' ↔
                (f.1 = name ∧ result = .error f.2) ∨ f ∈ failures) →
                Sums fate now r₀ t₀ (name :: names) failures' r₂ t₂.world := by
              intro failures' hfailures
              refine hsums.cons hname (Prod.ext hs rfl) (fun record' hrecord' => ?_) hfailures
              cases hrecord.symm.trans hrecord'
              exact habreast₁.symm.trans
                (hr₀.abreast_reconcileAll hpool₁ hrecords₁ hname hrecord hrun)
            cases result with
            | ok u => exact ⟨failures, rfl, hadd failures fun f => by simp⟩
            | error e =>
              refine ⟨(name, e) :: failures, rfl, hadd _ fun f => ?_⟩
              rw [List.mem_cons, Prod.ext_iff]
              simp [eq_comm]

end Pass

end Node

end Keel
