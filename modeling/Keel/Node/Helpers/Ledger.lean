import Keel.Common.Result
import Keel.Spec.Names
import Keel.Node.Helpers.Frame
/-!
# The records as a ledger

What each name stands for, and the next ordinal. A method makes at most
one move on it (a record amended, one created under the next ordinal, one
dropped), and the state directory moves with it, at a rename or at a
removal; a start reads the ledger back. `P` is what every record is known
to satisfy.
-/

namespace Keel

namespace Node

open Agent (JailRecord)

/-! ## The ledger -/

/-- The records of an agent, and the ordinal the next one gets. -/
structure Ledger where
  records : String → Option JailRecord
  next : ℕ

/-- What a record keeps for as long as it exists. -/
structure Fixed (old new : JailRecord) : Prop where
  epairOrdinal : new.epairOrdinal = old.epairOrdinal
  image : new.spec.spec.image = old.spec.spec.image
  address : new.spec.spec.network.address = old.spec.spec.network.address
  volumes : new.spec.spec.volumes = old.spec.spec.volumes

theorem Fixed.refl (record : JailRecord) : Fixed record record := ⟨rfl, rfl, rfl, rfl⟩

theorem Fixed.trans {a b c : JailRecord} (hab : Fixed a b) (hbc : Fixed b c) : Fixed a c :=
  ⟨hbc.epairOrdinal.trans hab.epairOrdinal, hbc.image.trans hab.image,
    hbc.address.trans hab.address, hbc.volumes.trans hab.volumes⟩

namespace Ledger

/-- Another entry for one name. -/
def set (l : Ledger) (name : String) (entry : Option JailRecord) (next : ℕ) : Ledger :=
  ⟨Function.update l.records name entry, next⟩

theorem set_cases {l : Ledger} {name n : String} {entry : Option JailRecord} {next : ℕ}
    {a : JailRecord} (h : (l.set name entry next).records n = some a) :
    (n = name ∧ entry = some a) ∨ (n ≠ name ∧ l.records n = some a) := by
  have h' : Function.update l.records name entry n = some a := h
  by_cases heq : n = name
  · rw [heq, Function.update_self] at h'
    exact Or.inl ⟨heq, h'⟩
  · rw [Function.update_of_ne heq] at h'
    exact Or.inr ⟨heq, h'⟩

/-- What a method can do to a ledger. -/
inductive Move (P : JailRecord → Prop) (l : Ledger) : Ledger → Prop
  | stay {next : ℕ} (hnext : l.next ≤ next) : Move P l ⟨l.records, next⟩
  | amend {record old : JailRecord} (hold : l.records record.spec.metadata.name = some old)
      (hfixed : Fixed old record) (hP : P old → P record) :
      Move P l (l.set record.spec.metadata.name (some record) l.next)
  | create {record : JailRecord} (hnew : l.records record.spec.metadata.name = none)
      (hordinal : record.epairOrdinal = l.next) (hP : P record) :
      Move P l (l.set record.spec.metadata.name (some record) (l.next + 1))
  | drop (name : String) : Move P l (l.set name none l.next)

/-- No two records share an ordinal, every ordinal is below the next, and
every record is one of `P`. -/
structure Sound (P : JailRecord → Prop) (l : Ledger) : Prop where
  distinct : ∀ n m a b, l.records n = some a → l.records m = some b →
    a.epairOrdinal = b.epairOrdinal → n = m
  below : ∀ n a, l.records n = some a → a.epairOrdinal < l.next
  record : ∀ n a, l.records n = some a → P a

variable {P : JailRecord → Prop} {l l' : Ledger}

theorem Move.refl (l : Ledger) : l.Move P l := .stay le_rfl

/-- A record that is there before and after a move is the same in what is
fixed. -/
theorem Move.fixed (h : l.Move P l') {name : String} {a b : JailRecord}
    (ha : l.records name = some a) (hb : l'.records name = some b) : Fixed a b := by
  cases h with
  | stay hnext =>
    cases ha.symm.trans hb
    exact .refl a
  | @amend record old hold hfixed _ =>
    rcases set_cases hb with ⟨rfl, hrecord⟩ | ⟨-, hb⟩
    · cases hrecord
      cases ha.symm.trans hold
      exact hfixed
    · cases ha.symm.trans hb
      exact .refl a
  | create hnew _ _ =>
    rcases set_cases hb with ⟨rfl, -⟩ | ⟨-, hb⟩
    · rw [hnew] at ha
      cases ha
    · cases ha.symm.trans hb
      exact .refl a
  | drop other =>
    rcases set_cases hb with ⟨-, hnone⟩ | ⟨-, hb⟩
    · cases hnone
    · cases ha.symm.trans hb
      exact .refl a

theorem Sound.move (h : l.Sound P) (hmove : l.Move P l') : l'.Sound P := by
  cases hmove with
  | stay hnext => exact ⟨h.distinct, fun n a ha => lt_of_lt_of_le (h.below n a ha) hnext, h.record⟩
  | @amend record old hold hfixed hP =>
    -- every record's ordinal is one there was before, under the same name
    have hbefore : ∀ n a, (l.set record.spec.metadata.name (some record) l.next).records n = some a →
        ∃ b, l.records n = some b ∧ b.epairOrdinal = a.epairOrdinal ∧ (P b → P a) := by
      intro n a ha
      rcases set_cases ha with ⟨rfl, hrecord⟩ | ⟨-, ha⟩
      · cases hrecord
        exact ⟨old, hold, hfixed.epairOrdinal.symm, hP⟩
      · exact ⟨a, ha, rfl, id⟩
    refine ⟨fun n m a b ha hb hab => ?_, fun n a ha => ?_, fun n a ha => ?_⟩
    · obtain ⟨a', ha', haa, -⟩ := hbefore n a ha
      obtain ⟨b', hb', hbb, -⟩ := hbefore m b hb
      exact h.distinct n m a' b' ha' hb' (haa.trans (hab.trans hbb.symm))
    · obtain ⟨a', ha', haa, -⟩ := hbefore n a ha
      have := h.below n a' ha'
      exact haa ▸ this
    · obtain ⟨a', ha', -, hPa⟩ := hbefore n a ha
      exact hPa (h.record n a' ha')
  | create hnew hordinal hP =>
    -- the new ordinal is above all there were
    refine ⟨fun n m a b ha hb hab => ?_, fun n a ha => ?_, fun n a ha => ?_⟩
    · rcases set_cases ha with ⟨hn, ha⟩ | ⟨-, ha⟩
      · cases ha
        rcases set_cases hb with ⟨hm, -⟩ | ⟨-, hb⟩
        · rw [hn, hm]
        · have := h.below m b hb
          omega
      · rcases set_cases hb with ⟨-, hb⟩ | ⟨-, hb⟩
        · cases hb
          have := h.below n a ha
          omega
        · exact h.distinct n m a b ha hb hab
    · change a.epairOrdinal < l.next + 1
      rcases set_cases ha with ⟨-, ha⟩ | ⟨-, ha⟩
      · cases ha
        omega
      · have := h.below n a ha
        omega
    · rcases set_cases ha with ⟨-, ha⟩ | ⟨-, ha⟩
      · cases ha
        exact hP
      · exact h.record n a ha
  | drop name =>
    have hother : ∀ n a, (l.set name none l.next).records n = some a → l.records n = some a := by
      intro n a ha
      rcases set_cases ha with ⟨-, ha⟩ | ⟨-, ha⟩
      · cases ha
      · exact ha
    exact ⟨fun n m a b ha hb => h.distinct n m a b (hother n a ha) (hother m b hb),
      fun n a ha => h.below n a (hother n a ha), fun n a ha => h.record n a (hother n a ha)⟩

end Ledger

/-! ## The methods move it -/

theorem validate_ok [Ipnet] {spec : JailSpec} (h : Reconciler.validate spec = .ok ()) :
    validateName spec.metadata.name = .ok () := by
  simp only [Reconciler.validate, bind_eq_ok] at h
  obtain ⟨u, hname, -⟩ := h
  exact hname

theorem ne_empty_of_validateName {name : String} (h : validateName name = .ok ()) : name ≠ "" := by
  rintro rfl
  exact (validateName_ok_iff.1 h).1.ne_nil rfl

/-- What a re-apply may not change. -/
theorem fixed_of_validateTransition {old : JailRecord} {spec : JailSpec}
    (h : validateTransition old.spec spec = .ok ()) : Fixed old ⟨spec, old.epairOrdinal⟩ := by
  simp only [validateTransition, ite_throw_eq_ok, not_not] at h
  obtain ⟨himage, haddress, hvolumes⟩ := h
  by_cases heq : old.spec.spec.volumes = spec.spec.volumes
  · exact ⟨rfl, himage.symm, haddress.symm, heq.symm⟩
  · rw [if_pos heq] at hvolumes
    cases hvolumes

theorem lt_of_firstFreeOrdinal {loaded : List JailRecord} {next : ℕ}
    (h : Reconciler.firstFreeOrdinal loaded = .ok next) {record : JailRecord}
    (hrecord : record ∈ loaded) : record.epairOrdinal < next := by
  have hmem : record.epairOrdinal ∈ loaded.map JailRecord.epairOrdinal :=
    List.mem_map_of_mem hrecord
  rw [Reconciler.firstFreeOrdinal] at h
  cases hmax : (loaded.map JailRecord.epairOrdinal).max? with
  | none =>
    rw [List.max?_eq_none_iff.1 hmax] at hmem
    cases hmem
  | some m =>
    have hle : record.epairOrdinal ≤ m := (List.max?_eq_some_iff.1 hmax).2 _ hmem
    simp only [hmax, Checked.add] at h
    split at h
    · cases h
      omega
    · cases h

/-- Records collected under distinct names are those there are. -/
theorem lookup_collect_iff {loaded : List JailRecord}
    (h : (loaded.map fun record => record.spec.metadata.name).Nodup) {name : String}
    {record : JailRecord} : (Agent.Reconciler.collect loaded).lookup name = some record ↔
      record ∈ loaded ∧ record.spec.metadata.name = name := by
  induction loaded using List.reverseRecOn with
  | nil => simp [Agent.Reconciler.collect]
  | append_singleton loaded last ih =>
    rw [List.map_append, List.nodup_append] at h
    obtain ⟨hnodup, -, hlast⟩ := h
    rw [Agent.Reconciler.collect, List.foldl_append, List.foldl_cons, List.foldl_nil,
      Table.lookup_insert_eq]
    split
    · rename_i hname
      rw [List.mem_append, List.mem_singleton]
      constructor
      · intro hrecord
        cases hrecord
        exact ⟨Or.inr rfl, hname.symm⟩
      · rintro ⟨hmem | rfl, hrecord⟩
        · refine absurd ?_ (hlast _ (List.mem_map_of_mem hmem) last.spec.metadata.name (by simp))
          exact hrecord.trans hname
        · rfl
    · rename_i hname
      rw [show ((loaded.foldl (fun t record => t.insert record.spec.metadata.name record)
        ∅ : Table JailRecord).lookup name = some record) ↔ _ from ih hnodup, List.mem_append,
        List.mem_singleton]
      constructor
      · rintro ⟨hmem, hrecord⟩
        exact ⟨Or.inl hmem, hrecord⟩
      · rintro ⟨hmem | rfl, hrecord⟩
        · exact ⟨hmem, hrecord⟩
        · exact absurd hrecord.symm hname

section Methods

variable {Text : Type} [Ipnet] [SerdeYaml Text JailRecord]
variable {allows : {ρ : Type} → Outcome Text → Op Text ρ → Reconciler → Host Text → Prop}
variable {P : JailRecord → Prop} {l : Ledger} {r : Reconciler} {t : Trace (Op Text) (Host Text)}

/-- The records in memory and those in the state directory are the
ledger's. -/
structure Ledger.Is (l : Ledger) (r : Reconciler) (h : Host Text) : Prop where
  records : ∀ name, r.records.lookup name = l.records name
  next : r.nextEpairOrdinal = l.next
  holds : Holds h.stateDir l.records

/-- A method has returned after a move at most, and after none if it
returned an error. -/
def Moved (P : JailRecord → Prop) (l : Ledger) (r : Reconciler) {α : Type}
    (result : Except ReconcileError α) (r' : Reconciler) (t' : Trace (Op Text) (Host Text)) : Prop :=
  ∃ l', l.Move P l' ∧ l'.Is r' t'.world ∧ ∀ e, result = .error e → r'.records = r.records

/-- A method was cut off after a move at most. -/
def Cut (P : JailRecord → Prop) (l : Ledger) (_ : Stop) (t' : Trace (Op Text) (Host Text)) : Prop :=
  ∃ l', l.Move P l' ∧ Holds t'.world.stateDir l'.records

/-- **Keeping a record.** In memory already moved on to the next ordinal
or not, the record goes to disk and then to memory. -/
theorem wp_keep (record : JailRecord) {l₁ : Ledger} (h : l₁.Is r t.world) (hl : l.Move P l₁)
    (hname : record.spec.metadata.name ≠ "")
    (hmove : l.Move P (l₁.set record.spec.metadata.name (some record) l₁.next)) {r₀ : Reconciler}
    (hr : r.records = r₀.records) :
    (Reconciler.keep record.spec.metadata.name record : Method Text Unit).wp (Host.under allows)
      (Moved P l r₀) (Cut P l) r t := by
  rw [Reconciler.keep, Proc.bind_eq, Proc.wp_bind]
  refine wp_save (fun t' hsame => ⟨l₁, hl, h.holds.of_sameYaml hsame⟩) ?_ ?_
  · intro e t' hsame
    exact ⟨l₁, hl, ⟨h.records, h.next, h.holds.of_sameYaml hsame⟩, fun _ _ => hr⟩
  · intro t' hput
    refine ⟨_, hmove, ⟨fun name => ?_, h.next, h.holds.put hput hname⟩, fun e he => ?_⟩
    · simp only [Ledger.set, Table.lookup_insert_eq, Function.update_apply, h.records]
    · cases he

omit [Ipnet] in
/-- Nothing has moved. -/
theorem Ledger.Is.moved (h : l.Is r t.world) {α : Type} (result : Except ReconcileError α) :
    Moved P l r result r t :=
  ⟨l, .refl l, h, fun _ _ => rfl⟩

omit [Ipnet] in
theorem Ledger.Is.cut (h : l.Is r t.world) (x : Stop) : Cut P l x t := ⟨l, .refl l, h.holds⟩

/-- What an apply puts on record is of `P`. -/
structure Admits (P : JailRecord → Prop) (r : Reconciler) (spec : JailSpec) : Prop where
  create : Reconciler.validate spec = .ok () → r.records.lookup spec.metadata.name = none →
    r.nextEpairOrdinal + 1 < 2 ^ 32 → P ⟨spec, r.nextEpairOrdinal⟩
  amend : Reconciler.validate spec = .ok () → ∀ old,
    r.records.lookup spec.metadata.name = some old → validateTransition old.spec spec = .ok () →
    P old → P ⟨spec, old.epairOrdinal⟩

/-- **An apply** amends the record of its name, or creates one. -/
theorem wp_apply (h : l.Is r t.world) {spec : JailSpec} (hP : Admits P r spec) :
    (Reconciler.apply spec : Method Text Unit).wp (Host.under allows) (Moved P l r) (Cut P l) r t := by
  rw [Reconciler.apply, Proc.bind_eq, Proc.wp_bind]
  cases hvalid : Reconciler.validate spec with
  | error e => exact h.moved _
  | ok u =>
    have hname := ne_empty_of_validateName (validate_ok hvalid)
    simp only [Proc.ofExcept, Proc.wp_ret]
    rw [Proc.bind_eq, Proc.wp_bind, Reconciler.takeOrdinal, Proc.bind_eq, Proc.wp_bind, Proc.wp_get]
    cases hlookup : r.records.lookup spec.metadata.name with
    | some existing =>
      simp only [hlookup]
      cases htransition : validateTransition existing.spec spec with
      | error e => exact h.moved _
      | ok u =>
        refine wp_keep _ h (.refl l) hname (.amend ?_
          (fixed_of_validateTransition htransition)
          (hP.amend hvalid existing hlookup htransition)) rfl
        rw [← h.records]
        exact hlookup
    | none =>
      simp only [hlookup]
      cases hadd : Checked.add 32 r.nextEpairOrdinal 1 with
      | error p => exact h.cut _
      | ok next =>
        obtain ⟨hfits, hnext⟩ : r.nextEpairOrdinal + 1 < 2 ^ 32 ∧ next = l.next + 1 := by
          rw [Checked.add] at hadd
          split at hadd
          · rename_i hfits
            cases hadd
            rw [h.next] at hfits ⊢
            exact ⟨hfits, rfl⟩
          · cases hadd
        have hbumped : Ledger.Is ⟨l.records, l.next + 1⟩ { r with nextEpairOrdinal := next } t.world :=
          ⟨h.records, hnext, h.holds⟩
        refine wp_keep _ hbumped (.stay (Nat.le_succ _)) hname (.create ?_ h.next
          (hP.create hvalid hlookup hfits)) rfl
        rw [← h.records]
        exact hlookup

theorem wp_ensureIngressJail (h : l.Is r t.world) (hP : r.ingressRecords.entries ≠ [] →
      Admits P r Agent.Reconciler.ingressSpec) :
    (Reconciler.ensureIngressJail : Method Text Unit).wp (Host.under allows) (Moved P l r) (Cut P l)
      r t := by
  rw [Reconciler.ensureIngressJail, Proc.bind_eq, Proc.wp_bind, Proc.wp_get]
  simp only
  split
  · exact h.moved _
  · rename_i hmissing
    refine wp_apply h (hP fun hnil => hmissing ?_)
    rw [hnil]
    rfl

/-- Another target for a record's replicas. -/
def retarget (record : JailRecord) (replicateTo : Option String) : JailRecord :=
  { record with spec := { record.spec with spec := { record.spec.spec with replicateTo } } }

/-- Retargeting a record amends it. -/
theorem wp_setReplicateTo (h : l.Is r t.world) (name : String) (replicateTo : Option String)
    (hP : ∀ record, P record → P (retarget record replicateTo)) :
    (Reconciler.setReplicateTo name replicateTo : Method Text Unit).wp (Host.under allows)
      (Moved P l r) (Cut P l) r t := by
  rw [Reconciler.setReplicateTo, Proc.bind_eq, Proc.wp_bind]
  refine wp_find (fun record hlookup => ?_) fun _ => h.moved _
  have hrecord : l.records name = some record := by rw [← h.records, hlookup]
  obtain ⟨hnamed, hname⟩ := h.holds.named name record hrecord
  subst hnamed
  have hmove : l.Move P (l.set (retarget record replicateTo).spec.metadata.name
      (some (retarget record replicateTo)) l.next) :=
    .amend hrecord ⟨rfl, rfl, rfl, rfl⟩ (hP record)
  exact wp_keep (retarget record replicateTo) h (.refl l) hname hmove rfl

/-- **The rest of the machine.** A method that writes no record, and
keeps those in memory, moves nothing. -/
theorem wp_unmoved {α : Type} {m : Method Text α} {K : Reconciler → Prop} (h : l.Is r t.world)
    (hm : m.Keeps (Op.Leaves .state) (fun _ _ => True) True K) (hr : K r)
    (hK : ∀ r', K r' → r'.records = r.records ∧ r'.nextEpairOrdinal = r.nextEpairOrdinal) :
    m.wp (Host.under allows) (fun _ r' t' => r'.records = r.records ∧ l.Is r' t'.world)
      (fun _ t' => Holds t'.world.stateDir l.records) r t := by
  refine Proc.wp_mono ?_ ?_ (Proc.wp_of_makes (I := fun w => w.stateDir = t.world.stateDir) ?_
    (hm r hr) rfl t.since_self)
  · rintro _ r' t' ⟨hr', hdir, -⟩
    obtain ⟨hrecords, hnext⟩ := hK r' hr'
    refine ⟨hrecords, fun name => ?_, hnext.trans h.next, ?_⟩
    · rw [hrecords]
      exact h.records name
    · rw [hdir]
      exact h.holds
  · rintro _ t' ⟨-, hdir, -⟩
    rw [hdir]
    exact h.holds
  · intro ρ x c s w hc hw _
    exact ⟨trivial, (Host.dir_call x w hc).trans hw⟩

/-- The same, as a method that has moved nothing. -/
theorem wp_moved_of_keeps {α : Type} {m : Method Text α} {K : Reconciler → Prop}
    (h : l.Is r t.world) (hm : m.Keeps (Op.Leaves .state) (fun _ _ => True) True K) (hr : K r)
    (hK : ∀ r', K r' → r'.records = r.records ∧ r'.nextEpairOrdinal = r.nextEpairOrdinal) :
    m.wp (Host.under allows) (Moved P l r) (Cut P l) r t := by
  refine Proc.wp_mono ?_ ?_ (wp_unmoved h hm hr hK)
  · rintro _ r' t' ⟨hrecords, hr'⟩
    exact ⟨l, .refl l, hr', fun _ _ => hrecords⟩
  · intro _ t' ht'
    exact ⟨l, .refl l, ht'⟩

omit [Ipnet] [SerdeYaml Text JailRecord] in
theorem Op.OfJail.leaves {pool name : String} {record : JailRecord} {dir : Dir} {ρ : Type}
    {c : Op Text ρ} (h : c.OfJail pool name record) : c.Leaves dir := by
  cases c <;> first | exact trivial | exact h.elim

omit [Ipnet] [SerdeYaml Text JailRecord] in
theorem Op.OfIngress.leavesRecords {ρ : Type} {c : Op Text ρ} (h : c.OfIngress) :
    c.Leaves .state := by
  have hother : ∀ {d : Dir}, d = .ingress → d ≠ .state := by
    rintro d rfl hd
    cases hd
  cases c <;> first | exact trivial | exact h.elim | exact hother h

/-- **A delete** drops a record once its jail is torn down. -/
theorem wp_delete (h : l.Is r t.world) (name : String) :
    (Reconciler.delete name : Method Text Unit).wp (Host.under allows) (Moved P l r) (Cut P l) r t := by
  rw [Reconciler.delete, Proc.bind_eq, Proc.wp_bind]
  refine wp_find (fun record hlookup => ?_) fun _ => h.moved _
  have hteardown : (Reconciler.tearDownJail r.pool name record : Method Text Unit).Keeps
      (Op.Leaves .state) (fun _ _ => True) True (fun r' => r' = r) :=
    Reconciler.keeps_tearDownJail.imp (fun _ => Op.OfJail.leaves) fun _ _ _ hr => hr
  simp only [Proc.bind_eq]
  rw [Proc.wp_get_bind, Proc.wp_bind]
  refine Proc.wp_mono ?_ ?_ (wp_unmoved h hteardown rfl fun r' hr' => by rw [hr']; exact ⟨rfl, rfl⟩)
  · rintro result r' t' ⟨hrecords, hr'⟩
    cases result with
    | error e => exact ⟨l, .refl l, hr', fun _ _ => hrecords⟩
    | ok u =>
      rw [Proc.wp_bind]
      refine wp_remove (hr'.cut _) (fun e t'' ht'' => ?_) fun t'' hfiles => ?_
      · refine ⟨l, .refl l, ⟨hr'.records, hr'.next, ?_⟩, fun _ _ => hrecords⟩
        rw [ht'']
        exact hr'.holds
      · refine ⟨_, .drop name, ⟨fun n => ?_, hr'.next, ?_⟩, fun e he => ?_⟩
        · simp only [Ledger.set, Table.lookup_erase_eq, Function.update_apply, hr'.records]
        · exact (hr'.holds.erase name).of_sameYaml fun file _ => hfiles file
        · cases he
  · intro _ t' ht'
    exact ⟨l, .refl l, ht'⟩

/-! ## A pass -/

/-- The same records, and the same next ordinal. -/
def SameRecords (r r' : Reconciler) : Prop :=
  r'.records = r.records ∧ r'.nextEpairOrdinal = r.nextEpairOrdinal

omit [Ipnet] [SerdeYaml Text JailRecord] in
theorem sameRecords_reconcileOne (name : String) (now : ℕ) :
    (Reconciler.reconcileOne name now : Method Text Unit).Keeps (Op.Leaves .state)
      (fun _ _ => True) True (SameRecords r) :=
  Reconciler.keeps_reconcileOne (fun _ _ _ _ _ _ => Op.OfJail.leaves)
    (fun _ _ hr hr' => ⟨hr'.records.trans hr.1, hr'.nextEpairOrdinal.trans hr.2⟩)
    fun _ _ => ⟨fun _ => trivial, fun _ _ _ _ _ _ _ => trivial⟩

omit [Ipnet] [SerdeYaml Text JailRecord] in
/-- Serving ingresses leaves the records of jails. -/
theorem sameRecords_of_ofIngress {α : Type} {m : Method Text α}
    (hm : ∀ r₀, m.Keeps Op.OfIngress (fun _ _ => True) True (Reconciler.AgreesOnJails r₀)) :
    m.Keeps (Op.Leaves .state) (fun _ _ => True) True (SameRecords r) :=
  Reconciler.keeps_of_ofIngress hm (fun _ => Op.OfIngress.leavesRecords) fun _ _ hr hr' =>
    ⟨hr'.records.trans hr.1, hr'.nextEpairOrdinal.trans hr.2⟩

variable [SerdeYaml Text IngressRecord]

/-- What comes before the jails moves the ledger by the ingress jail at
most. -/
theorem wp_reconcileIngresses (h : l.Is r t.world) (p : Pass) (hP : r.ingressRecords.entries ≠ [] →
      Admits P r Agent.Reconciler.ingressSpec) :
    (Reconciler.reconcileIngresses p : Method Text Unit).wp (Host.under allows)
      (fun result r' t' => result = .ok () ∧ ∃ l', l.Move P l' ∧ l'.Is r' t'.world)
      (Cut P l) r t := by
  rw [Reconciler.reconcileIngresses]
  simp only [Proc.bind_eq]
  rw [Proc.wp_bind, Proc.wp_attempt]
  refine Proc.wp_mono ?_ (fun _ _ hx => hx) (wp_ensureIngressJail h hP)
  rintro result r₁ t₁ ⟨l₁, hmove, hl₁, -⟩
  -- whatever became of the ingress jail's record
  refine Proc.wp_mono ?_ ?_ (Proc.wp_of_neverFails ?_
    (wp_unmoved (K := SameRecords r₁) hl₁ ?_ ⟨rfl, rfl⟩ fun _ hr' => hr'))
  · rintro _ r' t' ⟨u, rfl, -, hr'⟩
    exact ⟨rfl, l₁, hmove, hr'⟩
  · intro _ t' ht'
    exact ⟨l₁, hmove, ht'⟩
  · exact Proc.neverFails_bind Reconciler.neverFails_reconcileCerts
      fun _ => Reconciler.neverFails_reconcileIngressConfig
  · refine Proc.keeps_bind ?_ fun _ => ?_
    · exact sameRecords_of_ofIngress fun _ => Reconciler.keeps_reconcileCerts
    · exact sameRecords_of_ofIngress fun _ => Reconciler.keeps_reconcileIngressConfig.imp
        (fun _ => Reconciler.OfConfig.ofIngress) fun _ _ _ h => h

/-- **A pass** moves the ledger by the ingress jail at most. -/
theorem wp_reconcile (h : l.Is r t.world) (p : Pass) (hP : r.ingressRecords.entries ≠ [] →
      Admits P r Agent.Reconciler.ingressSpec) :
    (Reconciler.reconcile p : Method Text _).wp (Host.under allows)
      (fun result r' t' => (∃ failures, result = .ok failures) ∧
        ∃ l', l.Move P l' ∧ l'.Is r' t'.world) (Cut P l) r t := by
  refine Proc.wp_seq (wp_reconcileIngresses h p hP) ?_ ?_ fun _ _ hx => hx
  · rintro _ r₁ t₁ ⟨-, l₁, hmove, hl₁⟩
    refine Proc.wp_mono ?_ ?_ (Proc.wp_of_neverFails ?_
      (wp_unmoved (K := SameRecords r₁) hl₁ ?_ ⟨rfl, rfl⟩ fun _ hr' => hr'))
    · rintro _ r' t' ⟨failures, rfl, -, hr'⟩
      exact ⟨⟨failures, rfl⟩, l₁, hmove, hr'⟩
    · intro _ t' ht'
      exact ⟨l₁, hmove, ht'⟩
    · exact Proc.neverFails_bind Proc.neverFails_get fun _ => Reconciler.neverFails_reconcileAll
    · exact Proc.keeps_get_bind fun _ _ =>
        Reconciler.keeps_reconcileAll fun name _ => sameRecords_reconcileOne name p.now
  · rintro e r₁ t₁ ⟨he, -⟩
    cases he

/-! ## A start -/

/-- **A start** reads the ledger back; the next ordinal is past every one
in use. -/
theorem wp_new (pool : String) (h : Holds t.world.stateDir l.records) (hl : l.Sound P) :
    (Reconciler.new pool : Method Text Unit).wp (Host.under allows)
      (fun result r' t' => Holds t'.world.stateDir l.records ∧ (result = .ok () →
        ∃ next, Ledger.Sound P ⟨l.records, next⟩ ∧ Ledger.Is ⟨l.records, next⟩ r' t'.world))
      (fun _ t' => Holds t'.world.stateDir l.records) r t := by
  have hload : ∀ {t' : Trace (Op Text) (Host Text)}, t'.world = t.world →
      Holds t'.world.stateDir l.records := by
    intro t' ht'
    rw [ht']
    exact h
  rw [Reconciler.new]
  simp only [Proc.bind_eq]
  refine Proc.wp_seq (wp_loadAll h) ?_ ?_ fun _ _ hx => hload hx.2
  · rintro loaded r₁ t₁ ⟨-, ht₁, hmem, hnodup⟩
    cases hnext : Reconciler.firstFreeOrdinal loaded with
    | error p => exact hload ht₁
    | ok next =>
      -- the ingresses are read from elsewhere
      have hingress : (ingressStore.loadAll : Method Text _).Keeps (Op.Leaves .state)
          (fun _ _ => True) True fun _ => True := by
        refine Reconciler.keeps_loadYaml.imp (fun c hc => ?_) fun _ _ _ hr => hr
        cases c <;> first | exact trivial | exact hc.elim
      have hdir : ∀ t₂ : Trace (Op Text) (Host Text), t₂.world.stateDir = t.world.stateDir →
          Holds t₂.world.stateDir l.records := by
        intro t₂ ht₂
        rw [ht₂]
        exact h
      rw [Proc.ofChecked, Proc.ret_bind]
      refine Proc.wp_seq (Proc.wp_of_makes (I := fun w => w.stateDir = t.world.stateDir) ?_
        (hingress r₁ trivial) (by rw [ht₁]) t₁.since_self) ?_ ?_ fun _ t₂ ht₂ => hdir t₂ ht₂.2.1
      · intro ρ x c s w hc hw _
        exact ⟨trivial, (Host.dir_call x w hc).trans hw⟩
      · rintro ingressLoaded r₂ t₂ ⟨-, ht₂, -⟩
        refine ⟨hdir t₂ ht₂, fun _ => ⟨next, ⟨hl.distinct, fun n a ha => ?_, hl.record⟩, ?_, rfl,
          hdir t₂ ht₂⟩⟩
        · exact lt_of_firstFreeOrdinal hnext ((hmem a).2 ⟨n, ha⟩)
        · intro name
          apply Option.ext
          intro record
          rw [lookup_collect_iff hnodup, hmem]
          constructor
          · rintro ⟨⟨name', hrecord⟩, hname⟩
            rw [← hname, (h.named name' record hrecord).1]
            exact hrecord
          · intro hrecord
            exact ⟨⟨name, hrecord⟩, (h.named name record hrecord).1⟩
      · rintro e r₂ t₂ ⟨-, ht₂, -⟩
        exact ⟨hdir t₂ ht₂, fun he => by cases he⟩
  · rintro e r₁ t₁ ⟨-, ht₁, -⟩
    exact ⟨hload ht₁, fun he => by cases he⟩

/-! ## An agent's life -/

/-- **Every method** moves the ledger once at most. -/
theorem Operation.wp_method (h : l.Is r t.world) {op : Operation}
    (happly : ∀ spec, op = .apply spec → Admits P r spec)
    (hretarget : ∀ record replicateTo, P record → P (retarget record replicateTo))
    (hingress : r.ingressRecords.entries ≠ [] → Admits P r Agent.Reconciler.ingressSpec) :
    (op.method : Method Text Unit).wp (Host.under allows) (Moved P l r) (Cut P l) r t := by
  -- what leaves the records alone, in memory and on disk
  have hrest : ∀ {m : Method Text Unit}, m.Keeps (Op.Leaves .state) (fun _ _ => True) True
      (SameRecords r) → m.wp (Host.under allows) (Moved P l r) (Cut P l) r t :=
    fun hm => wp_moved_of_keeps h hm ⟨rfl, rfl⟩ fun _ hr' => hr'
  cases op with
  | apply spec => exact wp_apply h (happly spec rfl)
  | delete name => exact wp_delete h name
  | setReplicateTo name replicateTo =>
    exact wp_setReplicateTo h name replicateTo fun record => hretarget record replicateTo
  | applyIngress spec =>
    exact hrest (sameRecords_of_ofIngress fun _ => Reconciler.keeps_applyIngress)
  | deleteIngress name =>
    exact hrest (sameRecords_of_ofIngress fun _ => Reconciler.keeps_deleteIngress)
  | ensureIngressJail => exact wp_ensureIngressJail h hingress
  | reconcile p =>
    refine Proc.wp_seq (wp_reconcile h p hingress) ?_ ?_ fun _ _ hx => hx
    · rintro failures r' t' ⟨-, l', hmove, hr'⟩
      exact ⟨l', hmove, hr', fun e he => by cases he⟩
    · rintro e r' t' ⟨⟨failures, he⟩, -⟩
      cases he
  | get name now =>
    exact hrest (Proc.keeps_bind (Reconciler.keeps_get fun _ => trivial) fun _ => Proc.keeps_ret)
  | list now =>
    exact hrest (Proc.keeps_bind (Reconciler.keeps_list fun _ => trivial) fun _ => Proc.keeps_ret)
  | committedResources order =>
    exact hrest (Proc.keeps_bind (Reconciler.keeps_committedResources fun _ _ _ _ => trivial)
      fun _ => Proc.keeps_ret)
  | getVolume name => exact hrest (Reconciler.keeps_getVolume fun _ => trivial)
  | deleteVolume name =>
    exact hrest (Proc.keeps_get_bind fun _ _ => Proc.keeps_tryCall trivial)
  | addRoute subnet gatewayAddr => exact hrest (Proc.keeps_tryCall trivial)
  | removeRoute subnet => exact hrest (Proc.keeps_tryCall trivial)
  | addAlias bridge address => exact hrest (Proc.keeps_tryCall trivial)
  | removeAlias bridge address => exact hrest (Proc.keeps_tryCall trivial)

omit [Ipnet] [SerdeYaml Text IngressRecord] in
/-- What an agent has on record is the ledger's, on disk and, while it is
up, in memory. -/
structure System.Tracks (P : JailRecord → Prop) (l : Ledger) (sys : System Text (Host Text)) : Prop where
  sound : l.Sound P
  holds : Holds sys.trace.world.stateDir l.records
  memory : ∀ r, sys.memory = some r → l.Is r sys.trace.world

/-- **One event** moves the ledger once at most, up to the next ordinal,
which a start finds again. -/
theorem System.Tracks.step (pool : String) (choices : ℕ → Option (Outcome Text))
    {sys : System Text (Host Text)} (h : sys.Tracks P l) (e : Event Exit)
    (happly : ∀ r spec, sys.memory = some r → e = .operation (.apply spec) → Admits P r spec)
    (hretarget : ∀ record replicateTo, P record → P (retarget record replicateTo))
    (hingress : ∀ r, sys.memory = some r → r.ingressRecords.entries ≠ [] →
      Admits P r Agent.Reconciler.ingressSpec) :
    ∃ l', (sys.step (Host.world pool choices) e).Tracks P l' ∧
      ∀ name a b, l.records name = some a → l'.records name = some b → Fixed a b := by
  have hsame : ∀ name a b, l.records name = some a → l.records name = some b → Fixed a b := by
    intro name a b ha hb
    cases ha.symm.trans hb
    exact .refl a
  cases e with
  | operation op =>
    cases hmemory : sys.memory with
    | none =>
      refine ⟨l, ?_, hsame⟩
      simpa only [System.step, hmemory] using h
    | some r =>
      simp only [System.step, hmemory]
      refine System.of_ended (I := fun sys => ∃ l', sys.Tracks P l' ∧
        ∀ name a b, l.records name = some a → l'.records name = some b → Fixed a b)
        (Host.meets_of_wp (op.wp_method (h.memory r hmemory)
          (fun spec hspec => happly r spec hmemory (by rw [hspec])) hretarget (hingress r hmemory))) ?_ ?_
      · rintro result r' t' ⟨l', hmove, hr', -⟩
        refine ⟨l', ⟨h.sound.move hmove, hr'.holds, fun r'' hr'' => ?_⟩, fun _ _ _ => hmove.fixed⟩
        cases hr''
        exact hr'
      · rintro x t' ⟨l', hmove, hholds⟩
        refine ⟨l', ⟨h.sound.move hmove, hholds, fun r'' hr'' => ?_⟩, fun _ _ _ => hmove.fixed⟩
        cases hr''
  | start =>
    cases hmemory : sys.memory with
    | some r =>
      refine ⟨l, ?_, hsame⟩
      simpa only [System.step, hmemory] using h
    | none =>
      have hdown : ∀ t : Trace (Op Text) (Host Text), Holds t.world.stateDir l.records →
          ∃ l', System.Tracks P l' ⟨none, t⟩ ∧
            ∀ name a b, l.records name = some a → l'.records name = some b → Fixed a b := by
        intro t ht
        refine ⟨l, ⟨h.sound, ht, fun r hr => ?_⟩, hsame⟩
        cases hr
      simp only [System.step, hmemory]
      refine System.of_started (I := fun sys => ∃ l', sys.Tracks P l' ∧
        ∀ name a b, l.records name = some a → l'.records name = some b → Fixed a b)
        (Host.meets_of_wp (wp_new pool h.holds h.sound)) ?_
        (fun _ _ t ht => hdown t ht.1) fun _ => hdown
      rintro r t ⟨hholds, hnew⟩
      obtain ⟨next, hsound, hr⟩ := hnew rfl
      refine ⟨_, ⟨hsound, hholds, fun r' hr' => ?_⟩, hsame⟩
      cases hr'
      exact hr
  | kill =>
    refine ⟨l, ⟨h.sound, h.holds, fun r hr => ?_⟩, hsame⟩
    cases hr
  | outside x =>
    obtain ⟨jail⟩ := x
    obtain ⟨jails, hjails⟩ := sys.trace.world.withJail_eq jail
      fun jail => { jail with running := false }
    have hdir : (Host.happens (.exits jail) sys.trace.world).stateDir = sys.trace.world.stateDir := by
      rw [Host.happens, Host.markExited, hjails]
    refine ⟨l, ⟨h.sound, ?_, fun r hr => ⟨(h.memory r hr).records, (h.memory r hr).next, ?_⟩⟩, hsame⟩
    · exact hdir ▸ h.holds
    · exact hdir ▸ h.holds

/-- Every spec on record has passed the checks of an apply. -/
def Validated (record : JailRecord) : Prop := Reconciler.validate record.spec = .ok ()

omit [SerdeYaml Text JailRecord] [SerdeYaml Text IngressRecord] in
theorem admits_validated (r : Reconciler) (spec : JailSpec) : Admits Validated r spec :=
  ⟨fun hvalid _ _ => hvalid, fun hvalid _ _ _ _ => hvalid⟩

omit [Ipnet] [SerdeYaml Text JailRecord] [SerdeYaml Text IngressRecord] in
/-- The records are apart: valid names, and no ordinal twice. -/
structure Reconciler.Apart (r : Reconciler) : Prop where
  valid : ∀ n a, r.records.lookup n = some a → validateName n = .ok ()
  distinct : ∀ n m a b, r.records.lookup n = some a → r.records.lookup m = some b → n ≠ m →
    a.epairOrdinal ≠ b.epairOrdinal

omit [Ipnet] [SerdeYaml Text JailRecord] [SerdeYaml Text IngressRecord] in
theorem Reconciler.Apart.of_records {r r' : Reconciler} (h : r.Apart)
    (hrecords : r'.records = r.records) : r'.Apart := by
  refine ⟨fun n a ha => ?_, fun n m a b ha hb => ?_⟩
  · rw [hrecords] at ha
    exact h.valid n a ha
  · rw [hrecords] at ha hb
    exact h.distinct n m a b ha hb

omit [SerdeYaml Text IngressRecord] in
/-- Those of a sound ledger are. -/
theorem Ledger.Is.apart (h : l.Is r t.world) (hl : l.Sound P)
    (hP : ∀ record, P record → Validated record) : r.Apart := by
  refine ⟨fun n a ha => ?_, fun n m a b ha hb hne heq => ?_⟩
  · rw [h.records] at ha
    rw [← (h.holds.named n a ha).1]
    exact validate_ok (hP a (hl.record n a ha))
  · rw [h.records] at ha hb
    exact hne (hl.distinct n m a b ha hb heq)

omit [Ipnet] [SerdeYaml Text IngressRecord] in
/-- Before its first start an agent has nothing on record. -/
theorem System.tracks_fresh {machine : Host Text} (hmachine : ∀ file content,
      machine.stateDir.lookup file = some content → extension file ≠ some "yaml") :
    (System.fresh machine).Tracks P ⟨fun _ => none, 1⟩ := by
  refine ⟨⟨?_, ?_, ?_⟩, holds_none hmachine, ?_⟩
  · intro n m a b ha
    cases ha
  · intro n a ha
    cases ha
  · intro n a ha
    cases ha
  · intro r hr
    cases hr

theorem Host.life_tracks (pool : String) (choices : ℕ → Option (Outcome Text)) {machine : Host Text}
    (hmachine : ∀ file content, machine.stateDir.lookup file = some content →
      extension file ≠ some "yaml") (events : List (Event Exit)) :
    ∃ l, (machine.life pool choices events).Tracks Validated l := by
  refine System.after_induction (I := fun sys => ∃ l, System.Tracks Validated l sys)
    (P := fun _ => True) (Host.world pool choices) ?_ (fun _ _ => trivial) ?_
  · rintro sys e - ⟨l, hl⟩
    obtain ⟨l', hl', -⟩ := hl.step pool choices e (fun _ _ _ _ => admits_validated _ _)
      (fun _ _ hvalid => hvalid) fun _ _ _ => admits_validated _ _
    exact ⟨l', hl'⟩
  · exact ⟨_, System.tracks_fresh hmachine⟩

end Methods

end Node

end Keel
