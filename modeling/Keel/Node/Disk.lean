import Keel.Node.Helpers.Ledger
/-!
# Memory and disk

An agent's records are on disk before they are in memory and gone from
disk before they are gone from memory, and the one write that counts is a
rename. So, whatever fails and wherever the process is cut off, the
records in memory are those a load would return, a method that returns an
error has changed neither, and no two records share an ordinal.
-/

namespace Keel

namespace Node

open Agent (JailRecord)

section Durable

variable {Text : Type} [Ipnet] [SerdeYaml Text JailRecord]

/-- What `store::load_all` returns on a machine where no call fails, in
whichever order the directory is listed: these records, each once. -/
def Host.Loads (h : Host Text) (records : String → Option JailRecord) : Prop :=
  ∀ choices r, Reliable choices → ∃ loaded t,
    (store.loadAll : Method Text _).run Host.outside choices r ⟨h, []⟩ =
      (.returned (.ok loaded) r, t) ∧
    (loaded.map fun record => record.spec.metadata.name).Nodup ∧
    ∀ name record, records name = some record ↔
      record ∈ loaded ∧ record.spec.metadata.name = name

theorem Holds.loads {h : Host Text} {records : String → Option JailRecord}
    (hholds : Holds h.stateDir records) : h.Loads records := by
  intro choices r hchoices
  obtain ⟨result, r', t', hrun, rfl, -, hresult⟩ := Host.returns_of_wp (Proc.wp_mono
    (fun _ _ _ hq => hq) (fun _ _ hx => hx.1) (wp_loadAll (t := ⟨h, []⟩) hholds)) hchoices
  rw [hrun]
  cases result with
  | error e =>
    exact absurd hresult not_fallible_of_works
  | ok loaded =>
    obtain ⟨hmem, hnodup⟩ := hresult
    refine ⟨loaded, t', rfl, hnodup, fun name record => ?_⟩
    rw [hmem]
    constructor
    · intro hrecord
      exact ⟨⟨name, hrecord⟩, (hholds.named name record hrecord).1⟩
    · rintro ⟨⟨name', hrecord⟩, hname⟩
      rw [← hname, (hholds.named name' record hrecord).1]
      exact hrecord

/-- One load has one result. -/
theorem Host.Loads.unique {h : Host Text} {records records' : String → Option JailRecord}
    (hloads : h.Loads records) (hloads' : h.Loads records') : records = records' := by
  have hworks : Reliable fun _ => some (Outcome.works : Outcome Text) := fun _ => ⟨_, rfl, rfl⟩
  obtain ⟨loaded, t, hrun, -, hmem⟩ := hloads _ (Reconciler.blank "") hworks
  obtain ⟨loaded', t', hrun', -, hmem'⟩ := hloads' _ (Reconciler.blank "") hworks
  cases hrun.symm.trans hrun'
  funext name
  apply Option.ext
  intro record
  rw [hmem, hmem']

/-- No two records share an ordinal, and the next is past them all. -/
structure Reconciler.OrdinalsUnique (r : Reconciler) : Prop where
  distinct : ∀ n m a b, r.records.lookup n = some a → r.records.lookup m = some b → n ≠ m →
    a.epairOrdinal ≠ b.epairOrdinal
  below : ∀ n a, r.records.lookup n = some a → a.epairOrdinal < r.nextEpairOrdinal

/-- The agent's machine has a record on disk. -/
def System.Recorded (sys : System Text (Host Text)) (name : String) (record : JailRecord) : Prop :=
  ∃ records, sys.trace.world.Loads records ∧ records name = some record

section Life

variable [SerdeYaml Text IngressRecord]

variable {pool : String} {choices : ℕ → Option (Outcome Text)} {machine : Host Text}

omit [SerdeYaml Text IngressRecord] in
theorem System.Tracks.recorded {P : JailRecord → Prop} {l : Ledger} {sys : System Text (Host Text)}
    (h : sys.Tracks P l) {name : String} {record : JailRecord} (hrecord : sys.Recorded name record) :
    l.records name = some record := by
  obtain ⟨records, hloads, hlookup⟩ := hrecord
  rw [h.holds.loads.unique hloads]
  exact hlookup

/-- What a record keeps over one event, it keeps for as long as it is
there. -/
theorem fixed_while_recorded (hmachine : ∀ file content,
      machine.stateDir.lookup file = some content → extension file ≠ some "yaml")
    (events later : List (Event Exit)) {name : String} {a b : JailRecord}
    (ha : (machine.life pool choices events).Recorded name a)
    (hb : (machine.life pool choices (events ++ later)).Recorded name b)
    (hthere : ∀ k ≤ later.length, ∃ c,
      (machine.life pool choices (events ++ later.take k)).Recorded name c) : Fixed a b := by
  induction later using List.reverseRecOn generalizing b with
  | nil =>
    obtain ⟨l, hl⟩ := Host.life_tracks pool choices hmachine events
    rw [List.append_nil] at hb
    cases (hl.recorded ha).symm.trans (hl.recorded hb)
    exact .refl a
  | append_singleton later e ih =>
    have htake : ∀ k ≤ later.length, (later ++ [e]).take k = later.take k := fun k hk =>
      List.take_append_of_le_length hk
    obtain ⟨c, hc⟩ := hthere later.length (by simp)
    rw [htake _ le_rfl, List.take_length] at hc
    have hac : Fixed a c := by
      refine ih hc fun k hk => ?_
      obtain ⟨c', hc'⟩ := hthere k (by rw [List.length_append]; omega)
      exact ⟨c', htake k hk ▸ hc'⟩
    obtain ⟨l, hl⟩ := Host.life_tracks pool choices hmachine (events ++ later)
    obtain ⟨l', hl', hfixed⟩ := hl.step pool choices e
      (fun _ _ _ _ => admits_validated _ _) (fun _ _ hvalid => hvalid)
      fun _ _ _ => admits_validated _ _
    have hlast : machine.life pool choices (events ++ (later ++ [e])) =
        (machine.life pool choices (events ++ later)).step (Host.world pool choices) e := by
      rw [← List.append_assoc, Host.life, System.after_append]
      rfl
    rw [hlast] at hb
    exact hac.trans (hfixed name c b (hl.recorded hc) (hl'.recorded hb))

/-- **Memory is disk.** After any events, on a machine any call may fail
on or go down at: the records in memory are those a load returns, their
ordinals are distinct and below the next; a method that returns an error
has changed neither side; and a record keeps its ordinal, image, address
and volumes for as long as it is there. -/
theorem records_durable (pool : String) (choices : ℕ → Option (Outcome Text)) (machine : Host Text)
    (hmachine : ∀ file content, machine.stateDir.lookup file = some content →
      extension file ≠ some "yaml") (events : List (Event Exit)) :
    (∀ r, (machine.life pool choices events).memory = some r →
      (machine.life pool choices events).trace.world.Loads r.records.lookup ∧
      r.OrdinalsUnique ∧
      ∀ (op : Operation) e r' t', op.method.run Host.outside choices r
          (machine.life pool choices events).trace = (.returned (.error e) r', t') →
        r'.records = r.records ∧ t'.world.Loads r.records.lookup) ∧
    ∀ later name a b, (machine.life pool choices events).Recorded name a →
      (machine.life pool choices (events ++ later)).Recorded name b →
      (∀ k ≤ later.length, ∃ c,
        (machine.life pool choices (events ++ later.take k)).Recorded name c) → Fixed a b := by
  refine ⟨fun r hr => ?_, fun later name a b ha hb hthere =>
    fixed_while_recorded hmachine events later ha hb hthere⟩
  obtain ⟨l, hl⟩ := Host.life_tracks pool choices hmachine events
  have his := hl.memory r hr
  have hrecords : r.records.lookup = l.records := funext his.records
  refine ⟨?_, ⟨?_, ?_⟩, ?_⟩
  · rw [hrecords]
    exact hl.holds.loads
  · intro n m a b ha hb hne heq
    rw [his.records] at ha hb
    exact hne (hl.sound.distinct n m a b ha hb heq)
  · intro n a ha
    rw [his.records] at ha
    rw [his.next]
    exact hl.sound.below n a ha
  · intro op e r' t' hrun
    have hmeets : Ended.Meets _ _ (op.method.run Host.outside choices r
        (machine.life pool choices events).trace) :=
      Host.meets_of_wp (op.wp_method (P := Validated) his (fun _ _ => admits_validated _ _)
        (fun _ _ hvalid => hvalid) fun _ => admits_validated _ _)
    rw [hrun] at hmeets
    obtain ⟨l', -, his', herror⟩ := hmeets
    have hkept : r'.records = r.records := herror e rfl
    refine ⟨hkept, ?_⟩
    rw [← hkept, funext his'.records]
    exact his'.holds.loads

end Life

end Durable

section

open Agent.Sample (jail)
open scoped Agent.Sample Node.Sample

/-- The rename of a first apply fails, a second apply works, and the agent
is killed and started again: it comes up with the second record, under
the ordinal it had. -/
theorem records_durable_sample :
    ∃ r, (Sample.host.life "zroot" (Sample.failing 6)
        [.start, .operation (.apply (jail "db-0" none)), .operation (.apply (jail "db-1" none)),
          .kill, .start]).memory = some r ∧
      r.records.keys = ["db-1"] ∧ r.nextEpairOrdinal = 3 ∧
      (Sample.host.life "zroot" (Sample.failing 6)
        [.start, .operation (.apply (jail "db-0" none)), .operation (.apply (jail "db-1" none)),
          .kill, .start]).trace.world.Loads r.records.lookup ∧ r.OrdinalsUnique := by
  have hmemory : (Sample.host.life "zroot" (Sample.failing 6)
      [.start, .operation (.apply (jail "db-0" none)), .operation (.apply (jail "db-1" none)),
        .kill, .start]).memory.map (fun r => (r.records.keys, r.nextEpairOrdinal)) =
      some (["db-1"], 3) := by decide +kernel
  obtain ⟨r, hr, hkeys⟩ := Option.map_eq_some_iff.1 hmemory
  obtain ⟨hloads, hordinals, -⟩ := (records_durable "zroot" (Sample.failing 6) Sample.host
    (fun file content hfile => by cases hfile)
    [.start, .operation (.apply (jail "db-0" none)), .operation (.apply (jail "db-1" none)),
      .kill, .start]).1 r hr
  exact ⟨r, hr, congrArg Prod.fst hkeys, congrArg Prod.snd hkeys, hloads, hordinals⟩

end

end Node

end Keel
