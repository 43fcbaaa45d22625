import Keel.Node.Disk
import Keel.Node.Panics
import Keel.Node.Helpers.Visited
/-!
# Changes to a spec

A re-apply that is accepted puts the new spec on record, under the ordinal
there was. What the next pass makes of it depends on the jail: one that is
not there is provisioned from the new spec; one that has exited is set up
from it, but for its virtual network, which it keeps as it was created;
one that runs is given the new limits.
-/

namespace Keel

namespace Node

open Agent (JailRecord)
open Reconciler (Comes)

variable {Text : Type}

/-! ## The re-apply -/

section Apply

variable [Ipnet] [SerdeYaml Text JailRecord]
variable {allows : {ρ : Type} → Outcome Text → Op Text ρ → Reconciler → Host Text → Prop}
variable {r : Reconciler} {t : Trace (Op Text) (Host Text)} {spec : JailSpec} {old : JailRecord}

/-- What has been kept is on record. -/
theorem wp_keep_lookup (record : JailRecord) :
    (Reconciler.keep record.spec.metadata.name record : Method Text Unit).wp (Host.under allows)
      (fun result r' _ => result = .ok () →
        r'.records.lookup record.spec.metadata.name = some record)
      (fun _ _ => True) r t := by
  rw [Reconciler.keep, Proc.bind_eq, Proc.wp_bind]
  refine wp_save (fun _ _ => trivial) (fun e _ _ he => by cases he) fun t' _ _ => ?_
  exact AList.lookup_insert _

/-- **A re-apply** that returns `Ok` has put the new spec on record. -/
theorem wp_apply_change (hold : r.records.lookup spec.metadata.name = some old) :
    (Reconciler.apply spec : Method Text Unit).wp (Host.under allows)
      (fun result r' _ => result = .ok () →
        r'.records.lookup spec.metadata.name = some ⟨spec, old.epairOrdinal⟩)
      (fun _ _ => True) r t := by
  rw [Reconciler.apply, Proc.bind_eq, Proc.wp_bind]
  cases hvalid : Reconciler.validate spec with
  | error e =>
    intro he
    cases he
  | ok u =>
    simp only [Proc.ofExcept, Proc.wp_ret]
    rw [Proc.bind_eq, Proc.wp_bind, Reconciler.takeOrdinal, Proc.bind_eq, Proc.wp_get_bind, hold]
    dsimp only
    cases htransition : validateTransition old.spec spec with
    | error e =>
      intro he
      cases he
    | ok u =>
      exact wp_keep_lookup ⟨spec, old.epairOrdinal⟩

end Apply

/-! ## The pass -/

section Pass

variable [Ipnet] [SerdeYaml Text JailRecord] [SerdeYaml Text IngressRecord]
variable {final : ℕ → Option (Outcome Text)} {l : Ledger} {p : Pass} {name : String}
variable {record : JailRecord} {r : Reconciler} {t : Trace (Op Text) (Host Text)}

/-- **A pass over a record takes effect**: the jail is left as a visit that
returns `Ok` makes it (`Visited`). That is so of a pass that reports no
failure of it, and of a pass that comes to it with no call failing, unless
there is no image to provision it from, or no gateway to start it under. -/
structure TakesEffect (final : ℕ → Option (Outcome Text)) (p : Pass) (name : String)
    (record : JailRecord) (r : Reconciler) (t : Trace (Op Text) (Host Text)) : Prop where
  clean : ∀ failures r' t', (Reconciler.reconcile p).run Host.outside final r t =
    (.returned (.ok failures) r', t') → (∀ e, (name, e) ∉ failures) →
    Visited r.pool name record t.world t'.world
  reliable : Reliable final → ∀ r₂ t₂, Comes final p name r t r₂ t₂ →
    (t.world.jails.lookup (jailName name) = none →
      baseDatasetPath r.pool record.spec.spec.image ∈ t₂.world.zfs.datasets) →
    ((taskFor name record t.world).isAttempt = true →
      GatewayFits record.spec.spec.network.address) →
    (∃ r₃ t₃, (Reconciler.reconcileOne name p.now).run Host.outside final r₂ t₂ =
      (.returned (.ok ()) r₃, t₃)) ∧
    Visited r.pool name record t.world ((Reconciler.reconcile p).run Host.outside final r t).2.world

/-- Where the cooldown is over, it does. -/
theorem takesEffect (hl : l.Sound Validated) (his : l.Is r t.world)
    (hrecord : r.records.lookup name = some record)
    (hready : (r.cooldown name).canRetry p.now = true) : TakesEffect final p name record r t := by
  have hvalid : Validated record := by
    have hentry : l.records name = some record := (his.records name).symm.trans hrecord
    exact hl.record name record hentry
  -- a visit that returns `Ok`, and what there is before and after it
  have hvisited : ∀ {r₂ r₃ : Reconciler} {t₂ t₃ : Trace (Op Text) (Host Text)},
      Comes final p name r t r₂ t₂ →
      (Reconciler.reconcileOne name p.now).run Host.outside final r₂ t₂ =
        (.returned (.ok ()) r₃, t₃) →
      Visited r.pool name record t.world
        ((Reconciler.reconcile p).run Host.outside final r t).2.world := by
    intro r₂ r₃ t₂ t₃ hcomes hvisit
    have harrived := hcomes.arrived hl his hrecord
    have hready₂ : (r₂.cooldown name).canRetry p.now = true := by
      rw [harrived.aside.cooldown_eq]
      exact hready
    have hvisited := visited_of_ok (harrived.aside.record.trans hrecord) hvalid hready₂ hvisit
    rw [harrived.aside.pool] at hvisited
    exact hvisited.of_sameOn harrived.same (hcomes.departed hl his hrecord hvisit).same
  refine ⟨fun failures r' t' hrun hclean => ?_, fun hfinal r₂ t₂ hcomes himage hfits => ?_⟩
  · obtain ⟨r₂, t₂, visited, r₃, t₃, hcomes, hvisit, hdeparted⟩ :=
      Reconciler.departed_of_returned hl his hrecord hrun
    obtain ⟨-, failures', hfailures', hreported⟩ := hdeparted.returned _ r' rfl
    cases hfailures'
    cases visited with
    | error e => exact absurd ((hreported e).2 rfl) (hclean e)
    | ok u =>
      have hdone := hvisited hcomes hvisit
      rw [hrun] at hdone
      exact hdone
  · have harrived := hcomes.arrived hl his hrecord
    have hthere : t₂.world.jails.lookup (jailName name) = t.world.jails.lookup (jailName name) :=
      harrived.same.jails _ rfl
    have htask : taskFor name record t₂.world = taskFor name record t.world := by
      rw [taskFor, hthere, taskFor]
    have hready₂ : (r₂.cooldown name).canRetry p.now = true := by
      rw [harrived.aside.cooldown_eq]
      exact hready
    obtain ⟨result, r₃, t₃, hvisit, hresult⟩ := Host.returns_of_wp
      (wp_visit (harrived.aside.record.trans hrecord) hvalid (by rw [htask]; exact hfits) hready₂)
      hfinal
    rw [hthere, harrived.aside.pool] at hresult
    obtain ⟨e, -, hfallible⟩ | ⟨rfl, -⟩ := hresult
    · exact absurd (hfallible himage) not_fallible_of_works
    · exact ⟨⟨r₃, t₃, hvisit⟩, hvisited hcomes hvisit⟩

/-! ## Changes take effect -/

/-- **Accepted changes take effect.** In any life of an agent, on a machine
any call may fail on or go down at, a re-apply that returns `Ok` puts the
new spec on record; and whatever happens then, while that is the record,
a pass after the cooldown takes effect for it. -/
theorem accepted_changes_applied (pool : String) (choices : ℕ → Option (Outcome Text))
    {machine : Host Text} (hmachine : ∀ file content,
      machine.stateDir.lookup file = some content → extension file ≠ some "yaml")
    (events : List (Event Exit)) {r : Reconciler} {t : Trace (Op Text) (Host Text)}
    (hreached : machine.life pool choices events = ⟨some r, t⟩) {spec : JailSpec}
    {old : JailRecord} (hold : r.records.lookup spec.metadata.name = some old) {r₁ : Reconciler}
    {t₁ : Trace (Op Text) (Host Text)}
    (happly : (Reconciler.apply spec).run Host.outside choices r t = (.returned (.ok ()) r₁, t₁)) :
    machine.life pool choices (events ++ [.operation (.apply spec)]) = ⟨some r₁, t₁⟩ ∧
    r₁.records.lookup spec.metadata.name = some ⟨spec, old.epairOrdinal⟩ ∧
    ∀ (later : List (Event Exit)) (r₂ : Reconciler) (t₂ : Trace (Op Text) (Host Text)),
      machine.life pool choices (events ++ .operation (.apply spec) :: later) = ⟨some r₂, t₂⟩ →
      r₂.records.lookup spec.metadata.name = some ⟨spec, old.epairOrdinal⟩ →
      r₂.pool = pool ∧ ∀ (p : Pass) (final : ℕ → Option (Outcome Text)),
        (r₂.cooldown spec.metadata.name).canRetry p.now = true →
        TakesEffect final p spec.metadata.name ⟨spec, old.epairOrdinal⟩ r₂ t₂ := by
  refine ⟨?_, ?_, fun later r₂ t₂ hlater hrecord => ⟨?_, fun p final hready => ?_⟩⟩
  · rw [Host.life] at hreached ⊢
    rw [System.after_append, hreached]
    change System.ended
      ((Reconciler.apply spec : Method Text Unit).run Host.outside choices r t) = _
    rw [happly]
    rfl
  · have hmeets : Ended.Meets _ _ ((Reconciler.apply spec).run Host.outside choices r t) :=
      Host.meets_of_wp (wp_apply_change hold)
    rw [happly] at hmeets
    exact hmeets rfl
  · have hon : (machine.life pool choices
        (events ++ .operation (.apply spec) :: later)).OnPool pool := System.onPool_after
    rw [hlater] at hon
    exact hon r₂ rfl
  · obtain ⟨l, hl⟩ := Host.life_tracks pool choices hmachine
      (events ++ .operation (.apply spec) :: later)
    rw [hlater] at hl
    exact takesEffect hl.sound (hl.memory r₂ rfl) hrecord hready

end Pass

section

open Agent.Sample (jail)
open scoped Agent.Sample Node.Sample

namespace Sample

/-- A jail to run another command, on another bridge without a virtual
network, with more cores and memory. -/
def changed : JailSpec :=
  { jail "db-0" none with
    spec := { (jail "db-0" none).spec with
      command := ["server"]
      network := ⟨false, "keel1", "10.0.9.9/24"⟩
      resources := ⟨"2", "512M"⟩ } }

/-- The agent's life up to the change: a jail has been brought up. -/
def raised : List (Event Exit) :=
  [.start, .operation (.apply (jail "db-0" none)), .operation (.reconcile (pass 0))]

/-- A pass after the cooldown. -/
def late : Pass := pass (10 ^ 12)

/-- The change is accepted, the jail runs on, and the pass reports no
failures. -/
structure Change (r : Reconciler) (t : Trace (Op Doc) (Host Doc)) (r₁ : Reconciler)
    (t₁ : Trace (Op Doc) (Host Doc)) (r' : Reconciler) (t' : Trace (Op Doc) (Host Doc))
    (raisedJail : FakeJail) : Prop where
  reached : host.life "zroot" working raised = ⟨some r, t⟩
  record : r.records.lookup "db-0" = some ⟨jail "db-0" none, 1⟩
  applied : (Reconciler.apply changed).run Host.outside working r t = (.returned (.ok ()) r₁, t₁)
  cooldown : (r₁.cooldown "db-0").canRetry late.now = true
  there : t₁.world.jails.lookup (jailName "db-0") = some raisedJail
  running : raisedJail.running = true
  passed : (Reconciler.reconcile late).run Host.outside working r₁ t₁ = (.returned (.ok []) r', t')
  vnet : (t'.world.jails.lookup (jailName "db-0")).any (·.vnet) = true

theorem exists_change : ∃ r t r₁ t₁ r' t' jail, Change r t r₁ t₁ r' t' jail := by
  obtain ⟨⟨memory, t⟩, hsys⟩ : ∃ sys, host.life "zroot" working raised = sys := ⟨_, rfl⟩
  have hruns : (memory.any fun r =>
      decide (r.records.lookup "db-0" = some ⟨jail "db-0" none, 1⟩) &&
      (Ended.value ((Reconciler.apply changed).run Host.outside working r t).1).any fun v =>
        (v.2.cooldown "db-0").canRetry late.now &&
        ((((Reconciler.apply changed).run Host.outside working r t).2.world.jails.lookup
            (jailName "db-0")).any (·.running) &&
          (Ended.value ((Reconciler.reconcile late).run Host.outside working v.2
              ((Reconciler.apply changed).run Host.outside working r t).2).1).any fun u =>
            u.1.isEmpty &&
            (((Reconciler.reconcile late).run Host.outside working v.2
                ((Reconciler.apply changed).run Host.outside working r t).2).2.world.jails.lookup
              (jailName "db-0")).any (·.vnet))) = true := by
    have hmemory : (host.life "zroot" working raised).memory = memory := by rw [hsys]
    have htrace : (host.life "zroot" working raised).trace = t := by rw [hsys]
    rw [← hmemory, ← htrace]
    decide +kernel
  obtain ⟨r, hr, hruns⟩ := (Option.any_eq_true _ _).1 hruns
  obtain ⟨hrecord, hruns⟩ := Bool.and_eq_true_iff.1 hruns
  obtain ⟨⟨u, r₁⟩, happlied, hruns⟩ := (Option.any_eq_true _ _).1 hruns
  obtain ⟨hcooldown, hruns⟩ := Bool.and_eq_true_iff.1 hruns
  obtain ⟨hup, hruns⟩ := Bool.and_eq_true_iff.1 hruns
  obtain ⟨jail, hthere, hrunning⟩ := (Option.any_eq_true _ _).1 hup
  obtain ⟨⟨failures, r'⟩, hpassed, hruns⟩ := (Option.any_eq_true _ _).1 hruns
  obtain ⟨hclean, hvnet⟩ := Bool.and_eq_true_iff.1 hruns
  have hnil : failures = [] := List.isEmpty_iff.1 hclean
  rw [hnil] at hpassed
  exact ⟨r, t, r₁, _, r', _, jail, by rw [hsys, hr], of_decide_eq_true hrecord,
    Prod.ext (Ended.eq_of_value happlied) rfl, hcooldown, hthere, hrunning,
    Prod.ext (Ended.eq_of_value hpassed) rfl, hvnet⟩

end Sample

open Node.Sample (changed raised working late)

/-- A running jail is given more cores and memory. -/
theorem accepted_changes_applied_sample : ∃ r t r' t' jail,
    Sample.host.life "zroot" working (raised ++ [.operation (.apply changed)]) = ⟨some r, t⟩ ∧
    (Reconciler.reconcile late).run Host.outside working r t = (.returned (.ok []) r', t') ∧
    t'.world.jails.lookup (jailName "db-0") = some jail ∧ jail.running = true ∧
    Limited ⟨changed, 1⟩ jail := by
  obtain ⟨r, t, r₁, t₁, r', t', raisedJail, h⟩ := Sample.exists_change
  obtain ⟨hlife, hrecord, hlater⟩ := accepted_changes_applied "zroot" working
    (fun file content hfile => by cases hfile) raised h.reached h.record h.applied
  have htakes := (hlater [] r₁ t₁ hlife hrecord).2 late working h.cooldown
  obtain ⟨jail, hjail, hrunning, -, hlimited⟩ :=
    (htakes.clean [] r' t' h.passed fun e he => by cases he).running raisedJail h.there h.running
  exact ⟨r₁, t₁, r', t', jail, hlife, h.passed, hjail, hrunning, hlimited⟩

/-- It keeps the virtual network it was created with. -/
theorem accepted_changes_applied_not : ∃ r t r₁ t₁ r' t' jail,
    Sample.host.life "zroot" working raised = ⟨some r, t⟩ ∧
    (Reconciler.apply changed).run Host.outside working r t = (.returned (.ok ()) r₁, t₁) ∧
    (r₁.cooldown "db-0").canRetry late.now = true ∧
    (Reconciler.reconcile late).run Host.outside working r₁ t₁ = (.returned (.ok []) r', t') ∧
    t'.world.jails.lookup (jailName "db-0") = some jail ∧
    jail.vnet ≠ changed.spec.network.vnet := by
  obtain ⟨r, t, r₁, t₁, r', t', raisedJail, h⟩ := Sample.exists_change
  obtain ⟨jail, hjail, hvnet⟩ := (Option.any_eq_true _ _).1 h.vnet
  refine ⟨r, t, r₁, t₁, r', t', jail, h.reached, h.applied, h.cooldown, h.passed, hjail, ?_⟩
  rw [hvnet]
  decide

end

end Node

end Keel
