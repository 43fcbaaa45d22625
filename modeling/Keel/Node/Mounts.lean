import Keel.Common.Paths
import Keel.Node.Changes
/-!
# Where volumes are mounted

A volume's `mount_path` is any string: all that is done to it is that its
leading slashes go before it is joined to the root of its jail. So where
its mount ends up is up to its `..` components. A path that climbs out of
the root, or never leaves it, has the volume mounted over something of the
host (`mountTargets_escape`); a path that stays below, whatever detours it
takes, has it mounted inside (`mountTargets_inside_iff`).
-/

namespace Keel

namespace Node

open Agent (JailRecord)
open Paths (route normal StrictlyBelow)

/-! ## What a mount path comes to -/

/-- Leading slashes say nothing. -/
theorem components_trimStart (s : List Char) :
    components (s.dropWhile (· = '/')) = components s := by
  induction s with
  | nil => rfl
  | cons c s ih =>
    by_cases hc : c = '/'
    · subst hc
      have hskip : components ('/' :: s) = components s := by
        rw [← List.nil_append ('/' :: s), components_append]
        rfl
      rw [hskip, ← ih, List.dropWhile_cons_of_pos (by decide)]
    · rw [List.dropWhile_cons_of_neg (by simpa using hc)]

/-- **The path stays below** the root it is joined to: it leads down
further than it leads up. Where it does climb out of the root, it has to
come back in through the root's own last components. -/
def StaysBelow (rootfs : Path) (mountPath : String) : Prop :=
  StrictlyBelow
    ((normal parentDir rootfs).rtake (route parentDir (components mountPath.toList)).ups)
    (route parentDir (components mountPath.toList)).downs

instance (rootfs : Path) (mountPath : String) : Decidable (StaysBelow rootfs mountPath) :=
  inferInstanceAs (Decidable (StrictlyBelow _ _))

theorem strictlyBelow_mountTarget_iff {rootfs : Path} {mountPath : String} :
    StrictlyBelow (normal parentDir rootfs) (normal parentDir (mountTarget rootfs mountPath)) ↔
      StaysBelow rootfs mountPath := by
  rw [mountTarget, components_trimStart, Paths.strictlyBelow_normal_append, StaysBelow]

/-- A path stays below any root if nowhere along it there have been more
steps up than names, and there are more names in all. -/
theorem staysBelow_of_count {mountPath : String}
    (halong : ∀ q, q <+: components mountPath.toList → 2 * q.count parentDir ≤ q.length)
    (hwhole : 2 * (components mountPath.toList).count parentDir <
      (components mountPath.toList).length) (rootfs : Path) : StaysBelow rootfs mountPath := by
  obtain ⟨hups, hdowns⟩ := Paths.ups_eq_zero_and_downs_ne_nil_iff.2 ⟨halong, hwhole⟩
  rw [StaysBelow, hups, List.rtake_zero]
  exact Paths.strictlyBelow_nil.2 hdowns

/-! ## What the methods touch -/

variable {Text : Type}

/-- The mount point a call is about. -/
def Op.mountPoint : {ρ : Type} → Op Text ρ → Option Path
  | _, .ensureMountPoint target => some target
  | _, .mountNullfs _ target => some target
  | _, .unmount target => some target
  | _, .isMounted target => some target
  | _, _ => none

/-- A call about mount points inside a root only. -/
def Op.MountsInside (rootfs : Path) {ρ : Type} (c : Op Text ρ) : Prop :=
  ∀ target, c.mountPoint = some target →
    StrictlyBelow (normal parentDir rootfs) (normal parentDir target)

theorem Op.mountsInside_of_none {rootfs : Path} {ρ : Type} {c : Op Text ρ}
    (h : c.mountPoint = none) : c.MountsInside rootfs := by
  intro target htarget
  rw [h] at htarget
  cases htarget

theorem Op.mountsInside_iff {rootfs : Path} {ρ : Type} {c : Op Text ρ} {mountPath : String}
    (h : c.mountPoint = some (mountTarget rootfs mountPath)) :
    c.MountsInside rootfs ↔ StaysBelow rootfs mountPath := by
  unfold Op.MountsInside
  rw [h, ← strictlyBelow_mountTarget_iff]
  constructor
  · exact fun hall => hall _ rfl
  · intro hbelow target htarget
    rw [← Option.some.inj htarget]
    exact hbelow

section Methods

variable {pool name : String} {record : JailRecord} {K : Reconciler → Prop}

theorem mountsInside_configureNetworkingAndLimits {rootfs : Path} :
    (Reconciler.configureNetworkingAndLimits name record : Method Text Unit).Keeps
      (Op.MountsInside rootfs) (fun _ _ => True) True K := by
  refine (Reconciler.keeps_configureNetworkingAndLimits fun _ _ _ _ _ => trivial).imp
    (fun c hc => ?_) fun _ _ _ h => h
  refine Op.mountsInside_of_none ?_
  cases c <;> first | rfl | exact hc.elim

/-- One volume is mounted where its path leads. -/
theorem mountsInside_mountVolume {rootfs : Path} {volume : VolumeMount}
    (h : StaysBelow rootfs volume.mountPath) :
    (Reconciler.mountVolume pool rootfs volume : Method Text Unit).Keeps (Op.MountsInside rootfs)
      (fun _ _ => True) True K := by
  refine Proc.keeps_bind (Proc.keeps_tryCall ((Op.mountsInside_iff rfl).2 h)) fun _ => ?_
  refine Proc.keeps_bind ?_ fun _ => ?_
  · refine Proc.keeps_bind (Proc.keeps_tryCall (Op.mountsInside_of_none rfl)) fun there => ?_
    exact Proc.keeps_ite Proc.keeps_ret (Proc.keeps_tryCall (Op.mountsInside_of_none rfl))
  · refine Proc.keeps_bind (Proc.keeps_tryCall ((Op.mountsInside_iff rfl).2 h)) fun mounted => ?_
    exact Proc.keeps_ite Proc.keeps_ret (Proc.keeps_tryCall ((Op.mountsInside_iff rfl).2 h))

theorem mountsInside_provision
    (h : ∀ v ∈ record.spec.spec.volumes, StaysBelow (jailRootfsPath pool name) v.mountPath) :
    (Reconciler.provision pool name record : Method Text Unit).Keeps
      (Op.MountsInside (jailRootfsPath pool name)) (fun _ _ => True) True K := by
  refine Proc.keeps_bind ?_ fun _ => ?_
  · refine Proc.keeps_bind (Proc.keeps_tryCall (Op.mountsInside_of_none rfl)) fun there => ?_
    exact Proc.keeps_ite Proc.keeps_ret Proc.keeps_fail
  refine Proc.keeps_bind (Proc.keeps_tryCall (Op.mountsInside_of_none rfl)) fun _ => ?_
  refine Proc.keeps_bind (Proc.keeps_tryCall (Op.mountsInside_of_none rfl)) fun _ => ?_
  refine Proc.keeps_bind (Proc.keeps_forEach fun v hv => mountsInside_mountVolume (h v hv))
    fun _ => ?_
  refine Proc.keeps_bind mountsInside_configureNetworkingAndLimits fun _ => ?_
  exact Proc.keeps_tryCall (Op.mountsInside_of_none rfl)

theorem mountsInside_rollbackProvision
    (h : ∀ v ∈ record.spec.spec.volumes, StaysBelow (jailRootfsPath pool name) v.mountPath) :
    (Reconciler.rollbackProvision pool name record : Method Text Unit).Keeps
      (Op.MountsInside (jailRootfsPath pool name)) (fun _ _ => True) True K := by
  refine Proc.keeps_bind (Proc.keeps_ask (Op.mountsInside_of_none rfl)) fun _ => ?_
  refine Proc.keeps_bind (Proc.keeps_ask (Op.mountsInside_of_none rfl)) fun _ => ?_
  refine Proc.keeps_bind (Proc.keeps_forEach fun v hv => ?_) fun _ => ?_
  · refine Proc.keeps_bind (Proc.keeps_ask ?_) fun _ => Proc.keeps_ret
    exact (Op.mountsInside_iff rfl).2 (h v hv)
  refine Proc.keeps_bind (Proc.keeps_ask (Op.mountsInside_of_none rfl)) fun _ => ?_
  exact Proc.keeps_bind (Proc.keeps_ask (Op.mountsInside_of_none rfl)) fun _ => Proc.keeps_ret

theorem mountsInside_tearDownJail
    (h : ∀ v ∈ record.spec.spec.volumes, StaysBelow (jailRootfsPath pool name) v.mountPath) :
    (Reconciler.tearDownJail pool name record : Method Text Unit).Keeps
      (Op.MountsInside (jailRootfsPath pool name)) (fun _ _ => True) True K := by
  refine Proc.keeps_bind (Proc.keeps_tryCall (Op.mountsInside_of_none rfl)) fun _ => ?_
  refine Proc.keeps_bind (Reconciler.keeps_tearDown (Op.mountsInside_of_none rfl)) fun _ => ?_
  refine Proc.keeps_bind (Proc.keeps_forEach fun v hv => ?_) fun _ => ?_
  · exact Reconciler.keeps_tearDown ((Op.mountsInside_iff rfl).2 (h v hv))
  refine Proc.keeps_bind (Reconciler.keeps_tearDown (Op.mountsInside_of_none rfl)) fun _ => ?_
  exact Reconciler.keeps_tearDown (Op.mountsInside_of_none rfl)

/-- A delete touches what the record it finds asks for. -/
theorem mountsInside_delete [SerdeYaml Text JailRecord] {r : Reconciler}
    (hrecord : r.records.lookup name = some record)
    (h : ∀ v ∈ record.spec.spec.volumes, StaysBelow (jailRootfsPath r.pool name) v.mountPath) :
    (Reconciler.delete name : Method Text Unit).Makes (Op.MountsInside (jailRootfsPath r.pool name))
      (fun _ _ => True) True (fun _ _ => True) r := by
  rw [Reconciler.delete, Reconciler.find]
  simp only [Proc.bind_eq]
  rw [Proc.bind_assoc, Proc.makes_bind, Proc.makes_get]
  dsimp only
  rw [hrecord]
  show Proc.Makes (Op.MountsInside (jailRootfsPath r.pool name)) (fun _ _ => True) True
    (fun _ _ => True) ((Reconciler.tearDownJail r.pool name record).bind _) r
  refine Proc.makes_bind.2 (Proc.makes_mono ?_
    (mountsInside_tearDownJail (K := fun _ => True) h r trivial))
  rintro (e | u) r' -
  · trivial
  refine Proc.makes_bind.2 (Proc.makes_mono ?_ ?_ (K := fun _ _ => True))
  · rintro (e | u) r'' -
    · trivial
    · trivial
  · refine (Reconciler.keeps_removeYaml (K := fun _ => True)).imp (fun c hc => ?_) (fun _ _ _ h => h) r'
      trivial
    refine Op.mountsInside_of_none ?_
    cases c <;> first | rfl | exact hc.elim

end Methods

/-! ## Every run -/

section Runs

variable [Ipnet] {rootfs : Path} {m : Method Text Unit} {r : Reconciler}

/-- Whatever fails on the machine, the method's runs touch mount points
inside a root only. -/
def StaysInside (rootfs : Path) (m : Method Text Unit) (r : Reconciler) : Prop :=
  ∀ (choices : ℕ → Option (Outcome Text)) (t : Trace (Op Text) (Host Text)),
    (m.run Host.outside choices r t).2.Since t.calls (Op.MountsInside rootfs)

theorem staysInside_of_makes (h : m.Makes (Op.MountsInside rootfs) (fun _ _ => True) True
    (fun _ _ => True) r) : StaysInside rootfs m r := by
  intro choices t
  have hmeets : Ended.Meets _ _ (m.run Host.outside choices r t) :=
    Proc.run_of_makes (fun _ _ => trivial) h t.since_self
  exact hmeets.trace (fun _ _ _ hq => hq.2) fun _ _ hx => hx

/-- A loop that makes one call a turn, whatever it is answered, makes them
all. -/
theorem forall_of_since_forEach {P : {ρ : Type} → Op Text ρ → Prop} {β δ : Type}
    {c : β → Op Text (Except δ Unit)} {rest : Unit → Method Text Unit} {xs : List β} :
    ∀ {t : Trace (Op Text) (Host Text)},
      (((Proc.forEach (fun x => (Proc.ask (c x)).bind fun _ => Proc.ret ()) xs).bind rest).run
        Host.outside (fun _ => some .works) r t).2.Since t.calls P → ∀ x ∈ xs, P (c x) := by
  induction xs with
  | nil =>
    intro t _ x hx
    cases hx
  | cons y xs ih =>
    intro t h x hx
    obtain ⟨hy, hrest⟩ := Proc.since_call (x := Outcome.works) rfl h
    rcases List.mem_cons.1 hx with rfl | hx
    · exact hy
    · exact ih hrest x hx

/-- The clean-up of a failed provision touches every mount point. -/
theorem staysBelow_of_rollbackProvision {pool name : String} {record : JailRecord}
    (t : Trace (Op Text) (Host Text))
    (h : StaysInside rootfs (Reconciler.rollbackProvision pool name record : Method Text Unit) r) :
    ∀ v ∈ record.spec.spec.volumes,
      Op.MountsInside rootfs
        (.unmount (mountTarget (jailRootfsPath pool name) v.mountPath) : Op Text _) := by
  have hrun := h (fun _ => some .works) t
  obtain ⟨-, hrun⟩ := Proc.since_call (x := Outcome.works) rfl hrun
  obtain ⟨-, hrun⟩ := Proc.since_call (x := Outcome.works) rfl hrun
  exact forall_of_since_forEach hrun

variable [SerdeYaml Text JailRecord] {spec : JailSpec}

/-- An accepted spec is on record. -/
theorem wp_apply_record {t : Trace (Op Text) (Host Text)} :
    (Reconciler.apply spec : Method Text Unit).wp Host.outside
      (fun result r' _ => result = .ok () →
        ∃ ordinal, r'.records.lookup spec.metadata.name = some ⟨spec, ordinal⟩)
      (fun _ _ => True) r t := by
  have hany : ∀ {α : Type} {m : Method Text α} {r : Reconciler} {t : Trace (Op Text) (Host Text)},
      m.wp Host.outside (fun _ _ _ => True) (fun _ _ => True) r t :=
    Proc.wp_of_invariant (I := fun _ => True) (fun _ _ _ _ => trivial) trivial
  rw [Reconciler.apply]
  refine Proc.wp_seq hany (fun _ r₁ t₁ _ => ?_) (fun e _ _ _ he => by cases he)
    fun _ _ _ => trivial
  refine Proc.wp_seq hany (fun ordinal r₂ t₂ _ => ?_) (fun e _ _ _ he => by cases he)
    fun _ _ _ => trivial
  refine Proc.wp_mono (fun result r' t' hkept hok => ?_) (fun _ _ hx => hx)
    (wp_keep_lookup ⟨spec, ordinal⟩)
  exact ⟨ordinal, hkept hok⟩

end Runs

/-- **Mount targets stay inside the jail** exactly where every mount path
stays below its root. An accepted spec goes on record as it is, and for
whatever reconciler it is on record of: every run of its provision, of its
delete and of the clean-up between touches mount points strictly below the
jail's root only, if and only if that is so of each of its volumes' paths. -/
theorem mountTargets_inside_iff [Ipnet] [SerdeYaml Text JailRecord]
    {choices : ℕ → Option (Outcome Text)} {r r' : Reconciler} {t t' : Trace (Op Text) (Host Text)}
    {spec : JailSpec} (haccepted : (Reconciler.apply spec).run Host.outside choices r t =
      (.returned (.ok ()) r', t')) :
    ∃ ordinal, r'.records.lookup spec.metadata.name = some ⟨spec, ordinal⟩ ∧
      ∀ r₁ : Reconciler, r₁.records.lookup spec.metadata.name = some ⟨spec, ordinal⟩ →
        let rootfs := jailRootfsPath r₁.pool spec.metadata.name
        (StaysInside rootfs (Reconciler.provision r₁.pool spec.metadata.name ⟨spec, ordinal⟩ :
            Method Text Unit) r₁ ∧
          StaysInside rootfs (Reconciler.delete spec.metadata.name : Method Text Unit) r₁ ∧
          StaysInside rootfs (Reconciler.rollbackProvision r₁.pool spec.metadata.name
            ⟨spec, ordinal⟩ : Method Text Unit) r₁ ↔
        ∀ v ∈ spec.spec.volumes, StaysBelow rootfs v.mountPath) := by
  have hmeets : Ended.Meets _ _ ((Reconciler.apply spec).run Host.outside choices r t) :=
    Host.meets_of_wp wp_apply_record
  rw [haccepted] at hmeets
  obtain ⟨ordinal, hrecord⟩ := hmeets rfl
  refine ⟨ordinal, hrecord, fun r₁ hr₁ => ⟨?_, fun hbelow => ⟨?_, ?_, ?_⟩⟩⟩
  · rintro ⟨-, -, hrollback⟩ v hv
    exact (Op.mountsInside_iff rfl).1 (staysBelow_of_rollbackProvision t hrollback v hv)
  · exact staysInside_of_makes (mountsInside_provision (K := fun _ => True) hbelow r₁ trivial)
  · exact staysInside_of_makes (mountsInside_delete hr₁ hbelow)
  · exact staysInside_of_makes
      (mountsInside_rollbackProvision (K := fun _ => True) hbelow r₁ trivial)

section

open Agent.Sample (jail)
open scoped Agent.Sample Node.Sample

namespace Sample

/-- A jail with its volume at some path. -/
def mountedAt (mountPath : String) : JailSpec :=
  { jail "db-0" none with
    spec := { (jail "db-0" none).spec with volumes := [⟨"db-0-data", mountPath, "1G"⟩] } }

/-- It is accepted. -/
theorem exists_accepted (mountPath : String) (h : (Ended.value ((Reconciler.apply
    (mountedAt mountPath)).run Host.outside working (.blank "zroot") ⟨host, []⟩).1).isSome = true) :
    ∃ r t, (Reconciler.apply (mountedAt mountPath)).run Host.outside working (.blank "zroot")
      ⟨host, []⟩ = (.returned (.ok ()) r, t) := by
  obtain ⟨⟨u, r⟩, hr⟩ := Option.isSome_iff_exists.1 h
  exact ⟨r, _, Prod.ext (Ended.eq_of_value hr) rfl⟩

end Sample

open Node.Sample (mountedAt working)

/-- A path with detours stays inside. -/
theorem mountTargets_inside_sample : ∃ r ordinal,
    r.records.lookup "db-0" = some ⟨mountedAt "/var/../data/./db", ordinal⟩ ∧
    StaysInside (jailRootfsPath r.pool "db-0")
      (Reconciler.delete "db-0" : Method Sample.Doc Unit) r := by
  obtain ⟨r, t, haccepted⟩ := Sample.exists_accepted "/var/../data/./db" (by decide +kernel)
  obtain ⟨ordinal, hrecord, hstays⟩ := mountTargets_inside_iff haccepted
  refine ⟨r, ordinal, hrecord, ((hstays r hrecord).2 fun v hv => ?_).2.1⟩
  rw [List.mem_singleton.1 hv]
  have halong : ∀ q ∈ (components "/var/../data/./db".toList).inits,
      2 * q.count parentDir ≤ q.length := by decide +kernel
  exact staysBelow_of_count (fun q hq => halong q ((List.mem_inits _ _).2 hq)) (by decide +kernel) _

/-- A path that climbs is accepted, and the next pass mounts the volume
over a directory of the host. -/
theorem mountTargets_escape :
    (Sample.host.life "zroot" working
      [.start, .operation (.apply (mountedAt "../../../../etc"))]).memory.any
        (fun r => r.records.lookup "db-0" = some ⟨mountedAt "../../../../etc", 1⟩) = true ∧
    mountTarget (jailRootfsPath "zroot" "db-0") "../../../../etc" ∈
      (Sample.host.life "zroot" working
        [.start, .operation (.apply (mountedAt "../../../../etc")),
          .operation (.reconcile (Sample.pass 0))]).trace.world.mounts ∧
    normal parentDir (mountTarget (jailRootfsPath "zroot" "db-0") "../../../../etc") =
      ["etc".toList] ∧
    ¬ StrictlyBelow (normal parentDir (jailRootfsPath "zroot" "db-0"))
      (normal parentDir (mountTarget (jailRootfsPath "zroot" "db-0") "../../../../etc")) := by
  refine ⟨by decide +kernel, by decide +kernel, by decide +kernel, by decide +kernel⟩

end

end Node

end Keel
