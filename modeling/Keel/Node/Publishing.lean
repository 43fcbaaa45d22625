import Keel.Node.Ingress
import Keel.Node.Model.Nginx
/-!
# The config a restart finds

`nginx -t` looks at the config that is in place already: the reconciler
has renamed it over the last one before it asks. Where the test fails
nothing is reloaded, and nothing is put back either, so the config that
was refused is the one the jail's command reads when it is next started.

A pass leaves the config of its ingresses behind if it can write it
(`reconcileIngressConfig_eq`), whatever `nginx -t` makes of it, and so
the config in place is a validated one exactly as long as no pass writes
one that is refused (`nginxConfig_validated_iff`).
-/

namespace Keel

namespace Node

variable {Text : Type}

/-! ## What a pass renders -/

namespace Reconciler

/-- The blocks of some ingresses, by what the service table answers for
each; the first of them asks for the `n`-th time. -/
def vhosts (vips : ℕ → Option (String × ℕ)) :
    List (String × IngressRecord) → ℕ → List IngressBackendConfig
  | [], _ => []
  | (_, record) :: rest, n =>
    ((vips n).map (serverBlock record)).toList ++ vhosts vips rest (n + 1)

end Reconciler

/-! ## What a pass leaves -/

/-- No step of writing a config fails. -/
def Verdict.Writes (o : Verdict) : Prop :=
  o.createDirAll = none ∧ o.write = none ∧ o.rename = none

instance (o : Verdict) : Decidable o.Writes :=
  inferInstanceAs (Decidable (_ ∧ _ ∧ _))

/-- The config is renamed into place. -/
theorem writeConfig_of_writes {o : Verdict} {config : String} {dir : ConfigDir} (h : o.Writes) :
    JexecNginxController.writeConfig o config dir = (.ok (), ⟨some config, none⟩) := by
  obtain ⟨hcreate, hwrite, hrename⟩ := h
  rw [JexecNginxController.writeConfig, hcreate]
  simp only [hwrite, hrename]

/-- Otherwise the one in place stays, whatever is left beside it. -/
theorem writeConfig_of_not_writes {o : Verdict} {config : String} {dir : ConfigDir}
    (h : ¬ o.Writes) : ∃ message tmp,
      JexecNginxController.writeConfig o config dir = (.error message, { dir with tmp }) := by
  rw [JexecNginxController.writeConfig]
  cases hcreate : o.createDirAll with
  | some message => exact ⟨message, dir.tmp, rfl⟩
  | none =>
    cases hwrite : o.write with
    | some message => exact ⟨message, _, rfl⟩
    | none =>
      cases hrename : o.rename with
      | some message => exact ⟨message, _, rfl⟩
      | none => exact absurd ⟨hcreate, hwrite, hrename⟩ h

namespace Serving

variable [Ipnet] {w : Serving Text} {a : Attempt} {attempts done : List Attempt}

/-- The config a pass renders: that of its ingresses. -/
def Attempt.config (a : Attempt) : String :=
  Reconciler.renderNginxConfig (Reconciler.vhosts a.verdict.vips
    (a.reconciler.ingressRecords.iter a.pass.ingressOrder) 0)

/-- A config is written, and `nginx -t` accepts it. -/
def Attempt.Validates (a : Attempt) (config : String) : Prop :=
  a.verdict.Writes ∧ a.verdict.test = none ∧ a.config = config

/-- Asking for VIPs changes nothing. -/
theorem run_ingressBackends {o : Verdict} {r : Reconciler}
    (entries : List (String × IngressRecord)) : ∀ t : Trace (Op Text) (Serving Text),
      ∃ t', (Reconciler.ingressBackends entries : Method Text _).run outside
          (fun i => some (o, i)) r t =
        (.returned (.ok (Reconciler.vhosts o.vips entries t.calls.length)) r, t') ∧
        t'.world = t.world := by
  induction entries with
  | nil => exact fun t => ⟨t, rfl, rfl⟩
  | cons entry rest ih =>
    obtain ⟨name, record⟩ := entry
    intro t
    obtain ⟨t', hrun, hworld⟩ :=
      ih (t.push (.serviceVip record.spec.spec.backend.service) t.world)
    have hlength : (t.push (.serviceVip record.spec.spec.backend.service : Op Text _)
        t.world).calls.length = t.calls.length + 1 := by
      simp [Trace.push]
    rw [hlength] at hrun
    refine ⟨t', ?_, hworld⟩
    rw [Reconciler.ingressBackends_cons, Reconciler.vhosts]
    have hask : ((Proc.ask (.serviceVip record.spec.spec.backend.service) : Method Text _).run
        outside (fun i => some (o, i)) r t) = (.returned (.ok (o.vips t.calls.length)) r,
          t.push (.serviceVip record.spec.spec.backend.service) t.world) := rfl
    rw [Proc.run_bind hask, Proc.run_bind hrun]
    rfl

/-- A run goes on from what its next call answers. -/
theorem run_ask_bind {ρ α : Type} {o : Verdict} {r : Reconciler}
    {t : Trace (Op Text) (Serving Text)} {c : Op Text ρ} {f : ρ → Method Text α} :
    ((Proc.ask c).bind f : Method Text α).run outside (fun i => some (o, i)) r t =
      (f (call (o, t.calls.length) c t.world).1).run outside (fun i => some (o, i)) r
        (t.push c (call (o, t.calls.length) c t.world).2) :=
  Proc.run_ask_bind rfl

/-- What `publish` leaves where the config cannot be written. -/
theorem run_publish_of_not_writes {o : Verdict} (r : Reconciler)
    (t : Trace (Op Text) (Serving Text)) (backends : List Reconciler.IngressBackendConfig)
    (h : ¬ o.Writes) :
    let w := ((Reconciler.publish backends : Method Text Unit).run outside (fun i => some (o, i))
      r t).2.world
    w.dir.conf = t.world.dir.conf ∧ w.validated = t.world.validated := by
  obtain ⟨message, tmp, hwrite⟩ : ∃ message tmp, JexecNginxController.writeConfig o
      (Reconciler.renderNginxConfig backends) t.world.dir =
        (.error message, { t.world.dir with tmp }) := writeConfig_of_not_writes h
  rw [Reconciler.publish]
  simp only [Proc.bind_eq]
  rw [run_ask_bind]
  simp only [call, hwrite]
  exact ⟨rfl, rfl⟩

/-- And where it can: it is tested in place. -/
theorem run_publish_of_writes {o : Verdict} {r : Reconciler}
    {t : Trace (Op Text) (Serving Text)} {backends : List Reconciler.IngressBackendConfig}
    (h : o.Writes) :
    ((Reconciler.publish backends : Method Text Unit).run outside (fun i => some (o, i))
      r t).2.world = { t.world with
        dir := ⟨some (Reconciler.renderNginxConfig backends), none⟩
        validated := if o.test = none then
          Reconciler.renderNginxConfig backends :: t.world.validated else t.world.validated } := by
  rw [Reconciler.publish]
  simp only [Proc.bind_eq]
  rw [run_ask_bind]
  simp only [call, writeConfig_of_writes h]
  rw [run_ask_bind]
  cases htest : o.test with
  | some message =>
    simp only [call, JexecNginxController.testConfig, JexecNginxController.runJexec, htest]
    rfl
  | none =>
    simp only [call, JexecNginxController.testConfig, JexecNginxController.runJexec, htest]
    rfl

/-- **What a pass leaves.** Its config, if it can write it, with `nginx
-t` asked about it then; else the config that was there. -/
theorem reconcileIngressConfig_eq (w : Serving Text) (a : Attempt) :
    (w.reconcileIngressConfig a).dir.conf =
      (if a.verdict.Writes then some a.config else w.dir.conf) ∧
    (w.reconcileIngressConfig a).validated =
      (if a.verdict.Writes ∧ a.verdict.test = none then a.config :: w.validated
        else w.validated) := by
  obtain ⟨t, hrun, hworld⟩ := run_ingressBackends (o := a.verdict) (r := a.reconciler)
    (a.reconciler.ingressRecords.iter a.pass.ingressOrder) ⟨w, []⟩
  have hblocks : (Reconciler.serverBlocks a.pass : Method Text _).run outside
      (fun i => some (a.verdict, i)) a.reconciler ⟨w, []⟩ = (.returned (.ok _) _, t) := hrun
  rw [reconcileIngressConfig, Reconciler.reconcileIngressConfig_eq, Proc.run_bind hblocks]
  by_cases hwrites : a.verdict.Writes
  · rw [run_publish_of_writes hwrites, hworld, if_pos hwrites]
    refine ⟨rfl, ?_⟩
    by_cases htest : a.verdict.test = none
    · rw [if_pos htest, if_pos ⟨hwrites, htest⟩]
      rfl
    · rw [if_neg htest, if_neg fun h => htest h.2]
  · rw [if_neg hwrites, if_neg fun h => hwrites h.1]
    have hkept := run_publish_of_not_writes a.reconciler t (Reconciler.vhosts a.verdict.vips
      (a.reconciler.ingressRecords.iter a.pass.ingressOrder) 0) hwrites
    rw [hworld] at hkept
    exact hkept

/-! ## What a run leaves -/

/-- A run, up to its last pass. -/
theorem passes_concat (w : Serving Text) (done : List Attempt) (a : Attempt) :
    w.passes (done ++ [a]) = (w.passes done).reconcileIngressConfig a := by
  rw [passes, passes, List.foldl_append]
  rfl

/-- What `nginx -t` has accepted. -/
theorem mem_validated_iff {host : Host Text} {dir : ConfigDir} {config : String} :
    config ∈ ((initial host dir).passes done).validated ↔ ∃ b ∈ done, b.Validates config := by
  induction done using List.reverseRecOn with
  | nil =>
    constructor
    · intro h
      exact absurd h List.not_mem_nil
    · rintro ⟨b, hb, -⟩
      exact absurd hb List.not_mem_nil
  | append_singleton done a ih =>
    have hstep := (reconcileIngressConfig_eq ((initial host dir).passes done) a).2
    rw [passes_concat, hstep]
    simp only [List.mem_append, List.mem_singleton, or_and_right, exists_or, exists_eq_left]
    by_cases hokay : a.verdict.Writes ∧ a.verdict.test = none
    · rw [if_pos hokay, List.mem_cons, ih, or_comm, Attempt.Validates]
      refine or_congr_right ⟨fun h => ⟨hokay.1, hokay.2, h.symm⟩, fun h => h.2.2.symm⟩
    · rw [if_neg hokay, ih]
      exact ⟨Or.inl, fun h => h.resolve_right fun h => hokay ⟨h.1, h.2.1⟩⟩

/-- The config in place is the first one, or one `nginx -t` has
accepted. -/
def Validated (dir : ConfigDir) (w : Serving Text) : Prop :=
  w.dir.conf = dir.conf ∨ ∃ config ∈ w.validated, w.dir.conf = some config

instance (dir : ConfigDir) (w : Serving Text) : Decidable (Validated dir w) :=
  inferInstanceAs (Decidable (_ ∨ _))

/-- A pass writes no config that is refused, unless that one was there
first or an earlier pass has had it accepted. -/
def Attempt.Harmless (dir : ConfigDir) (done : List Attempt) (a : Attempt) : Prop :=
  a.verdict.Writes → a.verdict.test = none ∨ dir.conf = some a.config ∨
    ∃ b ∈ done, b.Validates a.config

/-- **A step.** After a pass that writes nothing harmful the config in
place is a validated one if it was before. -/
theorem validated_concat {host : Host Text} {dir : ConfigDir}
    (hdone : Validated dir ((initial host dir).passes done)) (ha : a.Harmless dir done) :
    Validated dir ((initial host dir).passes (done ++ [a])) := by
  obtain ⟨hconf, hvalidated⟩ := reconcileIngressConfig_eq ((initial host dir).passes done) a
  rw [Validated, passes_concat, hconf, hvalidated]
  by_cases hwrites : a.verdict.Writes
  · rw [if_pos hwrites]
    rcases ha hwrites with htest | hfirst | hearlier
    · rw [if_pos ⟨hwrites, htest⟩]
      exact Or.inr ⟨a.config, List.mem_cons_self, rfl⟩
    · exact Or.inl hfirst.symm
    · have hmem : a.config ∈ ((initial host dir).passes done).validated :=
        mem_validated_iff.2 hearlier
      refine Or.inr ⟨a.config, ?_, rfl⟩
      split
      · exact List.mem_cons_self
      · exact hmem
  · rw [if_neg hwrites, if_neg fun h => hwrites h.1]
    exact hdone

/-- And a pass after which it is one wrote nothing harmful. -/
theorem harmless_of_validated {host : Host Text} {dir : ConfigDir}
    (h : Validated dir ((initial host dir).passes (done ++ [a]))) : a.Harmless dir done := by
  intro hwrites
  have hconf := (reconcileIngressConfig_eq ((initial host dir).passes done) a).1
  rw [if_pos hwrites, ← passes_concat] at hconf
  rcases h with hfirst | ⟨config, hmem, hlast⟩
  · exact Or.inr (Or.inl (hfirst.symm.trans hconf))
  · cases hlast.symm.trans hconf
    obtain ⟨b, hb, hvalidates⟩ := mem_validated_iff.1 hmem
    rcases List.mem_append.1 hb with hb | hb
    · exact Or.inr (Or.inr ⟨b, hb, hvalidates⟩)
    · cases List.mem_singleton.1 hb
      exact Or.inl hvalidates.2.1

/-- **The config in place is a validated one** after every pass of a run,
if and only if no pass writes a config that `nginx -t` refuses and that
was neither there first nor accepted before. -/
theorem nginxConfig_validated_iff (host : Host Text) (dir : ConfigDir) (attempts : List Attempt) :
    (∀ done todo, attempts = done ++ todo → Validated dir ((initial host dir).passes done)) ↔
      ∀ done a todo, attempts = done ++ a :: todo → a.Harmless dir done := by
  constructor
  · intro h done a todo hattempts
    refine harmless_of_validated (h (done ++ [a]) todo ?_)
    rw [hattempts, List.append_assoc]
    rfl
  · intro h done
    induction done using List.reverseRecOn with
    | nil => exact fun _ _ => Or.inl rfl
    | append_singleton done a ih =>
      intro todo hattempts
      have hcut : attempts = done ++ a :: todo := by
        rw [hattempts, List.append_assoc]
        rfl
      exact validated_concat (ih (a :: todo) hcut) (h done a todo hcut)

end Serving

namespace Sample

/-- Everything works. -/
def accepted : Verdict := ⟨none, none, none, none, none, none, fun _ => some ("10.0.250.7", 80)⟩

/-- `nginx -t` refuses what was written. -/
def refused : Verdict := { accepted with test := some "nginx: configuration file test failed" }

/-- A reconciler with one ingress. -/
def shopOf (host : String) : Reconciler :=
  { Reconciler.blank "zroot" with
    ingressRecords := AList.insert "shop" ⟨ingress "shop" host "web", none⟩ ∅ }

end Sample

section

open scoped Node.Sample Agent.Sample

/-- A config is accepted; the next one is refused, and stays. -/
theorem refused_config_stays :
    ¬ ∀ done todo, ([⟨Sample.shopOf "a.example", Sample.pass 0, Sample.accepted⟩,
        ⟨Sample.shopOf "b.example", Sample.pass 0, Sample.refused⟩] : List Serving.Attempt) =
          done ++ todo →
      Serving.Validated ⟨none, none⟩
        ((Serving.initial Sample.host ⟨none, none⟩).passes done) := by
  intro h
  have hlast := h _ [] (List.append_nil _).symm
  revert hlast
  decide +kernel

end

end Node

end Keel
