import Keel.ControlPlane.Helpers.Nodes
import Keel.ControlPlane.Helpers.Tables
/-!
# What a promotion is prepared from

`prepare_force_repin` makes its checks one after the other. A replica that
passes those on its node, its standby and its owner is `Promotable`; what
is left is the choice of a fresh standby and of an address
(`Promotable.prepareForceRepin_cases`).
-/

namespace Keel

namespace ControlPlane

variable {w : Worker} {now : Instant}

/-- A replica whose promotion comes to the choice of a fresh standby: its
node no longer resolves, its standby does, and a service owns it. -/
structure Promotable (w : Worker) (now : Instant) (r old standby standbyAddr : String)
    (record : ServiceRecord) : Prop where
  placed : w.placements.lookup r = some old
  paired : w.standbys.lookup r = some standby
  old_dead : (w.registry.resolve old now).isOk = false
  resolves : w.registry.resolve standby now = .ok standbyAddr
  owned : ∃ s, ownerOf r w.placements w.services = some (.service s) ∧
    w.services.get s = some record

/-- **The checks before**: one of them refuses the promotion, with an error
of its own, or the replica passes them. -/
theorem prepareForceRepin_cases (w : Worker) (now : Instant) (r : String) :
    (∃ e, w.prepareForceRepin now r = .error e ∧ e ≠ .noFreshStandby) ∨
      ∃ old standby standbyAddr record, Promotable w now r old standby standbyAddr record := by
  cases hplaced : w.placements.lookup r with
  | none =>
    refine Or.inl ⟨.notPlaced r, ?_, by simp⟩
    simp only [Worker.prepareForceRepin, hplaced]
    rfl
  | some old =>
    cases hpaired : w.standbys.lookup r with
    | none =>
      refine Or.inl ⟨.notStateful r, ?_, by simp⟩
      simp only [Worker.prepareForceRepin, hplaced, hpaired]
      rfl
    | some standby =>
      cases hdead : (w.registry.resolve old now).isOk with
      | true =>
        refine Or.inl ⟨.primaryStillAlive old, ?_, by simp⟩
        simp only [Worker.prepareForceRepin, hplaced, hpaired, hdead]
        rfl
      | false =>
        cases hresolves : w.registry.resolve standby now with
        | error e =>
          refine Or.inl ⟨.standbyUnresolvable e, ?_, by simp⟩
          simp only [Worker.prepareForceRepin, hplaced, hpaired, hdead, hresolves]
          rfl
        | ok standbyAddr =>
          cases howner : ownerOf r w.placements w.services with
          | none =>
            refine Or.inl ⟨.notStateful r, ?_, by simp⟩
            simp only [Worker.prepareForceRepin, hplaced, hpaired, hdead, hresolves, howner]
            rfl
          | some owner =>
            cases owner with
            | unmanaged =>
              refine Or.inl ⟨.notStateful r, ?_, by simp⟩
              simp only [Worker.prepareForceRepin, hplaced, hpaired, hdead, hresolves, howner]
              rfl
            | service s =>
              cases hget : w.services.get s with
              | none =>
                refine Or.inl ⟨.notStateful r, ?_, by simp⟩
                simp only [Worker.prepareForceRepin, hplaced, hpaired, hdead, hresolves, howner,
                  hget]
                rfl
              | some record =>
                exact Or.inr ⟨old, standby, standbyAddr, record, hplaced, hpaired, hdead,
                  hresolves, s, howner, hget⟩

/-- **The choices after**: of the alive nodes but the two, the foremost
advertises and becomes the fresh standby, with an address or for want of
one; or there is no fresh standby. -/
theorem Promotable.prepareForceRepin_cases {r old standby standbyAddr : String}
    {record : ServiceRecord} (h : Promotable w now r old standby standbyAddr record) :
    (w.prepareForceRepin now r = .error .noFreshStandby ∧
        ∀ m, w.Foremost now {old, standby}ᶜ m → w.registry.replicateAddr m = none) ∨
      ∃ fresh freshAddr, w.Foremost now {old, standby}ᶜ fresh ∧
        w.registry.replicateAddr fresh = some freshAddr ∧
        (w.prepareForceRepin now r = .error .noFreeAddress ∨
          ∃ podCidr address, w.registry.podCidr standby = some podCidr ∧
            firstFreeAddress podCidr standby w.usedAddresses = some address ∧
            w.prepareForceRepin now r = .ok ⟨old, standby, standbyAddr, record.template, fresh,
              freshAddr, address, podCidr.prefixLen⟩) := by
  obtain ⟨s, howner, hget⟩ := h.owned
  have hforemost : ∀ m, w.Foremost now {old, standby}ᶜ m ↔
      pickNodeForService Binary64.nearest (w.aliveNodes now) {old, standby} = .ok m ∧
        m ∉ ({old, standby} : Finset String) := by
    intro m
    rw [← Worker.foremost_compl_iff, Finset.coe_insert, Finset.coe_singleton]
  simp only [hforemost]
  unfold Worker.prepareForceRepin
  simp only [h.placed, h.paired, h.old_dead, h.resolves, howner, hget, bind, Except.bind, pure,
    Except.pure, throw, throwThe, MonadExceptOf.throw, Except.mapError]
  rw [if_neg Bool.false_ne_true]
  cases hpick : pickNodeForService Binary64.nearest (w.aliveNodes now) {old, standby} with
  | error e =>
    refine Or.inl ⟨rfl, ?_⟩
    rintro m ⟨hm, -⟩
    cases hm
  | ok fresh =>
    simp only [Except.ok.injEq]
    split
    · rename_i hexcluded
      refine Or.inl ⟨rfl, ?_⟩
      rintro m ⟨rfl, hm⟩
      exact absurd hexcluded hm
    · rename_i hfresh
      cases hreplicate : w.registry.replicateAddr fresh with
      | none =>
        refine Or.inl ⟨rfl, ?_⟩
        rintro m ⟨rfl, -⟩
        exact hreplicate
      | some freshAddr =>
        refine Or.inr ⟨fresh, freshAddr, ⟨rfl, hfresh⟩, hreplicate, ?_⟩
        simp only
        split
        · rename_i podCidr hpod
          split
          · rename_i address haddress
            exact Or.inr ⟨podCidr, address, hpod, haddress, rfl⟩
          · exact Or.inl rfl
        · exact Or.inl rfl

/-- **What is prepared**, if anything is. -/
theorem exists_of_prepareForceRepin {r : String} {prep : ForceRepinPrep}
    (h : w.prepareForceRepin now r = .ok prep) :
    ∃ old standby standbyAddr record fresh freshAddr podCidr address,
      Promotable w now r old standby standbyAddr record ∧
        w.Foremost now {old, standby}ᶜ fresh ∧ w.registry.replicateAddr fresh = some freshAddr ∧
        w.registry.podCidr standby = some podCidr ∧
        firstFreeAddress podCidr standby w.usedAddresses = some address ∧
        prep = ⟨old, standby, standbyAddr, record.template, fresh, freshAddr, address,
          podCidr.prefixLen⟩ := by
  rcases prepareForceRepin_cases w now r with
    ⟨e, he, -⟩ | ⟨old, standby, standbyAddr, record, hprom⟩
  · rw [he] at h
    cases h
  rcases hprom.prepareForceRepin_cases with
    ⟨he, -⟩ | ⟨fresh, freshAddr, hfresh, hreplicate, he | ⟨podCidr, address, hpod, haddress, hok⟩⟩
  · rw [he] at h
    cases h
  · rw [he] at h
    cases h
  · rw [hok] at h
    exact ⟨old, standby, standbyAddr, record, fresh, freshAddr, podCidr, address, hprom, hfresh,
      hreplicate, hpod, haddress, (Except.ok.inj h).symm⟩

end ControlPlane

end Keel
