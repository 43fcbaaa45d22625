import Keel.ControlPlane.Model.Services
import Keel.ControlPlane.Helpers.Tables
/-!
# What the services are after a call

An apply is refused and leaves the table alone, changes how many replicas
a service has, or adds a service at an address nobody has
(`apply_cases`); a remove takes one service off.
-/

namespace Keel

namespace ControlPlane

namespace Services

variable {s : Services}

theorem probeVip_some {name : String} {cidr : Ipv4Net} {taken : List Ipv4Addr} {vip : Ipv4Addr} :
    ∀ {left attempt : ℕ}, probeVip name cidr taken left attempt = some vip →
      vip ∉ taken ∧ ∃ attempt, vip = deriveServiceVip name cidr attempt := by
  intro left
  induction left with
  | zero => intro _ h; cases h
  | succ left ih =>
    intro attempt h
    simp only [probeVip] at h
    split at h
    · exact ih h
    · rename_i hfree
      cases h
      exact ⟨hfree, attempt, rfl⟩

/-- The addresses taken. -/
def taken (s : Services) : List Ipv4Addr := s.byName.entries.map fun e => e.2.vip

theorem mem_taken {s : Services} {vip : Ipv4Addr} :
    vip ∈ s.taken ↔ ∃ name record, s.get name = some record ∧ record.vip = vip := by
  simp only [taken, List.mem_map, get]
  constructor
  · rintro ⟨e, he, rfl⟩
    exact ⟨e.1, e.2, AList.mem_lookup_iff.2 he, rfl⟩
  · rintro ⟨name, record, hget, rfl⟩
    exact ⟨⟨name, record⟩, AList.mem_lookup_iff.1 hget, rfl⟩

/-- **What an apply comes to**: refused, and the table as it was; the
number of replicas of a service there is; or a new service, at a
candidate nobody has. -/
theorem apply_cases (s : Services) (name : String) (replicas : ℕ) (template : JailTemplate)
    (port : ℕ) :
    (∃ e, s.apply name replicas template port = (.error e, s)) ∨
      (∃ record, s.get name = some record ∧ record.template = template ∧ record.port = port ∧
        s.apply name replicas template port =
          (.ok (), { s with byName := s.byName.insert name ⟨replicas, template, record.vip, port⟩ })) ∨
      ∃ vip attempt, s.get name = none ∧ vip ∉ s.taken ∧
        vip = deriveServiceVip name s.serviceCidr attempt ∧
        s.apply name replicas template port =
          (.ok (), { s with byName := s.byName.insert name ⟨replicas, template, vip, port⟩ }) := by
  simp only [apply]
  split
  · rename_i record hrecord
    split
    · exact Or.inl ⟨_, rfl⟩
    split
    · exact Or.inl ⟨_, rfl⟩
    rename_i htemplate hport
    exact Or.inr (Or.inl ⟨record, hrecord, not_not.1 htemplate, not_not.1 hport, rfl⟩)
  · rename_i hnone
    split
    · rename_i vip hvip
      obtain ⟨hfree, attempt, heq⟩ := probeVip_some hvip
      exact Or.inr (Or.inr ⟨vip, attempt, hnone, hfree, heq, rfl⟩)
    · exact Or.inl ⟨_, rfl⟩

theorem get_insert (s : Services) (name k : String) (record : ServiceRecord) :
    get { s with byName := s.byName.insert name record } k =
      if k = name then some record else s.get k :=
  Table.lookup_insert_eq ..

theorem get_remove (s : Services) (name k : String) :
    (s.remove name).get k = if k = name then none else s.get k :=
  Table.lookup_erase_eq ..

/-- A service refused leaves the services as they were. -/
theorem apply_error {s' : Services} {name : String} {replicas port : ℕ}
    {template : JailTemplate} {e : ApplyServiceError}
    (h : s.apply name replicas template port = (.error e, s')) : s' = s := by
  rcases s.apply_cases name replicas template port with
    ⟨e', heq⟩ | ⟨_, _, _, _, heq⟩ | ⟨_, _, _, _, _, heq⟩
  · rw [heq] at h
    exact (Prod.mk.inj h).2.symm
  · rw [heq] at h
    cases h
  · rw [heq] at h
    cases h

/-- **What an accepted service leaves**: itself, with its template, and
the others as they were. -/
theorem get_of_apply {s' : Services} {name : String} {replicas port : ℕ}
    {template : JailTemplate} (h : s.apply name replicas template port = (.ok (), s')) :
    (∃ record, s'.get name = some record ∧ record.template = template ∧
      ∀ old, s.get name = some old → old.template = template) ∧
      ∀ k, k ≠ name → s'.get k = s.get k := by
  rcases s.apply_cases name replicas template port with
    ⟨e', heq⟩ | ⟨old, hget, htemplate, -, heq⟩ | ⟨vip, attempt, hnone, -, -, heq⟩
  · rw [heq] at h
    cases h
  · rw [heq] at h
    obtain ⟨-, rfl⟩ := Prod.mk.inj h
    refine ⟨⟨_, by rw [get_insert, if_pos rfl], rfl, fun old' hold => ?_⟩, fun k hk => ?_⟩
    · rw [hget] at hold
      cases hold
      exact htemplate
    · rw [get_insert, if_neg hk]
  · rw [heq] at h
    obtain ⟨-, rfl⟩ := Prod.mk.inj h
    refine ⟨⟨_, by rw [get_insert, if_pos rfl], rfl, fun old' hold => ?_⟩, fun k hk => ?_⟩
    · rw [hnone] at hold
      cases hold
    · rw [get_insert, if_neg hk]

theorem mem_of_apply {s' : Services} {name : String} {replicas port : ℕ}
    {template : JailTemplate} (h : s.apply name replicas template port = (.ok (), s')) {k : String}
    (hk : k ∈ s'.byName) : k = name ∨ k ∈ s.byName := by
  by_cases hname : k = name
  · exact Or.inl hname
  · refine Or.inr (AList.lookup_isSome.1 ?_)
    have hsame := (get_of_apply h).2 k hname
    rw [get, get] at hsame
    rw [← hsame]
    exact AList.lookup_isSome.2 hk

/-- No service goes when one is accepted. -/
theorem isSome_of_apply {s' : Services} {name : String} {replicas port : ℕ}
    {template : JailTemplate} (h : s.apply name replicas template port = (.ok (), s')) {k : String}
    (hk : (s.get k).isSome = true) : (s'.get k).isSome = true := by
  obtain ⟨⟨record, hrecord, -⟩, hothers⟩ := get_of_apply h
  by_cases hname : k = name
  · rw [hname, hrecord]
    rfl
  · rwa [hothers k hname]

end Services

end ControlPlane

end Keel
