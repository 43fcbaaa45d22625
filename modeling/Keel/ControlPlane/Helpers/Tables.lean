import Keel.ControlPlane.Model.Tables
/-!
# What the tables hold after a write

Who is owed a fence, and what `UsedAddresses` records after a `record` or
a `release`. The two maps of `UsedAddresses` agree (`Consistent`) as long
as no address is recorded over another jail's.
-/

namespace Keel

namespace Table

variable {β : Type}

theorem iter_map_fst (t : Table β) (ord : IterOrder) :
    (t.iter ord).map Prod.fst = ord.apply t.keys := by
  have hfst : ∀ l : List String, (∀ k ∈ l, k ∈ t.keys) →
      (l.filterMap fun k => (t.lookup k).map fun v => (k, v)).map Prod.fst = l := by
    intro l
    induction l with
    | nil => intro _; rfl
    | cons k l ih =>
      intro hmem
      obtain ⟨v, hv⟩ := exists_of_mem (hmem k List.mem_cons_self)
      rw [List.filterMap_cons, hv]
      simp only [Option.map_some, List.map_cons]
      rw [ih fun k' h => hmem k' (List.mem_cons_of_mem _ h)]
  exact hfst _ fun k hk => (IterOrder.mem_apply ord).1 hk

/-- No key comes up twice. -/
theorem nodup_iter_keys (t : Table β) (ord : IterOrder) :
    ((t.iter ord).map Prod.fst).Nodup := by
  rw [iter_map_fst]
  exact ord.nodup_apply t.keys_nodup

end Table

namespace ControlPlane

namespace PendingFences

variable {fences : PendingFences} {ord : IterOrder} {nodeId r : String}

/-- **A node is answered exactly the replicas it is owed.** -/
theorem mem_forNode :
    r ∈ fences.forNode ord nodeId ↔ fences.lookup r = some nodeId := by
  simp only [forNode, List.mem_map, List.mem_filter, decide_eq_true_eq]
  constructor
  · rintro ⟨⟨r', n⟩, ⟨hmem, rfl⟩, rfl⟩
    exact Table.mem_iter.1 hmem
  · intro h
    exact ⟨(r, nodeId), ⟨Table.mem_iter.2 h, rfl⟩, rfl⟩

theorem nodup_forNode : (fences.forNode ord nodeId).Nodup :=
  (Table.nodup_iter_keys fences ord).sublist (List.filter_sublist.map _)

end PendingFences

namespace UsedAddresses

variable (u : UsedAddresses) (r r' n n' : String) (a a' : Ipv4Addr)

@[simp] theorem byJail_release :
    (u.release r).byJail.lookup r' = if r' = r then none else u.byJail.lookup r' := by
  rw [release]
  split
  · rename_i h
    split
    · rename_i hr; rw [hr, h]
    · rfl
  · exact Table.lookup_erase_eq _ _ _

@[simp] theorem byJail_record :
    (u.record r n a).byJail.lookup r' = if r' = r then some (n, a) else u.byJail.lookup r' := by
  simp only [record, Table.lookup_insert_eq, byJail_release]
  split <;> rfl

theorem isUsed_eq_true :
    u.isUsed n a = true ↔ ∃ set, u.usedByNode.lookup n = some set ∧ a ∈ set := by
  simp only [isUsed, Option.any_eq_true, decide_eq_true_eq]

theorem isUsed_release :
    (u.release r).isUsed n a = true ↔
      u.isUsed n a = true ∧ u.byJail.lookup r ≠ some (n, a) := by
  rw [release]
  split
  · rename_i h
    simp only [h, ne_eq, reduceCtorEq, not_false_eq_true, and_true]
  · rename_i n₀ a₀ h
    simp only [isUsed_eq_true, h, ne_eq, Option.some.injEq, Prod.mk.injEq]
    split
    · rename_i hn
      constructor
      · rintro ⟨set, hset, ha⟩
        refine ⟨⟨set, hset, ha⟩, ?_⟩
        rintro ⟨rfl, -⟩
        rw [hn] at hset
        cases hset
      · exact fun h => h.1
    · rename_i set₀ hn
      simp only [Table.lookup_insert_eq]
      by_cases hnn : n = n₀
      · subst hnn
        simp only [if_pos, hn, Option.some.injEq, exists_eq_left', Finset.mem_erase, true_and]
        constructor
        · rintro ⟨hne, ha⟩; exact ⟨ha, fun h => hne h.symm⟩
        · rintro ⟨ha, hne⟩; exact ⟨fun h => hne h.symm, ha⟩
      · simp only [if_neg hnn]
        constructor
        · intro h; exact ⟨h, fun h => hnn h.1.symm⟩
        · exact fun h => h.1

theorem isUsed_record :
    (u.record r n a).isUsed n' a' = true ↔
      (n' = n ∧ a' = a) ∨ (u.release r).isUsed n' a' = true := by
  simp only [isUsed_eq_true, record, Table.lookup_insert_eq]
  by_cases hn : n' = n
  · subst hn
    simp only [if_pos, Option.some.injEq, exists_eq_left', Finset.mem_insert, true_and]
    cases h : (u.release r).usedByNode.lookup n' with
    | none => simp
    | some set => simp
  · simp only [hn, ↓reduceIte, false_and, false_or]

/-- **The two maps agree.** No address of a node is recorded for two
jails, and the addresses used on a node are those recorded for a jail. -/
structure Consistent : Prop where
  distinct : ∀ r r' x, u.byJail.lookup r = some x → u.byJail.lookup r' = some x → r = r'
  used_iff : ∀ n a, u.isUsed n a = true ↔ ∃ r, u.byJail.lookup r = some (n, a)

variable {u r n a}

theorem Consistent.new : Consistent UsedAddresses.new :=
  ⟨fun r _ _ h => absurd h (by simp [UsedAddresses.new]),
    fun n a => by simp [isUsed, UsedAddresses.new]⟩

/-- Releasing an address takes it from both maps. -/
theorem Consistent.release (h : u.Consistent) (r : String) : (u.release r).Consistent where
  distinct r₁ r₂ x h₁ h₂ := by
    rw [byJail_release] at h₁ h₂
    split at h₁
    · cases h₁
    · split at h₂
      · cases h₂
      · exact h.distinct r₁ r₂ x h₁ h₂
  used_iff n a := by
    rw [isUsed_release, h.used_iff]
    simp only [byJail_release]
    constructor
    · rintro ⟨⟨r', hr'⟩, hne⟩
      refine ⟨r', ?_⟩
      rw [if_neg (by rintro rfl; exact hne hr'), hr']
    · rintro ⟨r', hr'⟩
      split at hr'
      · cases hr'
      · rename_i hne
        exact ⟨⟨r', hr'⟩, fun hr => hne (h.distinct _ _ _ hr' hr)⟩

/-- **Recording keeps the maps agreeing** when nobody else has the
address. -/
theorem Consistent.record (h : u.Consistent)
    (hfree : ∀ r', u.byJail.lookup r' = some (n, a) → r' = r) :
    (u.record r n a).Consistent where
  distinct r₁ r₂ x h₁ h₂ := by
    rw [byJail_record] at h₁ h₂
    split at h₁ <;> split at h₂
    · rename_i e₁ e₂; rw [e₁, e₂]
    · rename_i e₁ e₂
      cases h₁
      exact absurd (hfree _ h₂) e₂
    · rename_i e₁ e₂
      cases h₂
      exact absurd (hfree _ h₁) e₁
    · exact h.distinct r₁ r₂ x h₁ h₂
  used_iff n' a' := by
    rw [isUsed_record, (h.release r).used_iff]
    simp only [byJail_release, byJail_record]
    constructor
    · rintro (⟨rfl, rfl⟩ | ⟨r', hr'⟩)
      · exact ⟨r, if_pos rfl⟩
      · split at hr'
        · cases hr'
        · rename_i hne; exact ⟨r', by rw [if_neg hne, hr']⟩
    · rintro ⟨r', hr'⟩
      split at hr'
      · cases hr'; exact Or.inl ⟨rfl, rfl⟩
      · rename_i hne; exact Or.inr ⟨r', by rw [if_neg hne, hr']⟩

/-- An address that is not used is recorded for nobody. -/
theorem Consistent.byJail_ne_of_isUsed (h : u.Consistent) (hfree : u.isUsed n a = false) :
    u.byJail.lookup r ≠ some (n, a) := by
  intro hr
  have hused := (h.used_iff n a).2 ⟨r, hr⟩
  rw [hfree] at hused
  cases hused

end UsedAddresses

/-- What `firstFreeAddress` answers is free. -/
theorem isUsed_of_firstFreeAddress {podCidr : Ipv4Net} {nodeId : String} {used : UsedAddresses}
    {address : Ipv4Addr} (h : firstFreeAddress podCidr nodeId used = some address) :
    used.isUsed nodeId address = false := by
  have := List.find?_some h
  simpa using this

theorem mem_hosts_of_firstFreeAddress {podCidr : Ipv4Net} {nodeId : String} {used : UsedAddresses}
    {address : Ipv4Addr} (h : firstFreeAddress podCidr nodeId used = some address) :
    address ∈ podCidr.hosts :=
  List.mem_of_mem_drop (List.mem_of_find?_eq_some h)

end ControlPlane

end Keel
