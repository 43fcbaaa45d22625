import Keel.Common.Block
import Keel.ControlPlane.Model.Run
import Keel.ControlPlane.Helpers.Services
/-!
# Virtual addresses

`Services::apply` gives a new service the first address of the service
network, from the one its name hashes to and around, that no service has.
The candidates are the whole block, each once (`existsUnique_attempt`), so
a new service is refused exactly when every address is taken; and the
addresses stay distinct over any sequence of applies and removes
(`vips_allocated`).
-/

namespace Keel

namespace ControlPlane

/-- A call on the table of services. -/
inductive ServiceCall
  | apply (name : String) (desiredReplicas : ℕ) (template : JailTemplate) (port : ℕ)
  | remove (name : String)

namespace Services

/-- What a call leaves. -/
def call (s : Services) : ServiceCall → Services
  | .apply name desiredReplicas template port => (s.apply name desiredReplicas template port).2
  | .remove name => s.remove name

def calls (s : Services) (l : List ServiceCall) : Services := l.foldl call s

end Services

/-! ## The candidates -/

section Candidates

variable {cidr : Ipv4Net} (name : String)

theorem deriveServiceVip_eq (attempt : ℕ) :
    deriveServiceVip name cidr attempt =
      cidr.network + BitVec.ofNat 32 (((fnv1a (utf8 name)).toNat + attempt) % cidr.size) := by
  rw [deriveServiceVip, ← Ipv4Net.size, toNat_add_mod cidr.size_dvd]

/-- The sum of network and offset does not wrap. -/
theorem toNat_deriveServiceVip (attempt : ℕ) :
    (deriveServiceVip name cidr attempt).toNat =
      cidr.network.toNat + ((fnv1a (utf8 name)).toNat + attempt) % cidr.size := by
  rw [deriveServiceVip_eq, Ipv4Net.toNat_network_add _ (Nat.mod_lt _ cidr.size_pos)]

theorem contains_deriveServiceVip (attempt : ℕ) :
    cidr.contains (deriveServiceVip name cidr attempt) = true := by
  rw [deriveServiceVip_eq]
  exact cidr.contains_network_add (Nat.mod_lt _ cidr.size_pos)

/-- **The candidates are the block, each address once.** -/
theorem existsUnique_attempt {a : Ipv4Addr} (h : cidr.contains a = true) :
    ∃! attempt, attempt < cidr.size ∧ deriveServiceVip name cidr attempt = a := by
  have hrange := (cidr.contains_iff a).1 h
  obtain ⟨attempt, ⟨hlt, hvisits⟩, honly⟩ :=
    existsUnique_probe (m := cidr.size) (i := a.toNat - cidr.network.toNat) (by omega)
      (fnv1a (utf8 name)).toNat
  refine ⟨attempt, ⟨hlt, ?_⟩, ?_⟩
  · rw [deriveServiceVip_eq, hvisits]
    exact (cidr.eq_network_add h).symm
  · rintro attempt' ⟨hlt', heq⟩
    refine honly attempt' ⟨hlt', ?_⟩
    have hnat := congrArg BitVec.toNat heq
    rw [toNat_deriveServiceVip] at hnat
    omega

variable {name} {taken : List Ipv4Addr}

/-- A probe comes back empty when every candidate it tries is taken. -/
theorem probeVip_none :
    ∀ {left attempt : ℕ}, Services.probeVip name cidr taken left attempt = none ↔
      ∀ k < left, deriveServiceVip name cidr (attempt + k) ∈ taken := by
  intro left
  induction left with
  | zero => intro _; simp [Services.probeVip]
  | succ left ih =>
    intro attempt
    simp only [Services.probeVip]
    split
    · rename_i htaken
      rw [ih]
      constructor
      · intro h k hk
        cases k with
        | zero => exact htaken
        | succ k =>
          rw [← Nat.add_assoc, Nat.add_right_comm]
          exact h k (by omega)
      · intro h k hk
        rw [Nat.add_right_comm, Nat.add_assoc]
        exact h (k + 1) (by omega)
    · rename_i hfree
      simp only [reduceCtorEq, false_iff, not_forall]
      exact ⟨0, by omega, hfree⟩

end Candidates

/-! ## The table -/

namespace Services

/-- No two services share an address, and each is in the network. -/
structure Allocated (cidr : Ipv4Net) (s : Services) : Prop where
  cidr_eq : s.serviceCidr = cidr
  distinct : ∀ {name name' record record'}, s.get name = some record →
    s.get name' = some record' → record.vip = record'.vip → name = name'
  inside : ∀ {name record}, s.get name = some record → cidr.contains record.vip = true

variable {cidr : Ipv4Net} {s : Services}

theorem Allocated.nodup_taken (h : s.Allocated cidr) : s.taken.Nodup := by
  refine (List.nodup_map_iff_inj_on ?_).2 ?_
  · exact (List.Nodup.of_map Sigma.fst s.byName.nodupKeys)
  · intro e he e' he' heq
    have hget : s.get e.1 = some e.2 := AList.mem_lookup_iff.2 he
    have hget' : s.get e'.1 = some e'.2 := AList.mem_lookup_iff.2 he'
    have hname := h.distinct hget hget' heq
    rw [hname, hget'] at hget
    exact Sigma.ext hname (heq_of_eq (Option.some.inj hget).symm)

/-- **Every address is taken exactly when there are as many services as
addresses.** -/
theorem Allocated.taken_iff (h : s.Allocated cidr) :
    (∀ a, cidr.contains a = true → a ∈ s.taken) ↔ s.byName.entries.length = cidr.size := by
  have hlength : s.byName.entries.length = s.taken.toFinset.card := by
    rw [List.toFinset_card_of_nodup h.nodup_taken, taken, List.length_map]
  have hsub : s.taken.toFinset ⊆ cidr.block := by
    intro a ha
    obtain ⟨name, record, hget, rfl⟩ := mem_taken.1 (List.mem_toFinset.1 ha)
    exact cidr.mem_block.2 (h.inside hget)
  rw [hlength, ← cidr.card_block]
  constructor
  · intro hall
    have hsup : cidr.block ⊆ s.taken.toFinset := fun a ha =>
      List.mem_toFinset.2 (hall a (cidr.mem_block.1 ha))
    rw [Finset.Subset.antisymm hsub hsup]
  · intro hcard a ha
    have heq := Finset.eq_of_subset_of_card_le hsub hcard.ge
    exact List.mem_toFinset.1 (heq ▸ cidr.mem_block.2 ha)

/-- A record under an address nobody else has. -/
theorem Allocated.insert (h : s.Allocated cidr) {name : String} {record : ServiceRecord}
    (hinside : cidr.contains record.vip = true)
    (hfree : ∀ k other, s.get k = some other → other.vip = record.vip → k = name) :
    Allocated cidr { s with byName := s.byName.insert name record } where
  cidr_eq := h.cidr_eq
  distinct {k k' other other'} hk hk' hvip := by
    rw [get_insert] at hk hk'
    split at hk <;> split at hk'
    · rename_i e e'
      rw [e, e']
    · rename_i e e'
      cases hk
      exact e.trans (hfree k' other' hk' hvip.symm).symm
    · rename_i e e'
      cases hk'
      exact (hfree k other hk hvip).trans e'.symm
    · exact h.distinct hk hk' hvip
  inside {k other} hk := by
    rw [get_insert] at hk
    split at hk
    · cases hk
      exact hinside
    · exact h.inside hk

theorem Allocated.call (h : s.Allocated cidr) (c : ServiceCall) : (s.call c).Allocated cidr := by
  cases c with
  | remove name =>
    refine ⟨h.cidr_eq, fun {k k' other other'} hk hk' => ?_, fun {k other} hk => ?_⟩
    · rw [Services.call, get_remove] at hk hk'
      split at hk
      · cases hk
      split at hk'
      · cases hk'
      exact h.distinct hk hk'
    · rw [Services.call, get_remove] at hk
      split at hk
      · cases hk
      exact h.inside hk
  | apply name replicas template port =>
    rw [Services.call]
    rcases s.apply_cases name replicas template port with
      ⟨e, heq⟩ | ⟨record, hget, -, -, heq⟩ | ⟨vip, attempt, -, hfree, hvip, heq⟩
    · rwa [heq]
    · rw [heq]
      have hinside := h.inside hget
      exact h.insert hinside fun k other hk hsame => h.distinct hk hget hsame
    · rw [heq]
      -- The probe takes what no service has.
      refine h.insert ?_ fun k other hk hsame => absurd (mem_taken.2 ⟨k, other, hk, hsame⟩) hfree
      rw [hvip, h.cidr_eq]
      exact contains_deriveServiceVip name attempt

/-- A service's address, port and template. -/
def identity (s : Services) (name : String) : Option (Ipv4Addr × ℕ × JailTemplate) :=
  (s.get name).map fun record => (record.vip, record.port, record.template)

/-- **A call changes no service that is there before and after it**, but
for how many replicas it has. -/
theorem identity_call (s : Services) (c : ServiceCall) {name : String}
    (hbefore : (s.get name).isSome = true) (hafter : ((s.call c).get name).isSome = true) :
    (s.call c).identity name = s.identity name := by
  cases c with
  | remove k =>
    rw [call, get_remove] at hafter
    rw [call, identity, get_remove]
    split at hafter
    · cases hafter
    · rename_i hne
      rw [if_neg hne]
      rfl
  | apply k replicas template port =>
    rw [call]
    rcases s.apply_cases k replicas template port with
      ⟨e, heq⟩ | ⟨record, hget, rfl, rfl, heq⟩ | ⟨vip, attempt, hnone, -, -, heq⟩
    · rw [heq]
    · rw [heq, identity, get_insert]
      split
      · rename_i hname
        rw [hname, identity, hget]
        rfl
      · rfl
    · rw [heq, identity, get_insert]
      split
      · rename_i hname
        -- A service added was not there before.
        rw [hname, hnone] at hbefore
        cases hbefore
      · rfl

end Services

/-! ## Every sequence of calls -/

open Services in
/-- **What is promised of virtual addresses**, of a table over the network
`cidr`. -/
structure VipAllocation (cidr : Ipv4Net) (s : Services) : Prop where
  /-- No two services have one address. -/
  distinct : ∀ name name' record record', s.get name = some record →
    s.get name' = some record' → record.vip = record'.vip → name = name'
  inside : ∀ name record, s.get name = some record → cidr.contains record.vip = true
  /-- As long as a service is there its address, port and template stay. -/
  kept : ∀ later name,
    (∀ l, l <+: later → ((s.calls l).get name).isSome = true) →
      (s.calls later).identity name = s.identity name
  /-- A new service is refused exactly when there is one for every
  address. -/
  exhausted : ∀ name replicas template port, s.get name = none →
    ((s.apply name replicas template port).1 = .error (.vipPoolExhausted name) ↔
      s.byName.entries.length = 2 ^ (32 - cidr.prefixLen))
  /-- The candidates are the network's addresses, each once. -/
  visited : ∀ name a, cidr.contains a = true →
    ∃! attempt, attempt < 2 ^ (32 - cidr.prefixLen) ∧ deriveServiceVip name cidr attempt = a
  /-- Neither the number of candidates nor any of them is past 32 bits. -/
  fits : 2 ^ (32 - cidr.prefixLen) < 2 ^ 32 ∧
    ∀ name attempt, cidr.network.toNat +
      (fnv1a (utf8 name) + BitVec.ofNat 32 attempt).toNat % 2 ^ (32 - cidr.prefixLen) < 2 ^ 32
  /-- A refusal leaves the table as it was. -/
  unchanged : ∀ name replicas template port e,
    (s.apply name replicas template port).1 = .error e →
      (s.apply name replicas template port).2 = s

theorem Services.Allocated.exhausted {cidr : Ipv4Net} {s : Services} (h : s.Allocated cidr)
    {name : String} (hnew : s.get name = none) (replicas : ℕ) (template : JailTemplate) (port : ℕ) :
    (s.apply name replicas template port).1 = .error (.vipPoolExhausted name) ↔
      s.byName.entries.length = cidr.size := by
  rw [← h.taken_iff]
  -- A new name is refused when the probe comes back empty, and for no
  -- other reason.
  have hprobe : (s.apply name replicas template port).1 = .error (.vipPoolExhausted name) ↔
      Services.probeVip name cidr s.taken cidr.size 0 = none := by
    rw [get] at hnew
    simp only [Services.apply, hnew, h.cidr_eq, Ipv4Net.size, Services.taken]
    split
    · rename_i vip hvip
      simp [hvip]
    · rename_i hnone
      simp [hnone]
  rw [hprobe, probeVip_none]
  constructor
  · intro hall a ha
    obtain ⟨attempt, ⟨hlt, rfl⟩, -⟩ := existsUnique_attempt name ha
    simpa using hall attempt hlt
  · intro hall k _
    exact hall _ (contains_deriveServiceVip name _)

theorem Services.Allocated.calls {cidr : Ipv4Net} {s : Services} (h : s.Allocated cidr)
    (l : List ServiceCall) : (s.calls l).Allocated cidr := by
  induction l generalizing s with
  | nil => exact h
  | cons c l ih => exact ih (h.call c)

/-- A service that stays through every call keeps what it is. -/
theorem Services.identity_calls {s : Services} {name : String} (later : List ServiceCall)
    (hstays : ∀ l, l <+: later → ((s.calls l).get name).isSome = true) :
    (s.calls later).identity name = s.identity name := by
  induction later generalizing s with
  | nil => rfl
  | cons c later ih =>
    have hbefore := hstays [] List.nil_prefix
    have hafter := hstays [c] (List.prefix_append [c] later)
    have hrest := ih (s := s.call c) fun l hl => hstays (c :: l) (List.prefix_cons_iff.2 ?_)
    · exact hrest.trans (s.identity_call c hbefore hafter)
    · exact Or.inr ⟨l, rfl, hl⟩

/-- **Virtual addresses are allocated soundly and completely**, over every
sequence of applies and removes from the empty table. -/
theorem vips_allocated (cidr : Ipv4Net) (hcidr : 1 ≤ cidr.prefixLen) (l : List ServiceCall) :
    VipAllocation cidr ((Services.new cidr).calls l) := by
  have hstart : (Services.new cidr).Allocated cidr :=
    ⟨rfl, fun hget => absurd hget (by simp [Services.get, Services.new]),
      fun hget => absurd hget (by simp [Services.get, Services.new])⟩
  have h := hstart.calls l
  refine ⟨fun _ _ _ _ => h.distinct, fun _ _ => h.inside, fun later _ => Services.identity_calls later,
    fun _ replicas template port hnew => h.exhausted hnew replicas template port,
    fun name a => existsUnique_attempt name, ⟨?_, fun name attempt => ?_⟩, ?_⟩
  · exact Nat.pow_lt_pow_right (by decide) (by omega)
  · -- The block ends within the address space.
    have hlt := Nat.mod_lt (fnv1a (utf8 name) + BitVec.ofNat 32 attempt).toNat cidr.size_pos
    have hle := cidr.network_add_size_le
    rw [← Ipv4Net.size]
    omega
  · intro name replicas template port e he
    rcases Services.apply_cases _ name replicas template port with
      ⟨e', heq⟩ | ⟨_, _, _, _, heq⟩ | ⟨_, _, _, _, _, heq⟩
    · rw [heq]
    · rw [heq] at he
      cases he
    · rw [heq] at he
      cases he

open Sample in
/-- Two services in a network of two addresses, one removed and another
in its place. -/
theorem vips_allocated_sample :
    VipAllocation ⟨Ipv4Addr.ofOctets 10 1 0 0, 31, by decide⟩
      ((Services.new ⟨Ipv4Addr.ofOctets 10 1 0 0, 31, by decide⟩).calls
        [.apply "web" 1 (template []) 80, .apply "db" 1 (template data) 81, .remove "web",
          .apply "api" 2 (template []) 82]) :=
  vips_allocated _ (by decide) _

end ControlPlane

end Keel
