import Keel.Node.Panics
/-!
# Committed memory

A heartbeat carries what the records of an agent ask for, summed. Each
record was looked at by itself when it was applied, and asks for less than
`2 ^ 64` bytes; what they ask for together was looked at by nobody. Below
`2 ^ 64` the sum is what it should be; from there on it panics, or wraps
around where overflow is not checked for (`committed_memory_exact_iff`).
-/

namespace Keel

namespace Node

open Agent (JailRecord)

/-! ## The fold -/

namespace Reconciler

/-- `committed` as in a build without overflow checks. -/
def committedWrapping : List JailRecord → ℚ → ℕ → Checked (ℚ × ℕ)
  | [], cpu, mem => .ok (cpu, mem)
  | record :: records, cpu, mem => do
    let cpuCores ← Checked.expect "resources were already validated at apply time"
      (parseCpuCores record.spec.spec.resources.cpu).toOption
    let memBytes ← Checked.expect "resources were already validated at apply time"
      (parseMemoryBytes record.spec.spec.resources.memory).toOption
    committedWrapping records (cpu + cpuCores) ((mem + memBytes) % 2 ^ 64)

end Reconciler

/-- The cores of some jails. -/
def coresTotal (records : List JailRecord) : ℚ :=
  (records.map fun record =>
    (parseCpuCores record.spec.spec.resources.cpu).toOption.getD 0).sum

section Fold

variable [Ipnet] {record : JailRecord} {records : List JailRecord} {cpu : ℚ} {mem : ℕ}

omit [Ipnet] in
theorem memoryTotal_cons {memoryBytes : ℕ}
    (h : parseMemoryBytes record.spec.spec.resources.memory = .ok memoryBytes) :
    memoryTotal (record :: records) = memoryBytes + memoryTotal records := by
  rw [memoryTotal, List.map_cons, List.sum_cons, h]
  rfl

omit [Ipnet] in
theorem coresTotal_cons {cores : ℚ}
    (h : parseCpuCores record.spec.spec.resources.cpu = .ok cores) :
    coresTotal (record :: records) = cores + coresTotal records := by
  rw [coresTotal, List.map_cons, List.sum_cons, h]
  rfl

omit [Ipnet] in
/-- One turn of the fold. -/
theorem committed_cons {cores : ℚ} {memoryBytes : ℕ}
    (hcores : parseCpuCores record.spec.spec.resources.cpu = .ok cores)
    (hmemory : parseMemoryBytes record.spec.spec.resources.memory = .ok memoryBytes) :
    Reconciler.committed (record :: records) cpu mem =
      Checked.add 64 mem memoryBytes >>= Reconciler.committed records (cpu + cores) := by
  rw [Reconciler.committed, hcores, hmemory]
  rfl

omit [Ipnet] in
theorem committedWrapping_cons {cores : ℚ} {memoryBytes : ℕ}
    (hcores : parseCpuCores record.spec.spec.resources.cpu = .ok cores)
    (hmemory : parseMemoryBytes record.spec.spec.resources.memory = .ok memoryBytes) :
    Reconciler.committedWrapping (record :: records) cpu mem =
      Reconciler.committedWrapping records (cpu + cores) ((mem + memoryBytes) % 2 ^ 64) := by
  rw [Reconciler.committedWrapping, hcores, hmemory]
  rfl

/-- **With overflow checks** the sum is the sum, or it panics. -/
theorem committed_eq (hvalid : ∀ record ∈ records, Validated record) (hmem : mem < 2 ^ 64) :
    Reconciler.committed records cpu mem =
      if mem + memoryTotal records < 2 ^ 64 then
        .ok (cpu + coresTotal records, mem + memoryTotal records)
      else .error .overflow := by
  induction records generalizing cpu mem with
  | nil =>
    have hcores : coresTotal [] = 0 := rfl
    have hmemory : memoryTotal [] = 0 := rfl
    rw [Reconciler.committed, hcores, hmemory, Nat.add_zero, add_zero, if_pos hmem]
  | cons record records ih =>
    obtain ⟨⟨cores, hcores⟩, memoryBytes, hmemory⟩ :=
      (hvalid record List.mem_cons_self).resources
    have hrest : ∀ record ∈ records, Validated record :=
      fun a ha => hvalid a (List.mem_cons_of_mem record ha)
    rw [committed_cons hcores hmemory, memoryTotal_cons hmemory, coresTotal_cons hcores]
    by_cases hsum : mem + memoryBytes < 2 ^ 64
    · rw [Checked.add_of_lt hsum]
      show Reconciler.committed records (cpu + cores) (mem + memoryBytes) = _
      rw [ih hrest hsum, Nat.add_assoc, add_assoc]
    · have hover : ¬ mem + (memoryBytes + memoryTotal records) < 2 ^ 64 := by omega
      rw [Checked.add, if_neg hsum, if_neg hover]
      rfl

/-- **Without them** it is what is left of the sum. -/
theorem committedWrapping_eq (hvalid : ∀ record ∈ records, Validated record)
    (hmem : mem < 2 ^ 64) :
    Reconciler.committedWrapping records cpu mem =
      .ok (cpu + coresTotal records, (mem + memoryTotal records) % 2 ^ 64) := by
  induction records generalizing cpu mem with
  | nil =>
    have hcores : coresTotal [] = 0 := rfl
    have hmemory : memoryTotal [] = 0 := rfl
    rw [Reconciler.committedWrapping, hcores, hmemory, Nat.add_zero, add_zero,
      Nat.mod_eq_of_lt hmem]
  | cons record records ih =>
    obtain ⟨⟨cores, hcores⟩, memoryBytes, hmemory⟩ :=
      (hvalid record List.mem_cons_self).resources
    have hrest : ∀ record ∈ records, Validated record :=
      fun a ha => hvalid a (List.mem_cons_of_mem record ha)
    have hleft : (mem + memoryBytes) % 2 ^ 64 < 2 ^ 64 := Nat.mod_lt _ (by decide)
    rw [committedWrapping_cons hcores hmemory, ih hrest hleft, memoryTotal_cons hmemory,
      coresTotal_cons hcores, Nat.mod_add_mod, Nat.add_assoc, add_assoc]

end Fold

/-! ## What is on record -/

/-- What the records of an agent ask for, in bytes. -/
def Reconciler.memoryAsked (r : Reconciler) : ℕ :=
  memoryTotal ((r.records.iter .listed).map Prod.snd)

/-- The order they are summed in does not matter. -/
theorem memoryTotal_iter (r : Reconciler) (order : IterOrder) :
    memoryTotal ((r.records.iter order).map Prod.snd) = r.memoryAsked := by
  have hperm : (r.records.iter order).Perm (r.records.iter .listed) :=
    (order.perm r.records.keys).filterMap _
  exact ((hperm.map Prod.snd).map _).sum_nat

section Life

variable {Text : Type} [Ipnet] [SerdeYaml Text JailRecord] [SerdeYaml Text IngressRecord]

/-- Every record an agent has come by was accepted. -/
theorem validated_of_life {pool : String} {choices : ℕ → Option (Outcome Text)}
    {machine : Host Text} (hmachine : ∀ file content,
      machine.stateDir.lookup file = some content → extension file ≠ some "yaml")
    {events : List (Event Exit)} {r : Reconciler}
    (hreached : (machine.life pool choices events).memory = some r) {name : String}
    {record : JailRecord} (hrecord : r.records.lookup name = some record) : Validated record := by
  obtain ⟨l, hl⟩ := Host.life_tracks pool choices hmachine events
  rw [(hl.memory r hreached).records] at hrecord
  exact hl.sound.record name record hrecord

end Life

/-- **Committed memory is exact** exactly below `2 ^ 64`. In every life of
an agent that starts without records, and whatever order its records come
in: each of them has a memory size; and with overflow checks the sum comes
to the memory asked for, and without them it comes to that too, if and only
if the memory asked for is less than `2 ^ 64` bytes. -/
theorem committed_memory_exact_iff [Ipnet] {Text : Type} [SerdeYaml Text JailRecord]
    [SerdeYaml Text IngressRecord] (pool : String) (choices : ℕ → Option (Outcome Text))
    {machine : Host Text} (hmachine : ∀ file content,
      machine.stateDir.lookup file = some content → extension file ≠ some "yaml")
    (events : List (Event Exit)) {r : Reconciler}
    (hreached : (machine.life pool choices events).memory = some r) (order : IterOrder) :
    (∀ name record, r.records.lookup name = some record →
      (parseMemoryBytes record.spec.spec.resources.memory).isOk = true) ∧
    ((∃ cpu, Reconciler.committed ((r.records.iter order).map Prod.snd) 0 0 =
        .ok (cpu, r.memoryAsked)) ↔ r.memoryAsked < 2 ^ 64) ∧
    ((∃ cpu, Reconciler.committedWrapping ((r.records.iter order).map Prod.snd) 0 0 =
        .ok (cpu, r.memoryAsked)) ↔ r.memoryAsked < 2 ^ 64) ∧
    (r.memoryAsked < 2 ^ 64 → ∀ (final : ℕ → Option (Outcome Text))
      (t : Trace (Op Text) (Host Text)), ∃ cpu,
      (Reconciler.committedResources order : Method Text (ℚ × ℕ)).run Host.outside final r t =
        (.returned (.ok (cpu, r.memoryAsked)) r, t)) := by
  have hrecords : ∀ record ∈ (r.records.iter order).map Prod.snd, Validated record := by
    intro record hrecord
    obtain ⟨⟨name, record⟩, hmem, rfl⟩ := List.mem_map.1 hrecord
    exact validated_of_life hmachine hreached (Table.mem_iter.1 hmem)
  have hzero : 0 < 2 ^ 64 := by decide
  have hchecked : Reconciler.committed _ 0 0 = _ := committed_eq hrecords hzero
  have hwrapping : Reconciler.committedWrapping _ 0 0 = _ := committedWrapping_eq hrecords hzero
  rw [memoryTotal_iter, Nat.zero_add] at hchecked hwrapping
  refine ⟨fun name record hrecord => ?_, ⟨?_, fun hroom => ?_⟩, ⟨?_, fun hroom => ?_⟩,
    fun hroom final t => ?_⟩
  · obtain ⟨-, memoryBytes, hmemory⟩ := (validated_of_life hmachine hreached hrecord).resources
    rw [hmemory]
    rfl
  · rintro ⟨cpu, hsum⟩
    by_contra hover
    rw [hchecked, if_neg hover] at hsum
    cases hsum
  · exact ⟨_, hchecked.trans (if_pos hroom)⟩
  · rintro ⟨cpu, hsum⟩
    have hleft : r.memoryAsked % 2 ^ 64 = r.memoryAsked :=
      congrArg Prod.snd (Except.ok.inj (hwrapping.symm.trans hsum))
    have hlt : r.memoryAsked % 2 ^ 64 < 2 ^ 64 := Nat.mod_lt _ (by decide)
    omega
  · exact ⟨_, hwrapping.trans (by rw [Nat.mod_eq_of_lt hroom])⟩
  · refine ⟨0 + coresTotal ((r.records.iter order).map Prod.snd), ?_⟩
    show (Proc.ofChecked (Reconciler.committed ((r.records.iter order).map Prod.snd) 0 0) :
      Method Text (ℚ × ℕ)).run Host.outside final r t = _
    rw [hchecked, if_pos hroom]
    rfl

section

open Agent.Sample (jail)
open Node.Sample (working)
open scoped Agent.Sample Node.Sample

namespace Sample

/-- A jail that asks for some memory. -/
def jailOf (name memory : String) : JailSpec :=
  { jail name none with spec := { (jail name none).spec with resources := ⟨"1", memory⟩ } }

end Sample

open Node.Sample (jailOf)

/-- Two jails that ask for what a machine has. -/
theorem committed_memory_exact_sample : ∃ r,
    (Sample.host.life "zroot" working [.start, .operation (.apply (jailOf "db-0" "2G")),
      .operation (.apply (jailOf "db-1" "1G"))]).memory = some r ∧
    ∃ cpu, Reconciler.committed ((r.records.iter .listed).map Prod.snd) 0 0 =
      .ok (cpu, r.memoryAsked) := by
  have hasked : ((Sample.host.life "zroot" working [.start,
      .operation (.apply (jailOf "db-0" "2G")),
      .operation (.apply (jailOf "db-1" "1G"))]).memory.any fun r =>
        r.memoryAsked < 2 ^ 64) = true := by decide +kernel
  obtain ⟨r, hr, hroom⟩ := (Option.any_eq_true _ _).1 hasked
  obtain ⟨-, hchecked, -⟩ := committed_memory_exact_iff "zroot" working
    (fun file content hfile => by cases hfile) _ hr .listed
  exact ⟨r, hr, hchecked.2 (of_decide_eq_true hroom)⟩

/-- Two jails of `2 ^ 63` bytes each are accepted; the next sum panics, and
without overflow checks it comes to nothing at all. -/
theorem committed_memory_overflows :
    ((Sample.host.life "zroot" working [.start,
      .operation (.apply (jailOf "db-0" "9223372036854775808")),
      .operation (.apply (jailOf "db-1" "9223372036854775808"))]).memory.any fun r =>
        r.records.keys.length = 2 && r.memoryAsked = 2 ^ 64 &&
          decide ((Reconciler.committedWrapping ((r.records.iter .listed).map Prod.snd) 0 0).map
            Prod.snd = .ok 0)) = true ∧
    (Sample.host.life "zroot" working [.start,
      .operation (.apply (jailOf "db-0" "9223372036854775808")),
      .operation (.apply (jailOf "db-1" "9223372036854775808"))]).Panics
        (Host.world "zroot" working) (.operation (.committedResources .listed)) := by
  refine ⟨by decide +kernel, System.panics_of_isPanic ?_⟩
  decide +kernel

end

end Node

end Keel
