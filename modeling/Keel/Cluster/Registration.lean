import Keel.Common.Utf8
import Keel.Common.Yaml
import Keel.ControlPlane.Model.Http
/-!
# Registration bodies

A node registers by a mapping of five lines, each put together of a key
and the value as it is. What the control plane reads of it is
`serde_yaml`'s to say, which goes by YAML 1.2 (`ImplementsYaml`): a value
that presents itself comes back as it was, and no other does.
-/

namespace Keel

namespace Cluster

open ControlPlane (NodeRegistration)

/-! ## What is written -/

/-- An `f64`, by what it is displayed as: a decimal that rounds to a finite
one, or none. -/
inductive F64
  | finite (negative : Bool) (whole : ℕ) (fraction : List (Fin 10))
      (h : whole < 2 ^ 1024 - 2 ^ 970)
  | inf (negative : Bool)
  | nan

def F64.display : F64 → String
  | .finite negative whole fraction _ => Yaml.decimal negative whole fraction
  | .inf negative => if negative then "-inf" else "inf"
  | .nan => "NaN"

/-- The body that `register_once` sends. -/
def registerBody (nodeId advertiseAddr replicateAddr : String) (capacityCpu : F64)
    (capacityMemory : UInt64) : String :=
  "id: " ++ nodeId ++ "\naddr: " ++ advertiseAddr ++ "\nreplicate_addr: " ++ replicateAddr ++
    "\ncapacity_cpu: " ++ capacityCpu.display ++
    "\ncapacity_memory: " ++ toString capacityMemory.toNat ++ "\n"

/-! ## What is read -/

def string? : Yaml.Scalar → Option String
  | .str s => some s
  | _ => none

/-- `Option<String>`. -/
def optionString? : Yaml.Scalar → Option (Option String)
  | .null => some none
  | .str s => some (some s)
  | _ => none

def u64? : Yaml.Scalar → Option ℕ
  | .int n => if 0 ≤ n ∧ n < 2 ^ 64 then some n.toNat else none
  | _ => none

/-- A mapping of the fields, by the texts of its values. -/
def fields (id addr replicateAddr : String) (capacityCpu : F64) (capacityMemory : UInt64) :
    List (String × String) :=
  [("id", id), ("addr", addr), ("replicate_addr", replicateAddr),
    ("capacity_cpu", capacityCpu.display), ("capacity_memory", toString capacityMemory.toNat)]

/-- The bytes of the mapping. -/
def document (id addr replicateAddr : String) (capacityCpu : F64) (capacityMemory : UInt64) :
    List UInt8 :=
  (Yaml.render (fields id addr replicateAddr capacityCpu capacityMemory)).toUTF8.data.toList

section Read

-- The `f64` that is nearest to a number.
variable (f64 : ℚ → ℚ)

/-- `NodeRegistration::deserialize`, from the scalars of its fields. -/
def deserialize (id addr replicateAddr capacityCpu capacityMemory : Yaml.Scalar) :
    Option NodeRegistration := do
  return ⟨← string? id, ← string? addr, ← optionString? replicateAddr,
    ← capacityCpu.number?.map f64, ← u64? capacityMemory⟩

/-- The fields, read from values that are plain ones. -/
def readPlain (id addr replicateAddr capacityCpu capacityMemory : String) :
    Option NodeRegistration := do
  deserialize f64 (← Yaml.plain? id) (← Yaml.plain? addr) (← Yaml.plain? replicateAddr)
    (← Yaml.plain? capacityCpu) (← Yaml.plain? capacityMemory)

/-- `serde_yaml::from_slice`, for a mapping of the fields on a line each.
Plain values are read as YAML 1.2 has them. Of one that starts with an
indicator, be it a quote, a tag, an anchor or any other, the indicator is
no part: if it is read as a string, and no such value stands before it,
the string is shorter than the text. -/
structure ImplementsYaml (fromSlice : List UInt8 → Except String NodeRegistration) : Prop where
  plain : ∀ (id addr replicateAddr : String) (cpu : F64) (memory : UInt64),
    (∀ v ∈ [id, addr, replicateAddr], Yaml.OneLine v ∧ Yaml.isStyled v = false) →
    (fromSlice (document id addr replicateAddr cpu memory)).toOption =
      readPlain f64 id addr replicateAddr cpu.display (toString memory.toNat)
  styled : ∀ (id addr replicateAddr : String) (cpu : F64) (memory : UInt64),
    (∀ v ∈ [id, addr, replicateAddr], Yaml.OneLine v) →
    ∀ r, fromSlice (document id addr replicateAddr cpu memory) = .ok r →
    (Yaml.isStyled id = true → r.id.length < id.length) ∧
      (Yaml.isStyled id = false → Yaml.isStyled addr = true → r.addr.length < addr.length) ∧
      (Yaml.isStyled id = false → Yaml.isStyled addr = false →
        Yaml.isStyled replicateAddr = true →
        ∀ s, r.replicateAddr = some s → s.length < replicateAddr.length)

end Read

/-! ## What comes back -/

variable {f64 : ℚ → ℚ} {nodeId advertiseAddr replicateAddr : String} {capacityCpu : F64}
variable {capacityMemory : UInt64}

/-- The body is the mapping. -/
theorem registerBody_eq :
    registerBody nodeId advertiseAddr replicateAddr capacityCpu capacityMemory =
      Yaml.render (fields nodeId advertiseAddr replicateAddr capacityCpu capacityMemory) := by
  rw [← String.toList_inj]
  -- The equation of `registerBody` takes long to state; its value does not.
  delta registerBody
  simp [fields, Yaml.render, Yaml.line, String.toList_append]

/-- A capacity that is displayed as a number. -/
def F64.IsFinite : F64 → Prop
  | .finite _ _ _ _ => True
  | _ => False

theorem plain?_display (cpu : F64) : Yaml.plain? cpu.display = some (Yaml.resolve cpu.display) := by
  cases cpu with
  | finite negative whole fraction h => exact Yaml.plain?_decimal negative whole fraction
  | inf negative => cases negative <;> decide +kernel
  | nan => decide +kernel

theorem number?_display (cpu : F64) :
    (Yaml.resolve cpu.display).number?.isSome = true ↔ cpu.IsFinite := by
  cases cpu with
  | finite negative whole fraction h =>
    exact iff_of_true (Yaml.number?_resolve_decimal negative whole fraction) trivial
  | inf negative =>
    refine iff_of_false ?_ id
    cases negative <;> decide +kernel
  | nan => exact iff_of_false (by decide +kernel) id

theorem string?_eq_some {scalar : Yaml.Scalar} {s : String} :
    string? scalar = some s ↔ scalar = .str s := by
  cases scalar <;> simp [string?]

theorem optionString?_eq_some {scalar : Yaml.Scalar} {s : String} :
    optionString? scalar = some (some s) ↔ scalar = .str s := by
  cases scalar <;> simp [optionString?]

/-- **Plain values come back** where each is a text that presents itself. -/
theorem readPlain_iff : (∃ r, readPlain f64 nodeId advertiseAddr replicateAddr capacityCpu.display
      (toString capacityMemory.toNat) = some r ∧
      r.id = nodeId ∧ r.addr = advertiseAddr ∧ r.replicateAddr = some replicateAddr) ↔
    Yaml.SelfPlain nodeId ∧ Yaml.SelfPlain advertiseAddr ∧ Yaml.SelfPlain replicateAddr ∧
      capacityCpu.IsFinite := by
  rw [← Yaml.plain?_eq_str_iff, ← Yaml.plain?_eq_str_iff, ← Yaml.plain?_eq_str_iff,
    ← number?_display]
  have hmemory : u64? (.int capacityMemory.toNat) = some capacityMemory.toNat := by
    have hlt := capacityMemory.toNat_lt
    simp only [u64?]
    rw [if_pos (by omega)]
    rfl
  unfold readPlain deserialize
  rw [plain?_display, Yaml.plain?_toString]
  simp only [Option.bind_eq_bind, Option.bind_some, hmemory]
  constructor
  · rintro ⟨r, hr, rfl, rfl, hreplicate⟩
    obtain ⟨i, hi, hr⟩ := Option.bind_eq_some_iff.1 hr
    obtain ⟨a, ha, hr⟩ := Option.bind_eq_some_iff.1 hr
    obtain ⟨p, hp, hr⟩ := Option.bind_eq_some_iff.1 hr
    obtain ⟨id, hid, hr⟩ := Option.bind_eq_some_iff.1 hr
    obtain ⟨addr, haddr, hr⟩ := Option.bind_eq_some_iff.1 hr
    obtain ⟨replicate, hrep, hr⟩ := Option.bind_eq_some_iff.1 hr
    obtain ⟨cpu, hcpu, hr⟩ := Option.bind_eq_some_iff.1 hr
    cases hr
    subst hreplicate
    refine ⟨?_, ?_, ?_, ?_⟩
    · rw [hi, string?_eq_some.1 hid]
    · rw [ha, string?_eq_some.1 haddr]
    · rw [hp, optionString?_eq_some.1 hrep]
    · obtain ⟨n, hn, -⟩ := Option.map_eq_some_iff.1 hcpu
      rw [hn]
      rfl
  · rintro ⟨hid, haddr, hreplicate, hcpu⟩
    obtain ⟨n, hn⟩ := Option.isSome_iff_exists.1 hcpu
    exact ⟨⟨nodeId, advertiseAddr, some replicateAddr, f64 n, capacityMemory.toNat⟩,
      by simp [hid, haddr, hreplicate, hn, string?, optionString?], rfl, rfl, rfl⟩

theorem forall_strings {P : String → Prop} :
    (∀ v ∈ [nodeId, advertiseAddr, replicateAddr], P v) ↔
      P nodeId ∧ P advertiseAddr ∧ P replicateAddr := by
  simp

/-- **A styled value does not come back**, nor what stands with it. -/
theorem not_isStyled {fromSlice : List UInt8 → Except String NodeRegistration}
    (hyaml : ImplementsYaml f64 fromSlice)
    (hlines : ∀ v ∈ [nodeId, advertiseAddr, replicateAddr], Yaml.OneLine v) {r : NodeRegistration}
    (hr : fromSlice (document nodeId advertiseAddr replicateAddr capacityCpu capacityMemory) =
      .ok r)
    (hid : r.id = nodeId) (haddr : r.addr = advertiseAddr)
    (hreplicate : r.replicateAddr = some replicateAddr) :
    ∀ v ∈ [nodeId, advertiseAddr, replicateAddr], Yaml.isStyled v = false := by
  obtain ⟨hfirst, hsecond, hthird⟩ := hyaml.styled _ _ _ _ _ hlines r hr
  rw [hid] at hfirst
  rw [haddr] at hsecond
  have hnode : Yaml.isStyled nodeId = false :=
    Bool.eq_false_iff.2 fun h => lt_irrefl _ (hfirst h)
  have hadvertise : Yaml.isStyled advertiseAddr = false :=
    Bool.eq_false_iff.2 fun h => lt_irrefl _ (hsecond hnode h)
  have hrep : Yaml.isStyled replicateAddr = false :=
    Bool.eq_false_iff.2 fun h => lt_irrefl _ (hthird hnode hadvertise h _ hreplicate)
  exact forall_strings.2 ⟨hnode, hadvertise, hrep⟩

/-- **What a node registers with comes back** at the control plane if, and
only if, its id and both addresses are texts that present themselves, and
the capacity is a number. -/
theorem registration_survives_iff {fromSlice : List UInt8 → Except String NodeRegistration}
    (hyaml : ImplementsYaml f64 fromSlice)
    (hlines : ∀ v ∈ [nodeId, advertiseAddr, replicateAddr], Yaml.OneLine v) :
    (∃ r, fromSlice (registerBody nodeId advertiseAddr replicateAddr capacityCpu
        capacityMemory).toUTF8.data.toList = .ok r ∧
        r.id = nodeId ∧ r.addr = advertiseAddr ∧ r.replicateAddr = some replicateAddr) ↔
      Yaml.SelfPlain nodeId ∧ Yaml.SelfPlain advertiseAddr ∧ Yaml.SelfPlain replicateAddr ∧
        capacityCpu.IsFinite := by
  rw [registerBody_eq]
  change (∃ r, fromSlice (document nodeId advertiseAddr replicateAddr capacityCpu
    capacityMemory) = .ok r ∧ _) ↔ _
  constructor
  · rintro ⟨r, hr, hback⟩
    have hplain := not_isStyled hyaml hlines hr hback.1 hback.2.1 hback.2.2
    have hread := hyaml.plain nodeId advertiseAddr replicateAddr capacityCpu capacityMemory
      fun v hv => ⟨hlines v hv, hplain v hv⟩
    rw [hr] at hread
    exact readPlain_iff.1 ⟨r, hread.symm, hback⟩
  · intro h
    obtain ⟨r, hr, hback⟩ := (@readPlain_iff f64 _ _ _ _ capacityMemory).2 h
    have hplain : ∀ v ∈ [nodeId, advertiseAddr, replicateAddr], Yaml.isStyled v = false :=
      forall_strings.2 ⟨h.1.plain, h.2.1.plain, h.2.2.1.plain⟩
    have hread := hyaml.plain nodeId advertiseAddr replicateAddr capacityCpu capacityMemory
      fun v hv => ⟨hlines v hv, hplain v hv⟩
    rw [hr] at hread
    refine ⟨r, ?_, hback⟩
    cases hslice : fromSlice (document nodeId advertiseAddr replicateAddr capacityCpu
        capacityMemory) with
    | ok r' =>
      rw [hslice] at hread
      rw [Option.some.inj hread]
    | error e =>
      rw [hslice] at hread
      cases hread

/-! ## A reader of plain values -/

/-- The fields of a mapping of them. -/
def readFields (f64 : ℚ → ℚ) : List (String × String) → Option NodeRegistration
  | [("id", id), ("addr", addr), ("replicate_addr", replicateAddr), ("capacity_cpu", capacityCpu),
      ("capacity_memory", capacityMemory)] =>
    readPlain f64 id addr replicateAddr capacityCpu capacityMemory
  | _ => none

/-- A reader that takes plain values, and no others. -/
def plainFromSlice (f64 : ℚ → ℚ) (bytes : List UInt8) : Except String NodeRegistration :=
  match (String.fromUTF8? ⟨bytes.toArray⟩).bind fun text =>
      (Yaml.entries? text).bind (readFields f64) with
  | some r => .ok r
  | none => .error "invalid value"

theorem plainFromSlice_document (f64 : ℚ → ℚ) {id addr replicateAddr : String} (cpu : F64)
    (memory : UInt64) (hlines : ∀ v ∈ [id, addr, replicateAddr], Yaml.OneLine v) :
    (plainFromSlice f64 (document id addr replicateAddr cpu memory)).toOption =
      readPlain f64 id addr replicateAddr cpu.display (toString memory.toNat) := by
  have hentries : Yaml.entries? (Yaml.render (fields id addr replicateAddr cpu memory)) =
      some (fields id addr replicateAddr cpu memory) := by
    have hcpu := Yaml.oneLine_of_plain? (plain?_display cpu)
    have hmemory := Yaml.oneLine_of_plain? (Yaml.plain?_toString memory.toNat)
    refine Yaml.entries?_render fun e he => ?_
    have hkeys : ∀ k ∈ ["id", "addr", "replicate_addr", "capacity_cpu", "capacity_memory"],
        '\n' ∉ k.toList ∧ ':' ∉ k.toList := by decide +kernel
    simp only [fields, List.mem_cons, List.not_mem_nil, or_false] at he
    obtain ⟨hid, haddr, hreplicate⟩ := forall_strings.1 hlines
    rcases he with rfl | rfl | rfl | rfl | rfl
    · exact ⟨(hkeys _ (by simp)).1, (hkeys _ (by simp)).2, hid.1⟩
    · exact ⟨(hkeys _ (by simp)).1, (hkeys _ (by simp)).2, haddr.1⟩
    · exact ⟨(hkeys _ (by simp)).1, (hkeys _ (by simp)).2, hreplicate.1⟩
    · exact ⟨(hkeys _ (by simp)).1, (hkeys _ (by simp)).2, hcpu.1⟩
    · exact ⟨(hkeys _ (by simp)).1, (hkeys _ (by simp)).2, hmemory.1⟩
  have hfields : readFields f64 (fields id addr replicateAddr cpu memory) =
      readPlain f64 id addr replicateAddr cpu.display (toString memory.toNat) := rfl
  unfold plainFromSlice document
  rw [fromUTF8?_toUTF8, Option.bind_some, hentries, Option.bind_some, hfields]
  cases readPlain f64 id addr replicateAddr cpu.display (toString memory.toNat) <;> rfl

/-- What it takes was plain. -/
theorem plain_of_readPlain {id addr replicateAddr cpu memory : String} {r : NodeRegistration}
    (h : readPlain f64 id addr replicateAddr cpu memory = some r) :
    Yaml.isStyled id = false ∧ Yaml.isStyled addr = false ∧
      Yaml.isStyled replicateAddr = false := by
  unfold readPlain at h
  obtain ⟨i, hi, h⟩ := Option.bind_eq_some_iff.1 h
  obtain ⟨a, ha, h⟩ := Option.bind_eq_some_iff.1 h
  obtain ⟨p, hp, -⟩ := Option.bind_eq_some_iff.1 h
  exact ⟨Yaml.isStyled_of_plain? hi, Yaml.isStyled_of_plain? ha, Yaml.isStyled_of_plain? hp⟩

theorem implementsYaml_plainFromSlice (f64 : ℚ → ℚ) : ImplementsYaml f64 (plainFromSlice f64) where
  plain id addr replicateAddr cpu memory h :=
    plainFromSlice_document f64 cpu memory fun v hv => (h v hv).1
  styled id addr replicateAddr cpu memory hlines r hr := by
    have hread := plainFromSlice_document f64 cpu memory hlines
    rw [hr] at hread
    obtain ⟨hid, haddr, hreplicate⟩ := plain_of_readPlain hread.symm
    refine ⟨fun h => ?_, fun _ h => ?_, fun _ _ h => ?_⟩
    · cases hid.symm.trans h
    · cases haddr.symm.trans h
    · cases hreplicate.symm.trans h

namespace Sample

/-- Four cores. -/
def cpu : F64 := .finite false 4 [] (by decide +kernel)

def body (nodeId : String) : List UInt8 :=
  (registerBody nodeId "10.0.0.1:7621" "10.0.0.1:7622" cpu 8589934592).toUTF8.data.toList

end Sample

/-- An id and two addresses as operators choose them. -/
theorem registration_survives_sample : ∃ r, plainFromSlice id (Sample.body "node-1") = .ok r ∧
    r.id = "node-1" ∧ r.addr = "10.0.0.1:7621" ∧ r.replicateAddr = some "10.0.0.1:7622" := by
  refine (registration_survives_iff (implementsYaml_plainFromSlice id) ?_).2 ⟨?_, ?_, ?_, trivial⟩
  · decide +kernel
  all_goals exact Yaml.plain?_eq_str_iff.1 (by decide +kernel)

/-- An id with a comment in it comes back without. -/
theorem registration_cut_short : ¬ ∃ r, plainFromSlice id (Sample.body "node-1 #a") = .ok r ∧
    r.id = "node-1 #a" ∧ r.addr = "10.0.0.1:7621" ∧ r.replicateAddr = some "10.0.0.1:7622" := by
  have hread : (plainFromSlice id (Sample.body "node-1 #a")).toOption.map NodeRegistration.id =
      some "node-1" := by decide +kernel
  rintro ⟨r, hr, hid, -⟩
  rw [hr] at hread
  have hback : r.id = "node-1" := Option.some.inj hread
  rw [hid] at hback
  exact absurd hback (by decide)

end Cluster

end Keel
