import Mathlib.Data.Rat.Defs
import Mathlib.Algebra.Field.Rat
import Mathlib.Algebra.Order.Ring.Rat
import Keel.Common.Binary64
import Keel.Common.Net
import Keel.Common.Text
import Keel.Spec.Types
/-!
# Validation of specs

The checks `keel-spec` makes: names, resources, volumes, and the fields a
re-apply may not change. A number of cores is the `f64` nearest to the
decimal (`Binary64.nearest`).

What reads a network out of a string is the `ipnet` crate, a parameter
here (`Ipnet`).
-/

namespace Keel

/-- An IP network as the `ipnet` crate reads one. -/
inductive IpNet
  | v4 (addr : BitVec 32) (prefixLen : ℕ)
  | v6 (addr : BitVec 128) (prefixLen : ℕ)
deriving DecidableEq

inductive IpAddr
  | v4 (addr : BitVec 32)
  | v6 (addr : BitVec 128)
deriving DecidableEq

def IpNet.addr : IpNet → IpAddr
  | .v4 addr _ => .v4 addr
  | .v6 addr _ => .v6 addr

/-- The `ipnet` crate's reading of a network, or the message it refuses
one with. -/
class Ipnet where
  parse : String → Except String IpNet

/-- How `ipnet` reads an IPv4 network: as any network, so long as it is
one. -/
def parseIpv4Net [Ipnet] (s : String) : Except String Ipv4Net :=
  match Ipnet.parse s with
  | .ok (.v4 addr prefixLen) =>
    if h : prefixLen ≤ 32 then .ok ⟨addr, prefixLen, h⟩ else .error "invalid IP address syntax"
  | .ok (.v6 _ _) => .error "invalid IP address syntax"
  | .error e => .error e

def isAsciiLowercase (c : Char) : Bool := 'a' ≤ c && c ≤ 'z'

def isAsciiDigit (c : Char) : Bool := '0' ≤ c && c ≤ '9'

def isAsciiAlphanumeric (c : Char) : Bool :=
  isAsciiLowercase c || ('A' ≤ c && c ≤ 'Z') || isAsciiDigit c

def validateName (name : String) : Except SpecError Unit :=
  let valid := name ≠ "" && name.utf8ByteSize ≤ 63 &&
    name.toList.all (fun c => isAsciiLowercase c || isAsciiDigit c || c == '-') &&
    name.toList.head?.any isAsciiAlphanumeric &&
    name.toList.getLast?.any isAsciiAlphanumeric
  if valid then .ok () else .error (.invalidName name)

def validateAddress [Ipnet] (address : String) : Except SpecError Unit :=
  match Ipnet.parse address with
  | .ok _ => .ok ()
  | .error e => .error (.invalidAddress address e)

/-! ## Numbers -/

/-- The number a run of digits spells, if it is one and is not empty. -/
def digits? : List Char → Option ℕ
  | [] => none
  | cs => if cs.all isAsciiDigit then
      some (cs.foldl (fun n c => 10 * n + (c.toNat - '0'.toNat)) 0) else none

/-- An unsigned integer of `bits` bits, as Rust reads one: an optional
`+`, then digits, within range. -/
def parseUnsigned (bits : ℕ) (s : String) : Option ℕ := do
  let n ← digits? (if s.toList.head? = some '+' then s.toList.tail else s.toList)
  if n < 2 ^ bits then some n else none

theorem digits?_toDigits (i : ℕ) : digits? (Nat.toDigits 10 i) = some i := by
  have hdigit : (Nat.toDigits 10 i).all isAsciiDigit = true := by
    refine List.all_eq_true.2 fun c hc => ?_
    have := Nat.isDigit_of_mem_toDigits (by decide) (by decide) hc
    simpa [Char.isDigit, isAsciiDigit, Char.le_def] using this
  have hvalue : (Nat.toDigits 10 i).foldl (fun n c => 10 * n + (c.toNat - '0'.toNat)) 0 = i :=
    Nat.ofDigitChars_toDigits (by decide) (by decide)
  rw [digits?.eq_def]
  split
  · rename_i h
    exact absurd h Nat.toDigits_ne_nil
  · rw [if_pos hdigit, hvalue]

/-- A number is read back from its decimal. -/
theorem parseUnsigned_toString {bits i : ℕ} (h : i < 2 ^ bits) :
    parseUnsigned bits (toString i) = some i := by
  have hhead : (Nat.toDigits 10 i).head? ≠ some '+' := by
    intro hplus
    have hdigit := Nat.isDigit_of_mem_toDigits (by decide) (by decide) (List.mem_of_head? hplus)
    simp at hdigit
  rw [parseUnsigned, toList_toString, if_neg hhead, digits?_toDigits]
  exact if_pos h

/-- The exponent part of a decimal: `e`, a sign, digits. -/
def exponent? : List Char → Option ℤ
  | [] => some 0
  | 'e' :: '+' :: ds => (digits? ds).map Int.ofNat
  | 'e' :: '-' :: ds => (digits? ds).map fun n => -Int.ofNat n
  | 'e' :: ds => (digits? ds).map Int.ofNat
  | _ => none

/-- The value of a decimal, less its sign: digits with at most one point
among them, then an exponent. -/
def decimal? (cs : List Char) : Option ℚ := do
  let whole := cs.takeWhile isAsciiDigit
  let rest := cs.dropWhile isAsciiDigit
  let fraction := if rest.head? = some '.' then rest.tail.takeWhile isAsciiDigit else []
  let tail := if rest.head? = some '.' then rest.tail.dropWhile isAsciiDigit else rest
  let mantissa ← digits? (whole ++ fraction)
  let e ← exponent? tail
  some ((mantissa : ℚ) * 10 ^ (e - fraction.length))

def asciiLower (c : Char) : Char :=
  if 'A' ≤ c && c ≤ 'Z' then Char.ofNat (c.toNat + 32) else c

/-- The cores a string asks for: a decimal that rounds to a positive
finite `f64`. -/
def parseCpuCores (s : String) : Except SpecError ℚ :=
  let cs := s.toList.map asciiLower
  match decimal? (if cs.head? = some '+' then cs.tail else cs) with
  | some v =>
    if 1 / 2 ^ 1075 < v ∧ v < 2 ^ 1024 - 2 ^ 970 then .ok (Binary64.nearest v)
    else .error (.invalidCpu s)
  | none => .error (.invalidCpu s)

/-- Percent of a core, rounded half up, as far as 32 bits reach. -/
def coresToPcpuPercent (cores : ℚ) : ℕ :=
  min (Binary64.nearest (cores * 100) + 1 / 2).floor.toNat (2 ^ 32 - 1)

example : (parseCpuCores "1.005").toOption.map coresToPcpuPercent = some 100 := by decide +kernel

def asciiUpper (c : Char) : Char :=
  if 'a' ≤ c && c ≤ 'z' then Char.ofNat (c.toNat - 32) else c

/-- Bytes: digits, then at most one of `K`, `M`, `G`. -/
def parseMemoryBytes (s : String) : Except SpecError ℕ :=
  let upper := s.toList.map asciiUpper
  let (numPart, multiplier) : List Char × ℕ :=
    if upper.getLast? = some 'K' then (upper.dropLast, 1024)
    else if upper.getLast? = some 'M' then (upper.dropLast, 1024 * 1024)
    else if upper.getLast? = some 'G' then (upper.dropLast, 1024 * 1024 * 1024)
    else (upper, 1)
  match parseUnsigned 64 (String.ofList numPart) with
  | none => .error (.invalidMemory s)
  | some value =>
    if value = 0 then .error (.invalidMemory s)
    else if value * multiplier < 2 ^ 64 then .ok (value * multiplier)
    else .error (.invalidMemory s)

def parseZfsQuota (s : String) : Except SpecError ℕ := parseMemoryBytes s

/-! ## Whole specs -/

/-- The names, sizes and distinctness of volumes; `seen` holds the names
already passed. -/
def validateVolumesFrom (seen : List String) : List VolumeMount → Except SpecError Unit
  | [] => .ok ()
  | v :: vs => do
    validateName v.name
    if v.name ∈ seen then throw (.duplicateVolumeName v.name)
    let _ ← parseZfsQuota v.size
    validateVolumesFrom (v.name :: seen) vs

def validateVolumes (volumes : List VolumeMount) : Except SpecError Unit :=
  validateVolumesFrom [] volumes

def validateTransition (old new : JailSpec) : Except SpecError Unit := do
  if old.spec.image ≠ new.spec.image then throw (.immutableField "spec.image")
  if old.spec.network.address ≠ new.spec.network.address then
    throw (.immutableField "spec.network.address")
  if old.spec.volumes ≠ new.spec.volumes then throw (.immutableField "spec.volumes")

/-- A label of a host: letters, digits and hyphens, no hyphen at either
end. -/
def isHostLabel (label : List Char) : Bool :=
  label ≠ [] && (String.ofList label).utf8ByteSize ≤ 63 &&
    label.all (fun c => isAsciiAlphanumeric c || c == '-') &&
    label.head?.any isAsciiAlphanumeric && label.getLast?.any isAsciiAlphanumeric

def validateHost (host : String) : Except SpecError Unit :=
  let labels := host.toList.splitOn '.'
  if 2 ≤ labels.length && labels.all isHostLabel then .ok () else .error (.invalidHost host)

/-- What `char::is_whitespace` takes for one. -/
def isWhitespace (c : Char) : Bool :=
  let n := c.toNat
  (9 ≤ n && n ≤ 13) || n == 0x20 || n == 0x85 || n == 0xA0 || n == 0x1680 ||
    (0x2000 ≤ n && n ≤ 0x200A) || n == 0x2028 || n == 0x2029 || n == 0x202F || n == 0x205F ||
    n == 0x3000

/-- Something on either side of the first `@`, no white space, and a dot
in the domain. -/
def validateEmail (email : String) : Except SpecError Unit :=
  let name := email.toList.takeWhile (· ≠ '@')
  let domain := (email.toList.dropWhile (· ≠ '@')).tail
  if '@' ∈ email.toList && name ≠ [] && domain ≠ [] && !name.any isWhitespace &&
      !domain.any isWhitespace && domain.contains '.' then .ok ()
  else .error (.invalidEmail email)

/-- A jail spec as read from YAML, checked. -/
def parseAndValidate [Ipnet] (yaml : Except String JailSpec) : Except SpecError JailSpec := do
  let spec ← yaml.mapError .yaml
  validateName spec.metadata.name
  validateAddress spec.spec.network.address
  let _ ← parseCpuCores spec.spec.resources.cpu
  let _ ← parseMemoryBytes spec.spec.resources.memory
  validateVolumes spec.spec.volumes
  return spec

/-- A service spec as read from YAML, checked. -/
def parseAndValidateService (yaml : Except String ServiceSpec) : Except SpecError ServiceSpec := do
  let spec ← yaml.mapError .yaml
  validateName spec.metadata.name
  let _ ← parseCpuCores spec.spec.template.resources.cpu
  let _ ← parseMemoryBytes spec.spec.template.resources.memory
  validateVolumes spec.spec.template.volumes
  if spec.spec.port = 0 then throw (.invalidPort 0)
  return spec

example : parseMemoryBytes "512m" = .ok (512 * 1024 * 1024) := by decide +kernel

example : (parseCpuCores "0.5").toOption = some (1 / 2) := by decide +kernel

end Keel
