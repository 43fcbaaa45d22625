import Keel.Spec.Validate
/-!
# The command line

How `keel-controlplane` reads its flags. A refusal is a panic before
anything runs; here it is the panic's text. The networks of the cluster
and of the services are two flags, and nothing compares them.
-/

namespace Keel

namespace ControlPlane

structure Config where
  addr : String
  clusterCidr : Option Ipv4Net
  serviceCidr : Option Ipv4Net
  tlsCaFile : Option String
  tlsCertFile : Option String
  tlsKeyFile : Option String
  tlsCrlFile : Option String

namespace Config

/-- `Config::default()`. -/
def empty : Config := ⟨"0.0.0.0:7620", none, none, none, none, none, none⟩

/-- One flag and its value. -/
def setFlag [Ipnet] (config : Config) (flag value : String) : Except String Config :=
  match flag with
  | "--addr" => .ok { config with addr := value }
  | "--cluster-cidr" =>
    match parseIpv4Net value with
    | .ok cidr => .ok { config with clusterCidr := some cidr }
    | .error e => .error ("invalid --cluster-cidr '" ++ value ++ "': " ++ e)
  | "--service-cidr" =>
    match parseIpv4Net value with
    | .ok cidr => .ok { config with serviceCidr := some cidr }
    | .error e => .error ("invalid --service-cidr '" ++ value ++ "': " ++ e)
  | "--tls-ca-file" => .ok { config with tlsCaFile := some value }
  | "--tls-cert-file" => .ok { config with tlsCertFile := some value }
  | "--tls-key-file" => .ok { config with tlsKeyFile := some value }
  | "--tls-crl-file" => .ok { config with tlsCrlFile := some value }
  | other => .error ("unknown flag: " ++ other)

/-- `while let Some(flag) = args.next()`: the value is taken before the
flag is looked at. -/
def setFlags [Ipnet] (config : Config) : List String → Except String Config
  | [] => .ok config
  | [flag] => .error ("missing value for " ++ flag)
  | flag :: value :: args =>
    match config.setFlag flag value with
    | .ok config => config.setFlags args
    | .error e => .error e

end Config

def parseArgsFrom [Ipnet] (args : List String) : Except String Config :=
  match Config.empty.setFlags args with
  | .error e => .error e
  | .ok config =>
    if config.clusterCidr.isNone || config.serviceCidr.isNone || config.tlsCaFile.isNone ||
        config.tlsCertFile.isNone || config.tlsKeyFile.isNone || config.tlsCrlFile.isNone then
      .error ("--cluster-cidr, --service-cidr, --tls-ca-file, --tls-cert-file, " ++
        "--tls-key-file, and --tls-crl-file are all required")
    else
      match config.clusterCidr with
      | some cidr =>
        if cidr.prefixLen ≤ 24 then .ok config
        else
          .error ("--cluster-cidr prefix length " ++ toString cidr.prefixLen ++ " must be <= 24")
      | none => .ok config

/-- **What a configuration that is let through has**: both networks, and a
cluster network with room for a block. -/
theorem parseArgsFrom_ok [Ipnet] {args : List String} {config : Config}
    (h : parseArgsFrom args = .ok config) :
    ∃ clusterCidr serviceCidr, config.clusterCidr = some clusterCidr ∧
      config.serviceCidr = some serviceCidr ∧ clusterCidr.prefixLen ≤ 24 := by
  simp only [parseArgsFrom] at h
  split at h
  · cases h
  rename_i config' _
  split at h
  · cases h
  rename_i hpresent
  simp only [Bool.or_eq_true, not_or, Option.isNone_iff_eq_none] at hpresent
  obtain ⟨⟨⟨⟨⟨hcluster, hservice⟩, -⟩, -⟩, -⟩, -⟩ := hpresent
  obtain ⟨clusterCidr, hclusterCidr⟩ := Option.ne_none_iff_exists'.1 hcluster
  obtain ⟨serviceCidr, hserviceCidr⟩ := Option.ne_none_iff_exists'.1 hservice
  rw [hclusterCidr] at h
  simp only at h
  split at h
  · rename_i hle
    cases h
    exact ⟨clusterCidr, serviceCidr, hclusterCidr, hserviceCidr, hle⟩
  · cases h

end ControlPlane

end Keel
