import Keel.Common.Result
import Keel.Spec.Names
import Keel.ControlPlane.Helpers.Plan
import Keel.Agent.Model.Reconciler
/-!
# Replicas an agent takes

The control plane checks a service's own name and its volumes' names; an
agent checks the names made of them, `<service>-<index>` and
`<service>-<index>-<volume>`. The parts are well spelt, so what an agent
says of an accepted service's replica is a matter of length alone — and
nothing bounds the lengths together.
-/

namespace Keel

open ControlPlane (replicaName)
open Agent (Reconciler)

/-- What `parse_and_validate_service` has checked of a service it lets
through. -/
theorem parseAndValidateService_ok {yaml : Except String ServiceSpec} {spec : ServiceSpec}
    (h : parseAndValidateService yaml = .ok spec) :
    validateName spec.metadata.name = .ok () ∧
      (parseCpuCores spec.spec.template.resources.cpu).isOk = true ∧
      (parseMemoryBytes spec.spec.template.resources.memory).isOk = true ∧
      validateVolumes spec.spec.template.volumes = .ok () := by
  simp only [parseAndValidateService, bind_eq_ok, ite_throw_eq_ok] at h
  obtain ⟨s, -, u, hname, cpu, hcpu, memory, hmemory, u', hvolumes, -, hs⟩ := h
  cases hs
  exact ⟨hname, isOk_iff_exists.2 ⟨cpu, hcpu⟩, isOk_iff_exists.2 ⟨memory, hmemory⟩, hvolumes⟩

/-- The checks of `apply` on a name there is no record of. -/
theorem checkApply_fresh [Ipnet] {r : Reconciler} {spec : JailSpec}
    (hfresh : spec.metadata.name ∉ r.records) :
    (r.checkApply spec).isOk = true ↔
      validateName spec.metadata.name = .ok () ∧
        validateAddress spec.spec.network.address = .ok () ∧
        (parseCpuCores spec.spec.resources.cpu).isOk = true ∧
        (parseMemoryBytes spec.spec.resources.memory).isOk = true := by
  have hnone : r.records.lookup spec.metadata.name = none := AList.lookup_eq_none.2 hfresh
  simp only [isOk_iff_exists, Reconciler.checkApply, bind_eq_ok, hnone]
  constructor
  · rintro ⟨ordinals, u, hname, u', haddress, cpu, hcpu, memory, hmemory, -⟩
    exact ⟨hname, haddress, ⟨cpu, hcpu⟩, ⟨memory, hmemory⟩⟩
  · rintro ⟨hname, haddress, ⟨cpu, hcpu⟩, ⟨memory, hmemory⟩⟩
    exact ⟨_, (), hname, (), haddress, cpu, hcpu, memory, hmemory, rfl⟩

/-! ## The replicas of a service -/

/-- The length of a replica's name, in bytes. -/
def replicaNameSize (service : String) (i : ℕ) : ℕ :=
  service.utf8ByteSize + 1 + (toString i).utf8ByteSize

theorem utf8ByteSize_replicaName (service : String) (i : ℕ) :
    (replicaName service i).utf8ByteSize = replicaNameSize service i := by
  rw [replicaName, String.utf8ByteSize_append, String.utf8ByteSize_append, replicaNameSize]
  rfl

theorem wellSpelt_replicaName {service : String} (h : WellSpelt service.toList) (i : ℕ) :
    WellSpelt (replicaName service i).toList := by
  rw [replicaName, toList_join]
  exact h.join (wellSpelt_toString i)

/-- The volumes of a replica are valid when their names are short enough:
the template's are valid, and one replica's name before all of them keeps
them apart. -/
theorem validateVolumes_toJailSpec {t : JailTemplate} (hvolumes : validateVolumes t.volumes = .ok ())
    {name : String} (hname : WellSpelt name.toList) (cidr : String) :
    validateVolumes (t.toJailSpec name cidr).spec.volumes = .ok () ↔
      ∀ v ∈ t.volumes, name.utf8ByteSize + 1 + v.name.utf8ByteSize ≤ 63 := by
  rw [validateVolumes_ok_iff] at hvolumes
  obtain ⟨hvalid, hnodup⟩ := hvolumes
  have hspelt : ∀ v ∈ t.volumes, WellSpelt v.name.toList := fun v hv =>
    (validateName_ok_iff.1 (hvalid v hv).1).1
  have hrenamed : ((t.toJailSpec name cidr).spec.volumes.map VolumeMount.name).Nodup := by
    have hmap : (t.toJailSpec name cidr).spec.volumes.map VolumeMount.name =
        (t.volumes.map VolumeMount.name).map fun volume => name ++ "-" ++ volume := by
      simp [JailTemplate.toJailSpec]
    rw [hmap]
    refine hnodup.map fun a b hab => ?_
    have hlist := congrArg String.toList hab
    simp only [toList_join] at hlist
    exact String.toList_injective (List.cons_injective (List.append_cancel_left hlist))
  rw [validateVolumes_ok_iff]
  constructor
  · rintro ⟨hrenamedValid, -⟩ v hv
    have hmem : (⟨name ++ "-" ++ v.name, v.mountPath, v.size⟩ : VolumeMount) ∈
        (t.toJailSpec name cidr).spec.volumes := List.mem_map_of_mem hv
    exact (validateName_join hname (hspelt v hv)).1 (hrenamedValid _ hmem).1
  · intro hsize
    refine ⟨fun w hw => ?_, hrenamed⟩
    obtain ⟨v, hv, rfl⟩ := List.mem_map.1 hw
    exact ⟨(validateName_join hname (hspelt v hv)).2 (hsize v hv), (hvalid v hv).2⟩

/-- **An accepted service's replica is taken when its names are short
enough**, and only then: on any agent without a record of that name, with
any IPv4 address. -/
theorem replica_accepted_iff [Ipnet] {yaml : Except String ServiceSpec} {spec : ServiceSpec}
    (hspec : parseAndValidateService yaml = .ok spec) (i : ℕ) {cidr : String} {addr : BitVec 32}
    {len : ℕ} (hcidr : Ipnet.parse cidr = .ok (.v4 addr len)) (r : Reconciler)
    (hfresh : replicaName spec.metadata.name i ∉ r.records) :
    ((r.checkApply
          (spec.spec.template.toJailSpec (replicaName spec.metadata.name i) cidr)).isOk = true ∧
        validateVolumes (spec.spec.template.toJailSpec
          (replicaName spec.metadata.name i) cidr).spec.volumes = .ok ()) ↔
      replicaNameSize spec.metadata.name i ≤ 63 ∧
        ∀ v ∈ spec.spec.template.volumes,
          replicaNameSize spec.metadata.name i + 1 + v.name.utf8ByteSize ≤ 63 := by
  obtain ⟨hname, hcpu, hmemory, hvolumes⟩ := parseAndValidateService_ok hspec
  have hspelt := (validateName_ok_iff.1 hname).1
  have hreplica := wellSpelt_replicaName hspelt i
  have haddress : validateAddress cidr = .ok () := by
    rw [validateAddress, hcidr]
  rw [validateVolumes_toJailSpec hvolumes hreplica, utf8ByteSize_replicaName]
  refine and_congr_left fun _ => ?_
  rw [checkApply_fresh hfresh]
  constructor
  · rintro ⟨hvalid, -⟩
    rw [← utf8ByteSize_replicaName]
    exact (validateName_ok_iff.1 hvalid).2
  · intro hsize
    rw [← utf8ByteSize_replicaName] at hsize
    exact ⟨validateName_ok_iff.2 ⟨hreplica, hsize⟩, haddress, hcpu, hmemory⟩

namespace Admission

/-- A service of one replica with one volume. -/
def service (name : String) : ServiceSpec where
  apiVersion := "keel/v1"
  kind := "Service"
  metadata := ⟨name⟩
  spec :=
    { replicas := 1
      port := 80
      template :=
        { image := "base"
          command := ["app"]
          network := ⟨true, "keel0"⟩
          resources := ⟨"1", "256M"⟩
          restartPolicy := .always
          volumes := [⟨"data", "/data", "1G"⟩] } }

/-- A name as long as a service's may be. -/
def longName : String := String.ofList (List.replicate 63 'a')

end Admission

open Agent.Sample Admission in
theorem replica_accepted_web :
    ((Reconciler.new "tank" ∅).checkApply
        ((service "web").spec.template.toJailSpec (replicaName "web" 0) "10.0.9.2/24")).isOk = true ∧
      validateVolumes ((service "web").spec.template.toJailSpec
        (replicaName "web" 0) "10.0.9.2/24").spec.volumes = .ok () := by
  have hspec : parseAndValidateService (.ok (service "web")) = .ok (service "web") := by
    decide +kernel
  have hcidr : Ipnet.parse "10.0.9.2/24" = .ok (.v4 (Ipv4Addr.ofOctets 10 0 9 2) 24) := by
    decide +kernel
  refine (replica_accepted_iff hspec 0 hcidr (Reconciler.new "tank" ∅) (by decide +kernel)).2 ?_
  decide +kernel

open Agent.Sample Admission in
/-- The longest name a service may have leaves no room for an index: the
service is accepted, and every agent refuses its replica. -/
theorem longName_replica_refused :
    parseAndValidateService (.ok (service longName)) = .ok (service longName) ∧
      0 < (service longName).spec.replicas ∧
      Ipnet.parse "10.0.9.2/24" = .ok (.v4 (Ipv4Addr.ofOctets 10 0 9 2) 24) ∧
      ∀ r : Reconciler, r.checkApply
        ((service longName).spec.template.toJailSpec (replicaName longName 0) "10.0.9.2/24") =
          .error (.invalidName (replicaName longName 0)) := by
  refine ⟨by decide +kernel, by decide, by decide +kernel, fun r => ?_⟩
  have hname : validateName (replicaName longName 0) =
      .error (.invalidName (replicaName longName 0)) := by decide +kernel
  simp only [Reconciler.checkApply, JailTemplate.toJailSpec, hname, bind, Except.bind]

end Keel
