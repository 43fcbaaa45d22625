import Keel.Common.Result
import Keel.ControlPlane.Model.Args
import Keel.ControlPlane.Model.Checked
import Keel.ControlPlane.Model.Run
import Keel.ControlPlane.Helpers.Indices
import Keel.ControlPlane.Subnets
import Keel.ControlPlane.Vips
import Keel.Agent.Model.Reconciler
/-!
# What stops the worker

The worker with its panics does what the worker does, command by command,
as long as it does not panic; and it panics at two places only. A service
network of prefix zero has more addresses than 32 bits can count, which
the creation of any service finds out; and a service with every index
present is taken for one with none, so that the search for a missing one
runs off the end. Every other command goes through, whatever it is sent.
-/

namespace Keel

namespace ControlPlane

open Keel.Checked

/-! ## The allocators -/

/-- **No panic in the pod network of a node**, once the cluster network
has room for a block. -/
theorem checked_derivePodCidr {cidr : Ipv4Net} (hcidr : cidr.prefixLen ≤ podPrefixLen)
    (id : String) : Checked.derivePodCidr id cidr = .ok (derivePodCidr id cidr) := by
  have hoffset := podOffset_lt hcidr id
  have hfits := cidr.network_add_size_le
  have hlen : podPrefixLen = 24 := rfl
  rw [hlen] at hoffset hcidr
  have hcount : 24 - cidr.prefixLen < 32 := by omega
  have hpos := Nat.two_pow_pos (24 - cidr.prefixLen)
  simp only [Checked.derivePodCidr, bind_eq_ok, hlen]
  refine ⟨(), ensure_of hcidr _, _, sub_of_le hcidr, _, shl_of_lt hcount, _, rem_of_pos hpos, _,
    sub_of_le (by decide), _, shl_of_lt (by decide), _, mul_of_lt (by omega), _,
    add_of_lt (by omega), ?_⟩
  simp only [expect, Checked.ipv4Net, derivePodCidr, hlen]
  rw [dif_pos (by decide), BitVec.ofNat_add, BitVec.ofNat_toNat, BitVec.setWidth_eq]

/-- Nor in a candidate for a virtual address, if the service network has a
prefix. -/
theorem checked_deriveServiceVip {cidr : Ipv4Net} (hcidr : 0 < cidr.prefixLen) (name : String)
    (attempt : ℕ) :
    Checked.deriveServiceVip name cidr attempt = .ok (deriveServiceVip name cidr attempt) := by
  have hfits := cidr.network_add_size_le
  have hle := cidr.prefixLen_le
  have hpos := Nat.two_pow_pos (32 - cidr.prefixLen)
  have hindex := Nat.mod_lt (fnv1a (utf8 name) + BitVec.ofNat 32 attempt).toNat hpos
  rw [Ipv4Net.size] at hfits
  simp only [Checked.deriveServiceVip, bind_eq_ok]
  refine ⟨(), ensure_of hcidr _, _, sub_of_le hle, _, shl_of_lt (by omega), _, rem_of_pos hpos, _,
    add_of_lt (by omega), ?_⟩
  simp only [pure, Except.pure, deriveServiceVip]
  rw [BitVec.ofNat_add, BitVec.ofNat_toNat, BitVec.setWidth_eq]

theorem checked_probeVip {cidr : Ipv4Net} (hcidr : 0 < cidr.prefixLen) (name : String)
    (taken : List Ipv4Addr) : ∀ left attempt,
      Checked.probeVip name cidr taken left attempt =
        .ok (Services.probeVip name cidr taken left attempt) := by
  intro left
  induction left with
  | zero => intro attempt; rfl
  | succ left ih =>
    intro attempt
    have hstep : Checked.probeVip name cidr taken (left + 1) attempt = (do
        let addr ← Checked.deriveServiceVip name cidr attempt
        if addr ∈ taken then Checked.probeVip name cidr taken left (attempt + 1)
        else return some addr) := rfl
    rw [hstep, checked_deriveServiceVip hcidr]
    simp only [bind, Except.bind, Services.probeVip]
    split
    · exact ih (attempt + 1)
    · rfl

/-- **`Services::apply` panics on a new name in a network without a
prefix**, and never else. -/
theorem checked_apply {s : Services} {name : String}
    (h : 0 < s.serviceCidr.prefixLen ∨ (s.get name).isSome = true) (replicas : ℕ)
    (template : JailTemplate) (port : ℕ) :
    Checked.apply s name replicas template port = .ok (s.apply name replicas template port) := by
  cases hget : s.byName.lookup name with
  | some existing =>
    simp only [Checked.apply, Services.apply, hget]
    split
    · rfl
    split <;> rfl
  | none =>
    have hcidr : 0 < s.serviceCidr.prefixLen := by
      refine h.resolve_right fun hsome => ?_
      rw [Services.get, hget] at hsome
      cases hsome
    have hle := s.serviceCidr.prefixLen_le
    simp only [Checked.apply, Services.apply, hget, sub_of_le hle,
      shl_of_lt (show 32 - s.serviceCidr.prefixLen < 32 by omega), checked_probeVip hcidr, bind,
      Except.bind]
    cases Services.probeVip name s.serviceCidr (s.byName.entries.map fun e => e.2.vip)
      (2 ^ (32 - s.serviceCidr.prefixLen)) 0 with
    | none => rfl
    | some vip => rfl

theorem checked_apply_overflow {s : Services} {name : String}
    (hcidr : s.serviceCidr.prefixLen = 0) (hnew : s.get name = none) (replicas : ℕ)
    (template : JailTemplate) (port : ℕ) :
    Checked.apply s name replicas template port = .error .overflow := by
  rw [Services.get] at hnew
  simp only [Checked.apply, hnew, hcidr]
  rfl

/-! ## The missing indices -/

/-- The search comes to an end when there are as many missing indices as
it is asked for short of the last one, and runs off the end otherwise. -/
theorem checked_leastMissing (h : Finset ℕ) : ∀ left i count : ℕ,
    Checked.leastMissing h left i count =
      if count ≤ ((List.range' i left).filter (· ∉ h)).length then
        .ok (((List.range' i left).filter (· ∉ h)).take count)
      else .error .overflow := by
  intro left
  induction left with
  | zero =>
    intro i count
    cases count with
    | zero => simp [Checked.leastMissing]
    | succ count => simp [Checked.leastMissing]
  | succ left ih =>
    intro i count
    rw [List.range'_succ]
    cases count with
    | zero => simp [Checked.leastMissing]
    | succ count =>
      by_cases hi : i ∈ h
      · rw [Checked.leastMissing, if_pos hi, ih, List.filter_cons_of_neg (by simpa using hi)]
      · rw [Checked.leastMissing, if_neg hi, ih, List.filter_cons_of_pos (by simpa using hi),
          List.length_cons, List.take_succ_cons]
        by_cases hle : count ≤ ((List.range' (i + 1) left).filter (· ∉ h)).length
        · rw [if_pos hle, if_pos (by omega)]
          rfl
        · rw [if_neg hle, if_neg (by omega)]
          rfl

/-- Short of the last index, at least as many are missing as the present
ones leave. -/
theorem le_length_missing (h : Finset ℕ) :
    2 ^ 32 - 1 - h.card ≤ ((List.range' 0 (2 ^ 32 - 1)).filter (· ∉ h)).length := by
  rw [length_missing]
  have hcard := Finset.le_card_sdiff h (Finset.range (2 ^ 32 - 1))
  rwa [Finset.card_range] at hcard

/-- **The search for missing indices ends**, unless every index is
present and one is wanted. -/
theorem checked_diffReplicas {desired : ℕ} {h : Finset ℕ} (hdesired : desired < 2 ^ 32)
    (hh : ∀ i ∈ h, i < 2 ^ 32) (hfits : 0 < desired → h.card ≠ 2 ^ 32) :
    Checked.diffReplicas desired h = .ok (diffReplicas desired h) := by
  have hcard : h.card ≤ 2 ^ 32 := by
    have hle := Finset.card_le_card fun i hi => Finset.mem_range.2 (hh i hi)
    rwa [Finset.card_range] at hle
  have hmissing := le_length_missing h
  have hrange : List.range' 0 (2 ^ 32) = List.range' 0 (2 ^ 32 - 1) ++ [2 ^ 32 - 1] := by
    rw [show 2 ^ 32 = 2 ^ 32 - 1 + 1 by rfl, List.range'_concat]
    rfl
  simp only [Checked.diffReplicas, diffReplicas]
  by_cases hlt : h.card % 2 ^ 32 < desired
  · have hmod : h.card % 2 ^ 32 = h.card := Nat.mod_eq_of_lt (by have := hfits (by omega); omega)
    rw [hmod] at hlt ⊢
    have henough : desired - h.card ≤ ((List.range' 0 (2 ^ 32 - 1)).filter (· ∉ h)).length := by
      omega
    rw [if_pos hlt, if_pos hlt, sub_of_le hlt.le, leastMissing_eq, hrange, List.filter_append,
      List.take_append_of_le_length henough]
    simp only [bind, Except.bind, checked_leastMissing, if_pos henough]
    rfl
  · rw [if_neg hlt, if_neg hlt]
    by_cases hgt : h.card % 2 ^ 32 > desired
    · rw [if_pos hgt, if_pos hgt, sub_of_le hgt.le]
      rfl
    · rw [if_neg hgt, if_neg hgt]
      rfl

theorem checked_diffReplicas_overflow {desired : ℕ} {h : Finset ℕ} (hdesired : 0 < desired)
    (hh : ∀ i ∈ h, i < 2 ^ 32) (hfull : h.card = 2 ^ 32) :
    Checked.diffReplicas desired h = .error .overflow := by
  have hnone : (List.range' 0 (2 ^ 32 - 1)).filter (· ∉ h) = [] := by
    have hrange : h = Finset.range (2 ^ 32) := by
      refine Finset.eq_of_subset_of_card_le (fun i hi => Finset.mem_range.2 (hh i hi)) ?_
      rw [Finset.card_range, hfull]
    refine List.filter_eq_nil_iff.2 fun i hi => ?_
    obtain ⟨k, hk, rfl⟩ := List.mem_range'.1 hi
    rw [hrange]
    simp only [decide_eq_true_eq, not_not, Finset.mem_range]
    omega
  rw [Checked.diffReplicas, hfull, Nat.mod_self, if_pos hdesired, sub_of_le (Nat.zero_le _)]
  simp only [bind, Except.bind, checked_leastMissing, hnone, List.length_nil]
  rw [if_neg (by omega)]

/-! ## Commands -/

/-- The numbers a command carries are of their types. -/
def Command.WellTyped : {ρ : Type} → Command ρ → Prop
  | _, .applyService _ replicas _ port => replicas < 2 ^ 32 ∧ port < 2 ^ 16
  | _, _ => True

/-- **Where a command does not reach a panic**: no service is created in a
network without a prefix, and no service that wants replicas has every
index present. -/
def Worker.Sound (w : Worker) (now : Instant) : {ρ : Type} → Command ρ → Prop
  | _, .applyService name replicas _ _ =>
    0 < w.services.serviceCidr.prefixLen ∨ (w.nameConflict name replicas).isSome = true ∨
      (w.services.get name).isSome = true
  | _, .reconcileServices => ∀ s record, w.services.get s = some record →
    0 < record.desiredReplicas → (w.presentIndices now s record).card ≠ 2 ^ 32
  | _, _ => True

/-- What every command keeps: room for a block, and numbers of their
types. -/
structure Worker.Typed (w : Worker) : Prop where
  cluster : w.registry.clusterCidr.prefixLen ≤ podPrefixLen
  desired : ∀ s record, w.services.get s = some record → record.desiredReplicas < 2 ^ 32

section Commands

variable {w : Worker} {now : Instant} {ord : IterOrder}

theorem checked_planServices (services : List (String × ServiceRecord))
    (hdesired : ∀ p ∈ services, p.2.desiredReplicas < 2 ^ 32)
    (hfits : ∀ p ∈ services, 0 < p.2.desiredReplicas →
      (w.presentIndices now p.1 p.2).card ≠ 2 ^ 32) (p : Worker.Plan) :
    Checked.planServices w now p services = .ok (services.foldl (w.planService now) p) := by
  induction services generalizing p with
  | nil => rfl
  | cons service services ih =>
    have hdiff := checked_diffReplicas (hdesired service List.mem_cons_self)
      (fun i hi => (mem_presentIndices_iff.1 hi).1) (hfits service List.mem_cons_self)
    simp only [Checked.planServices, Checked.planService, hdiff, bind, Except.bind, pure,
      Except.pure]
    exact ih (fun p hp => hdesired p (List.mem_cons_of_mem _ hp))
      (fun p hp => hfits p (List.mem_cons_of_mem _ hp)) _

/-- The pass stops at the first service it cannot count. -/
theorem checked_planServices_overflow {services : List (String × ServiceRecord)}
    (hdesired : ∀ p ∈ services, p.2.desiredReplicas < 2 ^ 32) {service : String × ServiceRecord}
    (hservice : service ∈ services) (hwanted : 0 < service.2.desiredReplicas)
    (hfull : (w.presentIndices now service.1 service.2).card = 2 ^ 32) (p : Worker.Plan) :
    Checked.planServices w now p services = .error .overflow := by
  induction services generalizing p with
  | nil => cases hservice
  | cons first services ih =>
    have hbound : ∀ i ∈ w.presentIndices now first.1 first.2, i < 2 ^ 32 := fun i hi =>
      (mem_presentIndices_iff.1 hi).1
    by_cases hfirst : 0 < first.2.desiredReplicas ∧
        (w.presentIndices now first.1 first.2).card = 2 ^ 32
    · have hdiff := checked_diffReplicas_overflow hfirst.1 hbound hfirst.2
      simp only [Checked.planServices, Checked.planService, hdiff, bind, Except.bind]
    · have hne : service ≠ first := by
        rintro rfl
        exact hfirst ⟨hwanted, hfull⟩
      have hdiff := checked_diffReplicas (hdesired first List.mem_cons_self) hbound
        fun hpos hcard => hfirst ⟨hpos, hcard⟩
      simp only [Checked.planServices, Checked.planService, hdiff, bind, Except.bind, pure,
        Except.pure]
      exact ih (fun p hp => hdesired p (List.mem_cons_of_mem _ hp))
        ((List.mem_cons.1 hservice).resolve_left hne) _

/-- **A sound command does what it does**, and no panic comes of it. -/
theorem checked_handleCommand (hw : w.Typed) {ρ : Type} {c : Command ρ} (hc : w.Sound now c) :
    Checked.handleCommand now ord c w = .ok (Worker.handleCommand now ord c w) := by
  cases c with
  | register id =>
    simp only [Checked.handleCommand, checked_derivePodCidr hw.cluster, bind, Except.bind, pure,
      Except.pure]
  | applyService name replicas template port =>
    simp only [Checked.handleCommand, Worker.handleCommand, Worker.applyService]
    cases hconflict : w.nameConflict name replicas with
    | some e => rfl
    | none =>
      have hnew : 0 < w.services.serviceCidr.prefixLen ∨ (w.services.get name).isSome = true := by
        rcases hc with hcidr | hconflict' | hsome
        · exact Or.inl hcidr
        · rw [hconflict] at hconflict'
          cases hconflict'
        · exact Or.inr hsome
      simp only [checked_apply hnew, bind, Except.bind, pure, Except.pure]
  | reconcileServices =>
    have hplan := checked_planServices w.services.list
      (fun p hp => hw.desired p.1 p.2 (mem_services_list.1 hp))
      (fun p hp => hc p.1 p.2 (mem_services_list.1 hp)) ⟨[], w.usedAddresses, ∅⟩
    simp only [Checked.handleCommand, Checked.reconcileServices, hplan, bind, Except.bind, pure,
      Except.pure, Worker.handleCommand, Worker.reconcileServices]
  | _ => rfl

/-- **An unsound one panics.** -/
theorem checked_handleCommand_overflow (hw : w.Typed) {ρ : Type} {c : Command ρ}
    (hc : ¬ w.Sound now c) : Checked.handleCommand now ord c w = .error .overflow := by
  cases c with
  | applyService name replicas template port =>
    simp only [Worker.Sound, not_or, Bool.not_eq_true, Nat.not_lt, Nat.le_zero] at hc
    obtain ⟨hcidr, hconflict, hnew⟩ := hc
    rw [Option.isSome_eq_false_iff, Option.isNone_iff_eq_none] at hconflict hnew
    simp only [Checked.handleCommand, hconflict, checked_apply_overflow hcidr hnew, bind,
      Except.bind]
  | reconcileServices =>
    simp only [Worker.Sound, not_forall, not_not] at hc
    obtain ⟨s, record, hget, hwanted, hfull⟩ := hc
    have hplan := checked_planServices_overflow
      (fun p hp => hw.desired p.1 p.2 (mem_services_list.1 hp)) (mem_services_list.2 hget) hwanted
      hfull ⟨[], w.usedAddresses, ∅⟩
    simp only [Checked.handleCommand, Checked.reconcileServices, hplan, bind, Except.bind]
  | _ => exact absurd trivial hc

/-- A command keeps the cluster network. -/
theorem clusterCidr_handleCommand {ρ : Type} (c : Command ρ) :
    (Worker.handleCommand now ord c w).2.registry.clusterCidr = w.registry.clusterCidr := by
  cases c with
  | register id addr replicateAddr capacityCpu capacityMemory =>
    simp only [Worker.handleCommand]
    rcases Registry.register_cases w.registry id addr replicateAddr capacityCpu capacityMemory now
      with ⟨e, heq, -⟩ | ⟨record, -, -, heq⟩
    · rw [heq]
    · rw [heq]
  | heartbeat id committedCpu committedMemory jails =>
    exact Registry.clusterCidr_heartbeat w.registry id committedCpu committedMemory jails now
  | applyService name replicas template port =>
    simp only [Worker.handleCommand, Worker.applyService]
    split <;> rfl
  | deleteService name =>
    simp only [Worker.handleCommand, Worker.deleteService]
    split <;> rfl
  | _ => rfl

/-- And every number within its type. -/
theorem Worker.Typed.handleCommand (hw : w.Typed) {ρ : Type} {c : Command ρ} (hc : c.WellTyped) :
    (Worker.handleCommand now ord c w).2.Typed where
  cluster := by
    rw [clusterCidr_handleCommand]
    exact hw.cluster
  desired s record hget := by
    cases c with
    | applyService name replicas template port =>
      simp only [Worker.handleCommand, Worker.applyService] at hget
      split at hget
      · exact hw.desired s record hget
      rcases Services.apply_cases w.services name replicas template port with
        ⟨e, heq⟩ | ⟨_, _, _, _, heq⟩ | ⟨_, _, _, _, _, heq⟩
      · rw [heq] at hget
        exact hw.desired s record hget
      · rw [heq] at hget
        simp only [Services.get_insert] at hget
        split at hget
        · cases hget
          exact hc.1
        · exact hw.desired s record hget
      · rw [heq] at hget
        simp only [Services.get_insert] at hget
        split at hget
        · cases hget
          exact hc.1
        · exact hw.desired s record hget
    | deleteService name =>
      simp only [Worker.handleCommand, Worker.deleteService] at hget
      split at hget
      · exact hw.desired s record hget
      · simp only [Services.get_remove] at hget
        split at hget
        · cases hget
        · exact hw.desired s record hget
    | _ => exact hw.desired s record hget

end Commands

/-! ## Runs -/

/-- Every command of a run meets tables it does not panic on. -/
def Worker.SoundRun (w : Worker) : List Received → Prop
  | [] => True
  | c :: commands => w.Sound c.now c.command ∧ (c.after w).SoundRun commands

/-- **A run panics exactly where it is not sound.** -/
theorem checked_afterAll {w : Worker} (hw : w.Typed) {commands : List Received}
    (htyped : ∀ c ∈ commands, c.command.WellTyped) :
    (Checked.afterAll w commands).isOk = true ↔ w.SoundRun commands := by
  induction commands generalizing w with
  | nil => simp [Checked.afterAll, Worker.SoundRun, Except.isOk, Except.toBool]
  | cons c commands ih =>
    have hc := htyped c List.mem_cons_self
    have hafter : (Worker.handleCommand c.now c.order c.command w).2.Typed := hw.handleCommand hc
    have hrest := ih hafter fun c' hc' => htyped c' (List.mem_cons_of_mem _ hc')
    by_cases hsound : w.Sound c.now c.command
    · simp only [Checked.afterAll, checked_handleCommand hw hsound, bind, Except.bind,
        Worker.SoundRun, hsound, true_and]
      exact hrest
    · simp only [Checked.afterAll, checked_handleCommand_overflow hw hsound, bind, Except.bind,
        Worker.SoundRun, hsound, false_and]
      exact iff_of_false (by simp [Except.isOk, Except.toBool]) not_false

/-- **When the control plane's worker never panics.** For every command
line that is accepted and every sequence of commands, with any strings
and any numbers of their types: when no command creates a service in a
network without a prefix, and none plans for a service that wants
replicas and has every index present. -/
theorem worker_panic_free_iff [Ipnet] {args : List String} {config : Config}
    (hargs : parseArgsFrom args = .ok config) :
    ∃ clusterCidr serviceCidr, config.clusterCidr = some clusterCidr ∧
      config.serviceCidr = some serviceCidr ∧
      ∀ commands : List Received, (∀ c ∈ commands, c.command.WellTyped) →
        ((Checked.afterAll (Worker.spawn clusterCidr serviceCidr) commands).isOk = true ↔
          (Worker.spawn clusterCidr serviceCidr).SoundRun commands) := by
  obtain ⟨clusterCidr, serviceCidr, hcluster, hservice, hle⟩ := parseArgsFrom_ok hargs
  refine ⟨clusterCidr, serviceCidr, hcluster, hservice, fun commands htyped => ?_⟩
  refine checked_afterAll ⟨hle, fun s record hget => ?_⟩ htyped
  simp [Worker.spawn, Services.get, Services.new] at hget

namespace Sample

/-- A command line with these two networks. -/
def args (clusterCidr serviceCidr : String) : List String :=
  ["--cluster-cidr", clusterCidr, "--service-cidr", serviceCidr, "--tls-ca-file", "ca.pem",
    "--tls-cert-file", "cert.pem", "--tls-key-file", "key.pem", "--tls-crl-file", "crl.pem"]

/-- A node registers, and a service is applied. -/
def webApplied : List Received :=
  [⟨0, .listed, .register "a" "a:7621" none 4 1024⟩,
    ⟨second, .listed, .applyService "web" 1 (template []) 80⟩]

end Sample

open Sample Agent.Sample in
theorem worker_panic_free_sample :
    ∃ clusterCidr serviceCidr,
      (Checked.afterAll (Worker.spawn clusterCidr serviceCidr) webApplied).isOk = true := by
  obtain ⟨config, hconfig⟩ := isOk_iff_exists.1
    (show (parseArgsFrom (args "10.0.0.0/16" "10.1.0.0/24")).isOk = true by decide +kernel)
  obtain ⟨clusterCidr, serviceCidr, -, hservice, hiff⟩ := worker_panic_free_iff hconfig
  refine ⟨clusterCidr, serviceCidr, (hiff webApplied ?_).2 ⟨trivial, Or.inl ?_, trivial⟩⟩
  · simp [webApplied, Command.WellTyped]
  · have hlen : ∀ config ∈ (parseArgsFrom (args "10.0.0.0/16" "10.1.0.0/24")).toOption,
        ∀ cidr ∈ config.serviceCidr, 0 < cidr.prefixLen := by decide +kernel
    exact hlen config (by rw [hconfig]; rfl) serviceCidr hservice

open Sample Agent.Sample in
/-- **A service network of prefix zero is accepted, and the first service
stops the worker.** -/
theorem worker_panics_on_empty_prefix :
    ∃ config, parseArgsFrom (args "10.0.0.0/16" "0.0.0.0/0") = .ok config ∧
      ∀ clusterCidr ∈ config.clusterCidr, ∀ serviceCidr ∈ config.serviceCidr,
        (Checked.afterAll (Worker.spawn clusterCidr serviceCidr)
          [⟨0, .listed, .applyService "web" 1 (template []) 80⟩]).isOk = false := by
  have hpanics : ∀ config ∈ (parseArgsFrom (args "10.0.0.0/16" "0.0.0.0/0")).toOption,
      ∀ clusterCidr ∈ config.clusterCidr, ∀ serviceCidr ∈ config.serviceCidr,
        (Checked.afterAll (Worker.spawn clusterCidr serviceCidr)
          [⟨0, .listed, .applyService "web" 1 (template []) 80⟩]).isOk = false := by
    decide +kernel
  obtain ⟨config, hconfig⟩ := isOk_iff_exists.1
    (show (parseArgsFrom (args "10.0.0.0/16" "0.0.0.0/0")).isOk = true by decide +kernel)
  exact ⟨config, hconfig, hpanics config (by rw [hconfig]; rfl)⟩

end ControlPlane

end Keel
