import Keel.Common.Twin
import Keel.Node.Helpers.Visits
/-!
# Two visits side by side

A visit to one jail, from two memories and on two machines that agree on
what there is of the jail: answered alike, it makes the same calls, comes
to the same end, and leaves the two agreeing on it. So a visit sees no
more of a machine than the jail's own plot. The bridge is no exception:
a visit asks for it before it attaches to it.
-/

namespace Keel

namespace Node

open Agent (JailRecord volumeDatasetPath)

variable {Text : Type}

/-! ## Calls -/

/-- A call whose answer is on a plot. -/
def Op.Sees (a : Plot) : {ρ : Type} → Op Text ρ → Prop
  | _, .create _ _ _ => True
  | _, .jailExists jail => jail ∈ a.jails
  | _, .startCommand jail _ => jail ∈ a.jails
  | _, .destroy jail => jail ∈ a.jails
  | _, .isRunning jail => jail ∈ a.jails
  | _, .setResourceLimits jail _ _ => jail ∈ a.jails
  | _, .removeResourceLimits jail => jail ∈ a.jails
  | _, .datasetExists dataset => dataset ∈ a.datasets
  | _, .cloneFromBase base _ => base ∈ a.datasets
  | _, .createVolume _ _ => True
  | _, .destroyDataset dataset => dataset ∈ a.datasets
  | _, .ensureBridgeExists _ => True
  | _, .detachJail _ => True
  | _, .ensureMountPoint _ => True
  | _, .mountNullfs _ _ => True
  | _, .unmount target => target ∈ a.targets
  | _, .isMounted target => target ∈ a.targets
  | _, _ => False

section Sees

variable {a : Plot} {w w' : Host Text}

/-- The same change to the jails of both machines. -/
theorem SameOn.setJails (h : SameOn a w w') {jails jails' : Table FakeJail}
    (hjails : ∀ jail ∈ a.jails, jails'.lookup jail = jails.lookup jail) :
    SameOn a { w with jails } { w' with jails := jails' } :=
  ⟨hjails, h.epairs, h.mounts, h.datasets, h.busy⟩

theorem SameOn.insertJail (h : SameOn a w w') (name : String) (jail : FakeJail) :
    SameOn a { w with jails := w.jails.insert name jail }
      { w' with jails := w'.jails.insert name jail } := by
  refine h.setJails fun jail' hjail' => ?_
  rw [Table.lookup_insert_eq, Table.lookup_insert_eq, h.jails jail' hjail']

/-- A change to a jail of the plot. -/
theorem SameOn.withJail (h : SameOn a w w') {jail : String} (hjail : jail ∈ a.jails)
    (f : FakeJail → FakeJail) :
    (w'.withJail jail f).1 = (w.withJail jail f).1 ∧
      SameOn a (w.withJail jail f).2 (w'.withJail jail f).2 := by
  rw [Host.withJail, Host.withJail, h.jails jail hjail]
  cases w.jails.lookup jail with
  | none => exact ⟨rfl, h⟩
  | some old => exact ⟨rfl, h.insertJail jail (f old)⟩

theorem SameOn.destroy (h : SameOn a w w') {jail : String} (hjail : jail ∈ a.jails) :
    (w'.destroy jail).1 = (w.destroy jail).1 ∧
      SameOn a (w.destroy jail).2 (w'.destroy jail).2 := by
  rw [Host.destroy, Host.destroy, h.jails jail hjail]
  cases w.jails.lookup jail with
  | none => exact ⟨rfl, h⟩
  | some old =>
    refine ⟨rfl, h.setJails fun jail' hjail' => ?_⟩
    rw [Table.lookup_erase_eq, Table.lookup_erase_eq, h.jails jail' hjail']

/-- The same change to the datasets. -/
theorem SameOn.setDatasets (h : SameOn a w w') {datasets datasets' : Finset String}
    (hdatasets : ∀ dataset ∈ a.datasets, (dataset ∈ datasets' ↔ dataset ∈ datasets)) :
    SameOn a { w with zfs := { w.zfs with datasets } }
      { w' with zfs := { w'.zfs with datasets := datasets' } } :=
  ⟨h.jails, h.epairs, h.mounts, hdatasets, h.busy⟩

theorem SameOn.insertDataset (h : SameOn a w w') (dataset : String) :
    SameOn a { w with zfs := { w.zfs with datasets := insert dataset w.zfs.datasets } }
      { w' with zfs := { w'.zfs with datasets := insert dataset w'.zfs.datasets } } := by
  refine h.setDatasets fun dataset' hdataset' => ?_
  rw [Finset.mem_insert, Finset.mem_insert, h.datasets dataset' hdataset']

theorem SameOn.cloneFromBase (h : SameOn a w w') {base : String} (hbase : base ∈ a.datasets)
    (target : String) :
    (w'.cloneFromBase base target).1 = (w.cloneFromBase base target).1 ∧
      SameOn a (w.cloneFromBase base target).2 (w'.cloneFromBase base target).2 := by
  rw [Host.cloneFromBase, Host.cloneFromBase, Agent.FakeZfsManager.cloneFromBase,
    Agent.FakeZfsManager.cloneFromBase]
  by_cases hmem : base ∈ w.zfs.datasets
  · rw [if_pos hmem, if_pos ((h.datasets base hbase).2 hmem)]
    have hsame := h.insertDataset target
    exact ⟨rfl, hsame.jails, hsame.epairs, hsame.mounts, hsame.datasets, hsame.busy⟩
  · rw [if_neg hmem, if_neg fun hmem' => hmem ((h.datasets base hbase).1 hmem')]
    exact ⟨rfl, h.jails, h.epairs, h.mounts, h.datasets, h.busy⟩

theorem SameOn.destroyDataset (h : SameOn a w w') {dataset : String}
    (hdataset : dataset ∈ a.datasets) :
    (w'.destroyDataset dataset).1 = (w.destroyDataset dataset).1 ∧
      SameOn a (w.destroyDataset dataset).2 (w'.destroyDataset dataset).2 := by
  rw [Host.destroyDataset, Host.destroyDataset, Agent.FakeZfsManager.destroyDataset,
    Agent.FakeZfsManager.destroyDataset, h.busy]
  by_cases hbusy : dataset ∈ w.zfs.busy
  · rw [if_pos hbusy, if_pos hbusy]
    exact ⟨rfl, h⟩
  rw [if_neg hbusy, if_neg hbusy]
  by_cases hmem : dataset ∈ w.zfs.datasets
  · rw [if_pos hmem, if_pos ((h.datasets dataset hdataset).2 hmem)]
    refine ⟨rfl, h.jails, h.epairs, h.mounts, fun dataset' hdataset' => ?_, rfl⟩
    change dataset' ∈ w'.zfs.datasets.erase dataset ↔ dataset' ∈ w.zfs.datasets.erase dataset
    rw [Finset.mem_erase, Finset.mem_erase, h.datasets dataset' hdataset']
  · rw [if_neg hmem, if_neg fun hmem' => hmem ((h.datasets dataset hdataset).1 hmem')]
    exact ⟨rfl, h⟩

theorem SameOn.unmount (h : SameOn a w w') {target : Path} (htarget : target ∈ a.targets) :
    (w'.unmount target).1 = (w.unmount target).1 ∧
      SameOn a (w.unmount target).2 (w'.unmount target).2 := by
  rw [Host.unmount, Host.unmount]
  by_cases hmem : target ∈ w.mounts
  · rw [if_pos hmem, if_pos ((h.mounts target htarget).2 hmem)]
    refine ⟨rfl, h.jails, h.epairs, fun target' htarget' => ?_, h.datasets, h.busy⟩
    change target' ∈ w'.mounts.erase target ↔ target' ∈ w.mounts.erase target
    rw [Finset.mem_erase, Finset.mem_erase, h.mounts target' htarget']
  · rw [if_neg hmem, if_neg fun hmem' => hmem ((h.mounts target htarget).1 hmem')]
    exact ⟨rfl, h⟩

/-- A call fails on both machines, or works on both. -/
theorem SameOn.unlessFails (h : SameOn a w w') {α ε : Type} (x : Outcome Text)
    (error : String → ε) {result result' : Except ε α × Host Text}
    (hresult : result'.1 = result.1 ∧ SameOn a result.2 result'.2) :
    (x.unlessFails w' error result').1 = (x.unlessFails w error result).1 ∧
      SameOn a (x.unlessFails w error result).2 (x.unlessFails w' error result').2 := by
  rw [Outcome.unlessFails, Outcome.unlessFails]
  cases x.fails with
  | some m => exact ⟨rfl, h⟩
  | none => exact hresult

/-- **One call**, on two machines that are the same on the plot it sees. -/
theorem Op.Sees.alike [Ipnet] {ρ : Type} {c : Op Text ρ} (hc : c.Sees a) (x : Outcome Text)
    (h : SameOn a w w') : (Host.call x c w').1 = (Host.call x c w).1 ∧
      SameOn a (Host.call x c w).2 (Host.call x c w').2 := by
  cases c with
  | create jail rootfs vnet => exact h.unlessFails x _ ⟨rfl, h.insertJail jail _⟩
  | jailExists jail =>
    refine h.unlessFails x _ ⟨?_, h⟩
    rw [h.jails jail hc]
  | startCommand jail command => exact h.unlessFails x _ (h.withJail hc _)
  | destroy jail => exact h.unlessFails x _ (h.destroy hc)
  | isRunning jail =>
    refine h.unlessFails x _ ⟨?_, h⟩
    rw [Host.isRunning, Host.isRunning, h.jails jail hc]
  | setResourceLimits jail pcpuPercent memoryBytes => exact h.unlessFails x _ (h.withJail hc _)
  | removeResourceLimits jail => exact h.unlessFails x _ (h.withJail hc _)
  | datasetExists dataset =>
    refine h.unlessFails x _ ⟨?_, h⟩
    rw [Agent.FakeZfsManager.datasetExists, Agent.FakeZfsManager.datasetExists]
    exact congrArg Except.ok (decide_eq_decide.2 (h.datasets dataset hc))
  | cloneFromBase base target => exact h.unlessFails x _ (h.cloneFromBase hc target)
  | createVolume dataset quota => exact h.unlessFails x _ ⟨rfl, h.insertDataset dataset⟩
  | destroyDataset dataset => exact h.unlessFails x _ (h.destroyDataset hc)
  | ensureBridgeExists bridge =>
    exact h.unlessFails x _ ⟨rfl, h.jails, h.epairs, h.mounts, h.datasets, h.busy⟩
  | detachJail epair =>
    refine h.unlessFails x _ ⟨rfl, h.jails, fun epair' hepair' => ?_, h.mounts, h.datasets, h.busy⟩
    change (w'.net.attachments.erase epair).lookup epair' =
      (w.net.attachments.erase epair).lookup epair'
    rw [Table.lookup_erase_eq, Table.lookup_erase_eq, h.epairs epair' hepair']
  | ensureMountPoint target => exact h.unlessFails x _ ⟨rfl, h⟩
  | mountNullfs source target =>
    refine h.unlessFails x _ ⟨rfl, h.jails, h.epairs, fun target' htarget' => ?_, h.datasets, h.busy⟩
    change target' ∈ insert target w'.mounts ↔ target' ∈ insert target w.mounts
    rw [Finset.mem_insert, Finset.mem_insert, h.mounts target' htarget']
  | unmount target => exact h.unlessFails x _ (h.unmount hc)
  | isMounted target =>
    refine h.unlessFails x _ ⟨?_, h⟩
    exact congrArg Except.ok (decide_eq_decide.2 (h.mounts target hc))
  | _ => exact hc.elim

end Sees

/-! ## What a visit asks -/

section Asks

variable {pool name : String} {record : JailRecord}

theorem sees_setLimits : (Reconciler.setLimits name record : Method Text Unit).Calls
    (Op.Sees (.around pool name record)) :=
  Proc.calls_bind (Proc.calls_ofExcept _ _) fun _ =>
    Proc.calls_bind (Proc.calls_ofExcept _ _) fun _ => Proc.calls_tryCall rfl

theorem sees_mountVolume {v : VolumeMount} (hv : v ∈ record.spec.spec.volumes) :
    (Reconciler.mountVolume pool (jailRootfsPath pool name) v : Method Text Unit).Calls
      (Op.Sees (.around pool name record)) := by
  refine Proc.calls_bind (Proc.calls_tryCall trivial) fun _ => Proc.calls_bind ?_ fun _ => ?_
  · refine Proc.calls_bind (Proc.calls_tryCall (Or.inr (Or.inr ⟨v, hv, rfl⟩))) fun _ => ?_
    exact Proc.calls_ite trivial (Proc.calls_tryCall trivial)
  · refine Proc.calls_bind (Proc.calls_tryCall ⟨v, hv, rfl⟩) fun _ => ?_
    exact Proc.calls_ite trivial (Proc.calls_tryCall trivial)

theorem sees_requireBaseImage : (Reconciler.requireBaseImage
    (baseDatasetPath pool record.spec.spec.image) : Method Text Unit).Calls
      (Op.Sees (.around pool name record)) :=
  Proc.calls_bind (Proc.calls_tryCall (Or.inr (Or.inl rfl))) fun _ =>
    Proc.calls_ite trivial trivial

theorem sees_rollbackProvision :
    (Reconciler.rollbackProvision pool name record : Method Text Unit).Calls
      (Op.Sees (.around pool name record)) := by
  refine Proc.calls_bind (Proc.calls_ask trivial) fun _ => ?_
  refine Proc.calls_bind (Proc.calls_ask rfl) fun _ => ?_
  refine Proc.calls_bind (Proc.calls_forEach fun v hv => ?_) fun _ => ?_
  · exact Proc.calls_bind (Proc.calls_ask ⟨v, hv, rfl⟩) fun _ => trivial
  refine Proc.calls_bind (Proc.calls_ask (Or.inl rfl)) fun _ => ?_
  exact Proc.calls_bind (Proc.calls_ask rfl) fun _ => trivial

theorem sees_chooseTask : (Reconciler.chooseTask name record : Method Text Task).Calls
    (Op.Sees (.around pool name record)) := by
  refine Proc.calls_bind (Proc.calls_tryCall rfl) fun _ => Proc.calls_ite ?_ trivial
  refine Proc.calls_bind (Proc.calls_tryCall rfl) fun _ => Proc.calls_ite trivial ?_
  exact Proc.calls_ite trivial trivial

end Asks

/-! ## Procedures -/

/-- Two memories with the same cooldown for a jail, and two machines that
are the same on a plot. -/
structure Abreast (a : Plot) (name : String) (r r' : Reconciler) (w w' : Host Text) : Prop where
  cooldown : r'.backoff.lookup name = r.backoff.lookup name
  same : SameOn a w w'

theorem Abreast.symm {a : Plot} {name : String} {r r' : Reconciler} {w w' : Host Text}
    (h : Abreast a name r r' w w') : Abreast a name r' r w' w :=
  ⟨h.cooldown.symm, h.same.symm⟩

theorem Abreast.trans {a : Plot} {name : String} {r r' r'' : Reconciler} {w w' w'' : Host Text}
    (h : Abreast a name r r' w w') (h' : Abreast a name r' r'' w' w'') :
    Abreast a name r r'' w w'' :=
  ⟨h'.cooldown.trans h.cooldown, h.same.trans h'.same⟩

section Procedures

variable [Ipnet] {a : Plot} {name : String} {r r' : Reconciler} {w w' : Host Text} {α β : Type}

/-- Two runs that end abreast. -/
abbrev Tandem (a : Plot) (name : String) (m : Method Text α) (r : Reconciler) (w : Host Text)
    (r' : Reconciler) (w' : Host Text) : Prop :=
  Proc.Twin Host.outside (fun _ => Abreast a name) m r w m r' w'

/-- A procedure that only asks what is on the plot. -/
theorem tandem_of_calls {m : Method Text α} (hm : m.Calls (Op.Sees a))
    (h : Abreast a name r r' w w') : Tandem a name m r w r' w' := by
  have htwin : Proc.Twin Host.outside (fun _ s s' w w' => s = r ∧ s' = r' ∧ SameOn a w w')
      m r w m r' w' := hm.twin (fun x c w w' hc hw => hc.alike x hw) r r' h.same
  refine htwin.mono ?_
  rintro _ s s' w w' ⟨rfl, rfl, hw⟩
  exact ⟨h.cooldown, hw⟩

/-- One after the other. -/
theorem Tandem.bind {m : Method Text α} {f : α → Method Text β} (h : Tandem a name m r w r' w')
    (hf : ∀ x s s' w w', Abreast a name s s' w w' → Tandem a name (f x) s w s' w') :
    Tandem a name (m.bind f) r w r' w' :=
  Proc.Twin.bind h (fun x _ _ _ _ hs => hf x _ _ _ _ hs) fun _ _ _ _ _ hs => hs

theorem Tandem.attempt {m : Method Text α} (h : Tandem a name m r w r' w') :
    Tandem a name (m.attempt : Method Text (Except ReconcileError α)) r w r' w' :=
  Proc.Twin.attempt h

/-- A bridge is there, then an epair is attached to it. -/
theorem tandem_attachJail {jail bridge epair address : String} (h : Abreast a name r r' w w')
    (hbridge : bridge ∈ w.net.bridges) (hbridge' : bridge ∈ w'.net.bridges) :
    Tandem a name (Reconciler.attachJail jail bridge epair address : Method Text Unit) r w r' w' := by
  refine .call fun x => ?_
  change Proc.Twin _ _ (Proc.bind (Proc.ofChecked (Host.call x _ w).1) _) r (Host.call x _ w).2
    (Proc.bind (Proc.ofChecked (Host.call x _ w').1) _) r' (Host.call x _ w').2
  rw [Host.call, Host.call]
  cases x.fails with
  | some m => exact .fail h
  | none =>
    dsimp only
    rw [Host.attachJail, Host.attachJail, if_pos hbridge, if_pos hbridge']
    cases bridgeGateway address with
    | error p => exact .panic
    | ok gateway =>
      refine .ret ⟨h.cooldown, h.same.jails, fun epair' hepair' => ?_, h.same.mounts,
        h.same.datasets, h.same.busy⟩
      change (w'.net.attachments.insert epair _).lookup epair' =
        (w.net.attachments.insert epair _).lookup epair'
      rw [Table.lookup_insert_eq, Table.lookup_insert_eq, h.same.epairs epair' hepair']

variable {pool : String} {record : JailRecord}

/-- **The network and the limits.** -/
theorem tandem_configure (h : Abreast (.around pool name record) name r r' w w') :
    Tandem (.around pool name record) name
      (Reconciler.configureNetworkingAndLimits name record : Method Text Unit) r w r' w' := by
  have hbridges : Proc.Twin Host.outside (fun result s s' w w' =>
      Abreast (.around pool name record) name s s' w w' ∧ (result = .ok () →
        record.spec.spec.network.bridge ∈ w.net.bridges ∧
        record.spec.spec.network.bridge ∈ w'.net.bridges))
      (Proc.tryCall ReconcileError.net
        (.ensureBridgeExists record.spec.spec.network.bridge) : Method Text Unit) r w
      (Proc.tryCall ReconcileError.net
        (.ensureBridgeExists record.spec.spec.network.bridge)) r' w' := by
    refine .call fun x => ?_
    change Proc.Twin _ _ (Proc.ofExcept _ (Host.call x _ w).1) r (Host.call x _ w).2
      (Proc.ofExcept _ (Host.call x _ w').1) r' (Host.call x _ w').2
    rw [Host.call, Host.call, Outcome.unlessFails, Outcome.unlessFails]
    cases x.fails with
    | some m => exact .fail ⟨h, fun he => by cases he⟩
    | none =>
      refine .ret ⟨⟨h.cooldown, h.same.jails, h.same.epairs, h.same.mounts, h.same.datasets,
        h.same.busy⟩, fun _ => ⟨?_, ?_⟩⟩
      · exact Finset.mem_insert_self _ _
      · exact Finset.mem_insert_self _ _
  refine Proc.Twin.bind hbridges ?_ fun e s s' w w' hs => hs.1
  rintro u s s' w w' ⟨hs, hthere⟩
  obtain ⟨hbridge, hbridge'⟩ := hthere rfl
  exact (tandem_attachJail hs hbridge hbridge').bind fun _ _ _ _ _ hs =>
    tandem_of_calls sees_setLimits hs

theorem tandem_restart (h : Abreast (.around pool name record) name r r' w w') :
    Tandem (.around pool name record) name
      (Reconciler.restart name record : Method Text Unit) r w r' w' :=
  (tandem_configure h).bind fun _ _ _ _ _ hs => tandem_of_calls (Proc.calls_tryCall rfl) hs

/-- **A provisioning.** -/
theorem tandem_provision (h : Abreast (.around pool name record) name r r' w w') :
    Tandem (.around pool name record) name
      (Reconciler.provision pool name record : Method Text Unit) r w r' w' := by
  refine (tandem_of_calls sees_requireBaseImage h).bind fun _ _ _ _ _ h => ?_
  refine Tandem.bind (tandem_of_calls (Proc.calls_tryCall ?_) h) fun _ _ _ _ _ h => ?_
  · exact Or.inr (Or.inl rfl)
  refine Tandem.bind (tandem_of_calls (Proc.calls_tryCall ?_) h) fun _ _ _ _ _ h => ?_
  · trivial
  refine (tandem_of_calls (Proc.calls_forEach fun v hv => sees_mountVolume hv) h).bind
    fun _ _ _ _ _ h => ?_
  exact tandem_restart h

/-- The cooldown is looked at in both memories. -/
theorem tandem_checkCooldown (h : Abreast a name r r' w w') (now : ℕ) :
    Tandem a name (Reconciler.checkCooldown name now : Method Text Bool) r w r' w' := by
  have hcooldown := h.cooldown
  refine .left (.right ?_)
  cases hb : r.backoff.lookup name with
  | some b =>
    rw [hb] at hcooldown
    rw [hcooldown]
    exact .ret h
  | none =>
    rw [hb] at hcooldown
    rw [hcooldown]
    refine .ret ⟨?_, h.same⟩
    change (r'.backoff.insert name _).lookup name = (r.backoff.insert name _).lookup name
    rw [AList.lookup_insert, AList.lookup_insert]

theorem tandem_recordAttempt (h : Abreast a name r r' w w') (now : ℕ) :
    Tandem a name (Reconciler.recordAttempt name now : Method Text Unit) r w r' w' := by
  refine .get_bind ?_
  rw [h.cooldown]
  cases hb : r.backoff.lookup name with
  | none => exact .panic
  | some b =>
    refine .left (.right (.ret ⟨?_, h.same⟩))
    change (r'.backoff.insert name _).lookup name = (r.backoff.insert name _).lookup name
    rw [AList.lookup_insert, AList.lookup_insert]

theorem tandem_perform (h : Abreast (.around pool name record) name r r' w w') (task : Task)
    (now : ℕ) : Tandem (.around pool name record) name
      (task.perform pool name record now : Method Text Unit) r w r' w' := by
  cases task with
  | provision =>
    refine (tandem_provision h).attempt.bind fun result _ _ _ _ h => ?_
    refine (tandem_recordAttempt h now).bind fun _ _ _ _ _ h => ?_
    cases result with
    | ok u => exact .ret h
    | error e => exact (tandem_of_calls sees_rollbackProvision h).bind fun _ _ _ _ _ h => .fail h
  | restart =>
    refine (tandem_restart h).attempt.bind fun result _ _ _ _ h => ?_
    refine (tandem_recordAttempt h now).bind fun _ _ _ _ _ h => ?_
    exact tandem_of_calls (Proc.calls_ofExcept _ _) h
  | limit => exact tandem_of_calls sees_setLimits h
  | leave => exact .ret h

/-- **A visit.** -/
theorem tandem_reconcileOne (hpool : r.pool = pool) (hpool' : r'.pool = pool)
    (hrecord : r.records.lookup name = some record)
    (hrecord' : r'.records.lookup name = some record)
    (h : Abreast (.around pool name record) name r r' w w') (now : ℕ) :
    Tandem (.around pool name record) name
      (Reconciler.reconcileOne name now : Method Text Unit) r w r' w' := by
  refine .get_bind ?_
  rw [hrecord, hrecord']
  change Proc.Twin _ _ (Reconciler.reconcileRecord r.pool name record now) r w
    (Reconciler.reconcileRecord r'.pool name record now) r' w'
  rw [hpool, hpool', Reconciler.reconcileRecord_eq]
  have hvisit : Tandem (.around pool name record) name
      (Reconciler.visitTask name record now : Method Text Task) r w r' w' := by
    refine (tandem_checkCooldown h now).bind fun ready s s' w w' h => ?_
    cases ready with
    | true => exact tandem_of_calls sees_chooseTask h
    | false => exact .ret h
  exact hvisit.bind fun task _ _ _ _ h => tandem_perform h task now

end Procedures

end Node

end Keel
