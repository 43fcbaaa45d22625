import Mathlib.Data.Set.Basic
import Keel.ControlPlane.Model.Run
import Keel.Agent.Loops
import Keel.Cluster.Admission
/-!
# The volumes of a service's replicas

A replica's volume is named `<service>-<index>-<volume>`, and names are
never taken apart again. Two volumes come to one name exactly when one
service is named for a replica of the other and a volume of the other's
template makes up the difference (`Shadows`); within a service it cannot
happen.

A replica's loop and the standby's listener both make the dataset's name
of the replica's and `data`, whatever the template calls its volumes. So
what is replicated is what is declared for one kind of template: the one
with a single volume named `data`.
-/

namespace Keel

open ControlPlane (replicaName toList_replicaName cidrOf replicaSpec)
open Agent (volumeDatasetPath FakeZfsManager ReplicationLoop Listener Thread Session SendStream)

/-! ## When two volumes have one name -/

/-- The second service is named for replica `index` of the first, or for
that and something more; and the first's volume is named for the
difference, the second's index and the second's volume. -/
def Shadows (service : String) (index : ℕ) (volume service' : String) (index' : ℕ)
    (volume' : String) : Prop :=
  (service' = replicaName service index ∧ volume = toString index' ++ "-" ++ volume') ∨
    ∃ more, service' = replicaName service index ++ "-" ++ more ∧
      volume = more ++ "-" ++ toString index' ++ "-" ++ volume'

/-- A replica's name that goes on from another's. -/
theorem shadows_iff {service service' volume volume' : String} {index index' : ℕ} :
    Shadows service index volume service' index' volume' ↔
      ∃ z, replicaName service' index' = replicaName service index ++ "-" ++ z ∧
        volume = z ++ "-" ++ volume' := by
  constructor
  · rintro (⟨rfl, rfl⟩ | ⟨more, rfl, rfl⟩)
    · exact ⟨toString index', rfl, rfl⟩
    · refine ⟨more ++ "-" ++ toString index', ?_, rfl⟩
      rw [replicaName]
      simp only [String.append_assoc]
  · rintro ⟨z, hname, rfl⟩
    rw [replicaName, join_eq_join_iff] at hname
    rcases hname with ⟨rfl, rfl⟩ | ⟨more, -, hindex⟩ | ⟨more, rfl, rfl⟩
    · exact Or.inl ⟨rfl, rfl⟩
    · exact absurd hindex (toString_ne_join _ _ _)
    · exact Or.inr ⟨more, rfl, rfl⟩

/-- A service does not shadow itself. -/
theorem not_shadows_self (service : String) (index index' : ℕ) (volume volume' : String) :
    ¬ Shadows service index volume service index' volume' := by
  -- It would have to be longer than it is.
  have hlength : ∀ more : String,
      service.toList.length < (replicaName service index ++ more).toList.length := by
    intro more
    rw [String.toList_append, toList_replicaName, List.length_append, List.length_append,
      List.length_cons]
    omega
  rintro (⟨hservice, -⟩ | ⟨more, hservice, -⟩)
  · have := hlength ""
    rw [String.append_empty, ← hservice] at this
    omega
  · have := hlength ("-" ++ more)
    rw [← String.append_assoc, ← hservice] at this
    omega

theorem volumeDatasetPath_inj {pool a b : String} :
    volumeDatasetPath pool a = volumeDatasetPath pool b ↔ a = b :=
  String.append_right_inj _

/-- What `to_jail_spec` makes of a template's volume. -/
theorem toJailSpec_volumes {t : JailTemplate} {name address : String} {k : ℕ} {v w : VolumeMount}
    (hv : t.volumes[k]? = some v) (hw : (t.toJailSpec name address).spec.volumes[k]? = some w) :
    w.name = name ++ "-" ++ v.name := by
  rw [JailTemplate.toJailSpec, List.getElem?_map, hv] at hw
  cases hw
  rfl

/-- **Distinct but for shadows.** Of two services, two replicas and two
volumes, not all the same, the derived names and their datasets differ
exactly when neither shadows the other. -/
theorem volumes_distinct_iff (s s' : ServiceSpec) (i i' : ℕ) (address address' : String) {k k' : ℕ}
    {v v' w w' : VolumeMount} (hv : s.spec.template.volumes[k]? = some v)
    (hv' : s'.spec.template.volumes[k']? = some v')
    (hw : (s.spec.template.toJailSpec (replicaName s.metadata.name i) address).spec.volumes[k]? =
      some w)
    (hw' : (s'.spec.template.toJailSpec (replicaName s'.metadata.name i')
      address').spec.volumes[k']? = some w')
    (hne : (replicaName s.metadata.name i, v.name) ≠ (replicaName s'.metadata.name i', v'.name)) :
    (w.name ≠ w'.name ∧ ∀ pool, volumeDatasetPath pool w.name ≠ volumeDatasetPath pool w'.name) ↔
      ¬ Shadows s.metadata.name i v.name s'.metadata.name i' v'.name ∧
        ¬ Shadows s'.metadata.name i' v'.name s.metadata.name i v.name := by
  have hnames : w.name = w'.name ↔
      Shadows s.metadata.name i v.name s'.metadata.name i' v'.name ∨
        Shadows s'.metadata.name i' v'.name s.metadata.name i v.name := by
    rw [toJailSpec_volumes hv hw, toJailSpec_volumes hv' hw', join_eq_join_iff, shadows_iff,
      shadows_iff]
    constructor
    · rintro (⟨hreplica, hvolume⟩ | h)
      · exact absurd (Prod.ext hreplica hvolume) hne
      · exact h
    · exact Or.inr
  simp only [ne_eq, volumeDatasetPath_inj, hnames, forall_const, and_self, not_or]

/-- A service whose template has volumes of these names. -/
def Sample.withVolumes (name : String) (volumes : List String) : ServiceSpec :=
  ⟨"keel/v1", "Service", ⟨name⟩,
    ⟨2, 80, ControlPlane.Sample.template (volumes.map fun v => ⟨v, "/" ++ v, "1G"⟩)⟩⟩

/-- Two replicas of one service. -/
theorem volumes_distinct_sample : "db-0-data" ≠ "db-1-data" ∧
    ∀ pool, volumeDatasetPath pool "db-0-data" ≠ volumeDatasetPath pool "db-1-data" :=
  (@volumes_distinct_iff (Sample.withVolumes "db" ["data"]) (Sample.withVolumes "db" ["data"]) 0 1
    "10.0.3.2/24" "10.0.3.3/24" 0 0 ⟨"data", "/data", "1G"⟩ ⟨"data", "/data", "1G"⟩
    ⟨"db-0-data", "/data", "1G"⟩ ⟨"db-1-data", "/data", "1G"⟩ (by decide +kernel)
    (by decide +kernel) (by decide +kernel) (by decide +kernel) (by decide +kernel)).2
    ⟨not_shadows_self _ _ _ _ _, not_shadows_self _ _ _ _ _⟩

/-- Replica 0 of `db` with its volume `1-data`, and replica 1 of `db-0`
with its volume `data`. -/
theorem volumes_of_two_services_collide :
    ∃ s s' : ServiceSpec, parseAndValidateService (.ok s) = .ok s ∧
      parseAndValidateService (.ok s') = .ok s' ∧
      ∃ v ∈ s.spec.template.volumes, ∃ v' ∈ s'.spec.template.volumes,
        (replicaName s.metadata.name 0, v.name) ≠ (replicaName s'.metadata.name 1, v'.name) ∧
        ∃ w ∈ (s.spec.template.toJailSpec (replicaName s.metadata.name 0) "10.0.3.2/24").spec.volumes,
        ∃ w' ∈ (s'.spec.template.toJailSpec (replicaName s'.metadata.name 1)
            "10.0.3.3/24").spec.volumes,
          w.name = w'.name ∧
            volumeDatasetPath "zroot" w.name = volumeDatasetPath "zroot" w'.name := by
  refine ⟨Sample.withVolumes "db" ["1-data"], Sample.withVolumes "db-0" ["data"],
    by decide +kernel, by decide +kernel, ⟨"1-data", "/1-data", "1G"⟩, by decide +kernel,
    ⟨"data", "/data", "1G"⟩, by decide +kernel, by decide +kernel,
    ⟨"db-0-1-data", "/1-data", "1G"⟩, by decide +kernel, ⟨"db-0-1-data", "/data", "1G"⟩,
    by decide +kernel, rfl, rfl⟩

/-! ## What is replicated -/

/-- The datasets of a spec's volumes, on a pool. -/
def volumeDatasets (pool : String) (spec : JailSpec) : Set String :=
  {d | ∃ v ∈ spec.spec.volumes, d = volumeDatasetPath pool v.name}

namespace Agent

/-- The datasets a loop makes snapshots on, whatever the node holds. -/
def ReplicationLoop.snapshots (loop : ReplicationLoop) : Set String :=
  {d | ∃ works fresh zfs n, (loop.takeSnapshot works fresh zfs).2.snapshots.lookup (d, n) ≠
    zfs.snapshots.lookup (d, n)}

/-- The datasets a loop sends: those whose snapshots its stream hangs
on. -/
def ReplicationLoop.sends (loop : ReplicationLoop) : Set String :=
  {d | ∃ zfs zfs' : FakeZfsManager,
    (∀ d' n, d' ≠ d → zfs.snapshots.lookup (d', n) = zfs'.snapshots.lookup (d', n)) ∧
      loop.stream zfs ≠ loop.stream zfs'}

/-- The datasets a listener writes for a replica, whatever it holds and
is sent. -/
def Listener.writes (l : Listener) (replicaName : String) : Set String :=
  {d | ∃ zfs works header input n, header.replicaName = replicaName ∧
    ({ l with zfs }.receive works header input).2.zfs.snapshots.lookup (d, n) ≠
      zfs.snapshots.lookup (d, n)}

theorem ReplicationLoop.snapshots_eq (loop : ReplicationLoop) :
    loop.snapshots = {loop.dataset} := by
  ext d
  rw [Set.mem_singleton_iff]
  constructor
  · rintro ⟨works, fresh, zfs, n, hne⟩
    by_contra hd
    refine hne ?_
    cases works with
    | false => rfl
    | true =>
      simp only [takeSnapshot, FakeZfsManager.snapshot, if_true]
      split <;> rename_i h <;> split at h <;> cases h
      · split
        · rfl
        · exact AList.lookup_insert_ne fun heq => hd (Prod.mk.inj heq).1
      · rfl
  · rintro rfl
    refine ⟨true, 0, ⟨{loop.dataset}, ∅, ∅⟩, snapshotId loop.tick, ?_⟩
    have htaken : (loop.takeSnapshot true 0 ⟨{loop.dataset}, ∅, ∅⟩).2.snapshots =
        (∅ : AList fun _ : String × String => Stamp).insert
          (loop.dataset, snapshotId loop.tick) 0 := by
      simp [takeSnapshot, FakeZfsManager.snapshot]
    rw [htaken, AList.lookup_insert]
    exact Option.some_ne_none _

theorem ReplicationLoop.sends_eq (loop : ReplicationLoop) : loop.sends = {loop.dataset} := by
  ext d
  rw [Set.mem_singleton_iff]
  constructor
  · rintro ⟨zfs, zfs', hsame, hne⟩
    by_contra hd
    refine hne ?_
    have hlookup : ∀ n, zfs.snapshots.lookup (loop.dataset, n) =
        zfs'.snapshots.lookup (loop.dataset, n) := fun n => hsame _ n (Ne.symm hd)
    have hmem : ∀ n, (loop.dataset, n) ∈ zfs.snapshots ↔ (loop.dataset, n) ∈ zfs'.snapshots := by
      intro n
      rw [← AList.lookup_isSome, ← AList.lookup_isSome, hlookup]
    simp only [stream, FakeZfsManager.sendSnapshot, hlookup, hmem]
  · rintro rfl
    -- A node with nothing, and one with the snapshot and its base.
    let held : AList fun _ : String × String => Stamp :=
      ((∅ : AList _).insert (loop.dataset, snapshotId loop.tick) 0).insert
        (loop.dataset, loop.lastConfirmedSent.getD "") 0
    have hheld : ∀ n, (loop.dataset, n) ∈ held ↔
        n = loop.lastConfirmedSent.getD "" ∨ n = snapshotId loop.tick := by
      intro n
      simp only [held, AList.mem_insert, Prod.mk.injEq, true_and, AList.notMem_empty, or_false]
    refine ⟨⟨∅, ∅, ∅⟩, ⟨∅, held, ∅⟩, ?_, ?_⟩
    · intro d n hd
      have hnone : (d, n) ∉ held := by
        simp only [held, AList.mem_insert, Prod.mk.injEq, hd, false_and, AList.notMem_empty,
          or_false, not_false_eq_true]
      exact (AList.lookup_eq_none.2 hnone).symm
    · have hnone : loop.stream ⟨∅, ∅, ∅⟩ = none := by
        simp [stream, FakeZfsManager.sendSnapshot, Except.toOption]
      obtain ⟨stamp, hstamp⟩ := Option.isSome_iff_exists.1
        (AList.lookup_isSome.2 ((hheld _).2 (Or.inr rfl)))
      have hsome : (loop.stream ⟨∅, held, ∅⟩).isSome = true := by
        simp only [stream, FakeZfsManager.sendSnapshot, hstamp]
        cases hbase : loop.lastConfirmedSent with
        | none => rfl
        | some b =>
          have hmem : (loop.dataset, b) ∈ held := (hheld b).2 (Or.inl (by rw [hbase]; rfl))
          simp only [hmem, if_true]
          rfl
      intro heq
      rw [← heq, hnone] at hsome
      cases hsome

/-- On a node of whatever pool. -/
theorem Listener.writes_eq (l : Listener) (replicaName : String) :
    l.writes replicaName = {l.dataset replicaName} := by
  ext d
  rw [Set.mem_singleton_iff]
  constructor
  · rintro ⟨zfs, works, header, input, n, rfl, hne⟩
    by_contra hd
    refine hne ?_
    cases hreceived : ({ l with zfs }.receive works header input).1 with
    | false => rw [Listener.receive_zfs_of_false (h := hreceived)]
    | true =>
      obtain ⟨stream, -, hstore⟩ := Listener.receive_eq_true (h := hreceived)
      rw [hstore]
      exact AList.lookup_insert_ne fun heq => hd (Prod.mk.inj heq).1
  · rintro rfl
    refine ⟨⟨∅, ∅, ∅⟩, true, ⟨replicaName, "", none⟩, some ⟨"", none, 0⟩, "", rfl, ?_⟩
    have htaken : ({ l with zfs := ⟨∅, ∅, ∅⟩ }.receive true ⟨replicaName, "", none⟩
        (some ⟨"", none, 0⟩)).2.zfs.snapshots =
          (∅ : AList fun _ : String × String => Stamp).insert (l.dataset replicaName, "") 0 := by
      simp [receive, FakeZfsManager.receiveSnapshot, FakeZfsManager.store, dataset]
    rw [htaken, AList.lookup_insert]
    exact Option.some_ne_none _

/-- Every thread's loop is on the dataset made of its replica's name and
`data`. -/
structure Agentd.OnData (pool : String) (a : Agentd) : Prop where
  pool_eq : a.pool = pool
  dataset : ∀ t ∈ a.threads, t.loop.dataset = volumeDatasetPath pool (t.loop.replicaName ++ "-data")

namespace Agentd

variable {pool : String} {a : Agentd}

theorem OnData.setThread (h : a.OnData pool) {i : ℕ} {t t' : Thread} (zfs : FakeZfsManager)
    (hi : a.threads[i]? = some t) (hname : t'.loop.replicaName = t.loop.replicaName)
    (hdataset : t'.loop.dataset = t.loop.dataset) :
    ({ a with zfs }.setThread i t').OnData pool := by
  refine ⟨h.pool_eq, fun x hx => ?_⟩
  rcases List.mem_or_eq_of_mem_set hx with hx | rfl
  · exact h.dataset x hx
  · rw [hname, hdataset]
    exact h.dataset t (List.mem_of_getElem? hi)

/-- A command spawns loops on that dataset only, and a loop stays where
it is. -/
theorem OnData.move [Ipnet] (h : a.OnData pool) (mv : Move) : (a.move mv).OnData pool := by
  cases mv with
  | command m c =>
    have hc := Commanded.handleCommand m c a
    refine ⟨hc.pool.trans h.pool_eq, fun t ht => ?_⟩
    rcases hc.threads t ht with ht | ⟨name, rfl⟩
    · exact h.dataset t ht
    · rw [← h.pool_eq]
      rfl
  | wake i snapshots connects fresh =>
    rw [Agentd.move, Agentd.wake]
    split
    · rename_i loop hi
      simp only
      split
      · exact h.setThread a.zfs hi rfl rfl
      · split
        · exact h.setThread a.zfs hi rfl rfl
        · split <;> exact h.setThread _ hi rfl rfl
    · exact h
  | conclude i prunes result =>
    rw [Agentd.move, Agentd.conclude]
    split
    · rename_i loop addr ack hi
      refine h.setThread _ hi ?_ ?_ <;> cases result <;> rfl
    · exact h
  | exit i =>
    rw [Agentd.move, Agentd.exit]
    split
    · rename_i loop hi
      exact h.setThread a.zfs hi rfl rfl
    · exact h

end Agentd

theorem Session.onData_run [Ipnet] {pool : String} (mvs : List Move) :
    ∀ {s : Session}, s.agent.OnData pool → (s.run mvs).agent.OnData pool := by
  induction mvs with
  | nil => exact fun h => h
  | cons mv mvs ih => exact fun h => ih (h.move mv)

/-- A loop of an agent run from its start. -/
theorem Session.dataset_of_run [Ipnet] {pool : String} {zfs : FakeZfsManager}
    {records : Table JailRecord} {targets : Table ReplicaTarget} {mvs : List Move} {t : Thread}
    (ht : t ∈ (Session.run ⟨.start pool zfs records targets, false⟩ mvs).agent.threads) :
    t.loop.dataset = volumeDatasetPath pool (t.loop.replicaName ++ "-data") := by
  have hstart : (Agentd.start pool zfs records targets).OnData pool :=
    ⟨rfl, fun t ht => absurd ht List.not_mem_nil⟩
  exact (Session.onData_run mvs (s := ⟨.start pool zfs records targets, false⟩) hstart).dataset t ht

end Agent

/-- The volumes of a replica come to the one dataset exactly when the
template has one volume, named `data`. -/
theorem volumeDatasets_eq_iff {template : JailTemplate}
    (hvalid : validateVolumes template.volumes = .ok ()) (hvolumes : template.volumes ≠ [])
    (pool name : String) (address : Ipv4Addr) (prefixLen : ℕ) (replicateTo : Option String) :
    {volumeDatasetPath pool (name ++ "-data")} =
        volumeDatasets pool (replicaSpec template name address prefixLen replicateTo) ↔
      template.volumes.map VolumeMount.name = ["data"] := by
  have hdatasets : volumeDatasets pool (replicaSpec template name address prefixLen replicateTo) =
      {d | ∃ v ∈ template.volumes, d = volumeDatasetPath pool (name ++ "-" ++ v.name)} := by
    ext d
    simp [volumeDatasets, replicaSpec, JailTemplate.toJailSpec]
  have hdata : name ++ "-data" = name ++ "-" ++ "data" := by
    rw [String.append_assoc]
    rfl
  have hname : ∀ v : VolumeMount, volumeDatasetPath pool (name ++ "-" ++ v.name) =
      volumeDatasetPath pool (name ++ "-data") ↔ v.name = "data" := by
    intro v
    rw [volumeDatasetPath_inj, hdata, String.append_right_inj]
  rw [hdatasets]
  constructor
  · intro h
    have hall : ∀ v ∈ template.volumes, v.name = "data" := by
      intro v hv
      have hmem : volumeDatasetPath pool (name ++ "-" ++ v.name) ∈
          ({volumeDatasetPath pool (name ++ "-data")} : Set String) := by
        rw [h]
        exact ⟨v, hv, rfl⟩
      exact (hname v).1 hmem
    -- Valid volumes have names of their own, so there is only one.
    have hnodup := (validateVolumes_ok_iff.1 hvalid).2
    have hreplicate := List.eq_replicate_of_mem (l := template.volumes.map VolumeMount.name)
      (a := "data") (by simpa using hall)
    rw [hreplicate] at hnodup ⊢
    have hle := List.nodup_replicate.1 hnodup
    have hpos : 0 < (template.volumes.map VolumeMount.name).length := by
      rw [List.length_map]
      exact List.length_pos_iff.2 hvolumes
    have hone : (template.volumes.map VolumeMount.name).length = 1 := by omega
    rw [hone]
    rfl
  · intro h
    obtain ⟨v, hvol, hv⟩ := List.map_eq_singleton_iff.1 h
    rw [hvol]
    ext d
    rw [Set.mem_singleton_iff, ← (hname v).2 hv]
    simp

/-- **What is replicated.** On an agent run from its start, every loop of
a replica snapshots and sends the datasets the replica's spec declares,
and every standby writes the ones it would declare there, exactly when
the template has a single volume, named `data`. -/
theorem replicates_volumes_iff [Ipnet] {yaml : Except String ServiceSpec} {s : ServiceSpec}
    (haccepted : parseAndValidateService yaml = .ok s) (hvolumes : s.spec.template.volumes ≠ [])
    (name : String) (address : Ipv4Addr) (prefixLen : ℕ) (target : String) (pool : String)
    (zfs : FakeZfsManager) (records : Table Agent.JailRecord)
    (targets : Table Agent.ReplicaTarget) (mvs : List Agent.Move) {t : Thread}
    (ht : t ∈ (Session.run ⟨.start pool zfs records targets, false⟩ mvs).agent.threads)
    (hname : t.loop.replicaName = name) (standby : Listener) :
    (t.loop.snapshots = volumeDatasets pool
          (replicaSpec s.spec.template name address prefixLen (some target)) ∧
        t.loop.sends = volumeDatasets pool
          (replicaSpec s.spec.template name address prefixLen (some target)) ∧
        standby.writes t.loop.header.replicaName = volumeDatasets standby.pool
          (replicaSpec s.spec.template name address prefixLen (some target))) ↔
      s.spec.template.volumes.map VolumeMount.name = ["data"] := by
  have hvalid := (parseAndValidateService_ok haccepted).2.2.2
  rw [ReplicationLoop.snapshots_eq, ReplicationLoop.sends_eq, Listener.writes_eq,
    Session.dataset_of_run ht, ReplicationLoop.header, hname, Listener.dataset,
    volumeDatasets_eq_iff hvalid hvolumes, volumeDatasets_eq_iff hvalid hvolumes, and_self,
    and_self]

open scoped Agent.Sample

namespace Sample

/-- What `db-0` is sent to its node as. -/
def replica (volumes : List String) : JailSpec :=
  replicaSpec (withVolumes "db" volumes).spec.template "db-0" (Ipv4Addr.ofOctets 10 0 9 9) 24
    (some "b:7622")

/-- An agent that resumes its loops, having none, and is sent `db-0`. -/
def primary (volumes : List String) : Session :=
  Agent.Sample.session.run [Agent.Sample.resume,
    .command Agent.Sample.machine (.apply (replica volumes))]

end Sample

open Sample in
theorem replicates_volumes_sample :
    ∃ t ∈ (primary ["data"]).agent.threads,
      t.loop.snapshots = volumeDatasets "zroot" (replica ["data"]) ∧
        t.loop.sends = volumeDatasets "zroot" (replica ["data"]) ∧
        Listener.writes ⟨"zroot", .new, .load ∅⟩ t.loop.header.replicaName =
          volumeDatasets "zroot" (replica ["data"]) := by
  obtain ⟨t, ht, hname⟩ : ∃ t ∈ (primary ["data"]).agent.threads, t.loop.replicaName = "db-0" := by
    decide +kernel
  have haccepted : parseAndValidateService (.ok (withVolumes "db" ["data"])) =
      .ok (withVolumes "db" ["data"]) := by decide +kernel
  exact ⟨t, ht, (replicates_volumes_iff haccepted (by decide +kernel) "db-0" _ 24 "b:7622" "zroot"
    _ _ _ _ ht hname ⟨"zroot", .new, .load ∅⟩).2 rfl⟩

open Sample in
/-- **A volume of another name is not replicated.** The service is
accepted and its replica gets a loop, for a dataset it does not have. -/
theorem other_volume_not_replicated :
    parseAndValidateService (.ok (withVolumes "db" ["pgdata"])) =
        .ok (withVolumes "db" ["pgdata"]) ∧
      ∃ t ∈ (primary ["pgdata"]).agent.threads, t.loop.replicaName = "db-0" ∧
        t.loop.snapshots ≠ volumeDatasets "zroot" (replica ["pgdata"]) ∧
        Listener.writes ⟨"zroot", .new, .load ∅⟩ t.loop.header.replicaName ≠
          volumeDatasets "zroot" (replica ["pgdata"]) := by
  have hne : {volumeDatasetPath "zroot" ("db-0" ++ "-data")} ≠
      volumeDatasets "zroot" (replica ["pgdata"]) := by
    rw [ne_eq, replica, volumeDatasets_eq_iff (by decide +kernel) (by decide +kernel)]
    decide +kernel
  obtain ⟨t, ht, hname⟩ :
      ∃ t ∈ (primary ["pgdata"]).agent.threads, t.loop.replicaName = "db-0" := by
    decide +kernel
  refine ⟨by decide +kernel, t, ht, hname, ?_, ?_⟩
  · rw [ReplicationLoop.snapshots_eq, Session.dataset_of_run ht, hname]
    exact hne
  · rw [Listener.writes_eq, ReplicationLoop.header, hname]
    exact hne

end Keel
