import Keel.ControlPlane.Pinning
import Keel.ControlPlane.Plans
/-!
# A force-repin changes one replica, or nothing

The worker checks a force-repin and answers what it would take, changing
nothing; the handler then asks the standby whether it is ready, sends it
the replica, and only with both answered `2xx` writes the four tables. So
with no other request in between a `200` moves this replica alone, to what
was prepared, and any other answer leaves the tables as they were
(`force_repin_sound`).
-/

namespace Keel

namespace ControlPlane

/-! ## What is promised -/

/-- **What is promised of a prepared force-repin.** -/
structure SoundPrep (w : Worker) (now : Instant) (r : String) (prep : ForceRepinPrep) : Prop where
  placed : w.placements.lookup r = some prep.oldNodeId
  old_dead : (w.registry.resolve prep.oldNodeId now).isOk = false
  standby : w.standbys.lookup r = some prep.standbyNodeId
  resolves : w.registry.resolve prep.standbyNodeId now = .ok prep.standbyAddr
  apart : prep.oldNodeId ≠ prep.standbyNodeId ∧ prep.oldNodeId ≠ prep.freshStandbyNodeId ∧
    prep.standbyNodeId ≠ prep.freshStandbyNodeId
  fresh_alive : w.Alive now prep.freshStandbyNodeId
  freshAddr : w.registry.replicateAddr prep.freshStandbyNodeId = some prep.freshStandbyAddr
  unused : w.usedAddresses.isUsed prep.standbyNodeId prep.address = false
  inside : ∃ podCidr, w.registry.podCidr prep.standbyNodeId = some podCidr ∧
    JailAddress podCidr prep.address ∧ prep.prefixLen = podCidr.prefixLen
  /-- The template is that of the one service the name is a replica of. -/
  template : ∃ s record, w.services.get s = some record ∧ prep.template = record.template ∧
    (replicaIndex s r).isSome = true ∧
      ∀ s', (w.services.get s').isSome = true → (replicaIndex s' r).isSome = true → s' = s

/-- **The replica's entries change**, to what was prepared, and no other
entry does. -/
structure Repinned (w : Worker) (r : String) (prep : ForceRepinPrep) (w' : Worker) : Prop where
  placements : ∀ k, w'.placements.lookup k =
    if k = r then some prep.standbyNodeId else w.placements.lookup k
  addresses : ∀ k, w'.usedAddresses.byJail.lookup k =
    if k = r then some (prep.standbyNodeId, prep.address) else w.usedAddresses.byJail.lookup k
  used : w'.usedAddresses.Consistent
  standbys : ∀ k, w'.standbys.lookup k =
    if k = r then some prep.freshStandbyNodeId else w.standbys.lookup k
  pendingFences : ∀ k, w'.pendingFences.lookup k =
    if k = r then some prep.oldNodeId else w.pendingFences.lookup k
  registry : w'.registry = w.registry
  services : w'.services = w.services

/-- The readiness `GET` of a force-repin. -/
def ForceRepinPrep.readiness (prep : ForceRepinPrep) (name : String) : Forward :=
  ⟨prep.standbyAddr, .get, .replicaTarget name, .empty, prep.standbyNodeId, .readiness⟩

/-- **All or nothing.** Answered `200`, the request had both its forwards
answered `2xx` and moved the replica; else it changed nothing. -/
structure AllOrNothing (w : Worker) (r : String) (o : ℕ → Choice) : Prop where
  refused : (serve (.forceRepin r) o w).response.status ≠ 200 →
    (serve (.forceRepin r) o w).after = w
  moved : (serve (.forceRepin r) o w).response.status = 200 →
    ∃ prep, w.prepareForceRepin (o 0).now r = .ok prep ∧
      (serve (.forceRepin r) o w).log = [.sent w (prep.readiness r) (o 1).answer,
        .sent w (prep.forward r) (o 2).answer] ∧
      accepted (o 1).answer = true ∧ accepted (o 2).answer = true ∧
      Repinned w r prep (serve (.forceRepin r) o w).after

/-! ## The preparation -/

variable {w : Worker} {now : Instant} {r : String} {prep : ForceRepinPrep}

theorem prepareForceRepin_sound {cidr : Ipv4Net} (hblocks : w.registry.Blocks cidr)
    (h : w.prepareForceRepin now r = .ok prep) : SoundPrep w now r prep := by
  obtain ⟨old, standby, standbyAddr, record, fresh, freshAddr, podCidr, address, hprom, hfresh,
    hreplicate, hpod, haddress, rfl⟩ := exists_of_prepareForceRepin h
  obtain ⟨s, howner, hget⟩ := hprom.owned
  have hreplica := isSome_replicaIndex_of_ownerOf howner
  -- The old node is dead and the standby alive; the fresh one is neither.
  have hne := (prepareForceRepin_ok h).standby_ne
  have hexclude := (prepareForceRepin_ok h).fresh
  refine ⟨hprom.placed, hprom.old_dead, hprom.paired, hprom.resolves,
    ⟨hne.symm, hexclude.1.symm, hexclude.2.symm⟩, hfresh.alive, hreplicate,
    isUsed_of_firstFreeAddress haddress, ⟨podCidr, hpod, ?_, rfl⟩,
    ⟨s, record, hget, rfl, hreplica, fun s' _ hs' => service_unique hs' hreplica⟩⟩
  exact hblocks.jailAddress hpod (List.mem_of_find?_eq_some haddress)

/-! ## The request -/

/-- A promotion answers `200` and settles, if the `PUT` is answered `2xx`,
and else leaves the tables alone. -/
theorem run_promote (r : String) (prep : ForceRepinPrep) (o : ℕ → Choice) (i : ℕ)
    (world : World) :
    (accepted (o i).answer = true ∧ ((promote r prep).run semantics o i world).1.status = 200 ∧
        ((promote r prep).run semantics o i world).2 =
          ⟨prep.settle r world.worker,
            world.log ++ [.sent world.worker (prep.forward r) (o i).answer]⟩) ∨
      ((promote r prep).run semantics o i world).1.status ≠ 200 ∧
        ((promote r prep).run semantics o i world).2.worker = world.worker := by
  simp only [promote, Prog.bind_eq, Prog.call_bind, run_forward]
  cases (o i).answer with
  | error e => exact Or.inr ⟨by simp [Prog.run, failedToReach, errorResponse], rfl⟩
  | ok reply =>
    obtain ⟨status, text⟩ := reply
    by_cases hs : isSuccess status = true
    · refine Or.inl ⟨hs, ?_⟩
      simp only [hs, if_true, sendRecordPlacement, sendRecordReplicaAddress, sendRecordStandby,
        sendRecordPendingFence, Prog.send_bind, run_command, Worker.handleCommand,
        Command.note, List.append_nil, Prog.pure_eq]
      exact ⟨rfl, rfl⟩
    · refine Or.inr ?_
      simp only [hs]
      refine ⟨?_, rfl⟩
      rintro rfl
      exact hs rfl

/-- **What a force-repin comes to**: refused, by the worker or the standby,
and the tables as they were; or prepared, both forwards answered `2xx`,
and settled. -/
theorem serve_forceRepin (r : String) (o : ℕ → Choice) (w : Worker) :
    (serve (.forceRepin r) o w).response.status ≠ 200 ∧ (serve (.forceRepin r) o w).after = w ∨
      ∃ prep, w.prepareForceRepin (o 0).now r = .ok prep ∧
        (serve (.forceRepin r) o w).response.status = 200 ∧
        (serve (.forceRepin r) o w).after = prep.settle r w ∧
        (serve (.forceRepin r) o w).log = [.sent w (prep.readiness r) (o 1).answer,
          .sent w (prep.forward r) (o 2).answer] ∧
        accepted (o 1).answer = true ∧ accepted (o 2).answer = true := by
  have hrun : serve (.forceRepin r) o w =
      ⟨.forceRepin r, w, ((handleForceRepin r).run semantics o 0 ⟨w, []⟩).1,
        ((handleForceRepin r).run semantics o 0 ⟨w, []⟩).2.log,
        ((handleForceRepin r).run semantics o 0 ⟨w, []⟩).2.worker⟩ := rfl
  simp only [handleForceRepin, Prog.bind_eq, Prog.send_bind, Prog.call_bind, run_command,
    Worker.handleCommand, Command.note, List.append_nil] at hrun
  cases hprep : w.prepareForceRepin (o 0).now r with
  | error e =>
    simp only [hprep] at hrun
    rw [hrun]
    exact Or.inl ⟨e.status_ne, rfl⟩
  | ok prep =>
    simp only [hprep, run_forward, List.nil_append] at hrun
    cases hready : (o 1).answer with
    | error e =>
      simp only [hready] at hrun
      rw [hrun]
      exact Or.inl ⟨by simp [Prog.run, errorResponse], rfl⟩
    | ok reply =>
      obtain ⟨status, text⟩ := reply
      simp only [hready] at hrun
      by_cases hs : isSuccess status = true
      · -- The standby is ready, and the promotion decides.
        simp only [hs, if_true] at hrun
        rw [hrun]
        rcases run_promote r prep o 2 ⟨w, [.sent w (prep.readiness r) (.ok (status, text))]⟩ with
          ⟨haccepted, hstatus, hworld⟩ | ⟨hstatus, hworker⟩
        · refine Or.inr ⟨prep, rfl, hstatus, ?_, ?_, hs, haccepted⟩
          · exact congrArg World.worker hworld
          · exact congrArg World.log hworld
        · exact Or.inl ⟨hstatus, hworker⟩
      · by_cases h4 : (status == 404 || status == 409) = true
        · simp only [hs, h4] at hrun
          rw [hrun]
          exact Or.inl ⟨by simp [Prog.run, errorResponse], rfl⟩
        · simp only [hs, h4] at hrun
          rw [hrun]
          exact Or.inl ⟨by simp [Prog.run, errorResponse], rfl⟩

/-- What is settled is what was prepared, at an address nobody has. -/
theorem repinned_settle (hprep : w.prepareForceRepin now r = .ok prep)
    (hused : w.usedAddresses.Consistent) : Repinned w r prep (prep.settle r w) := by
  have hfree := (prepareForceRepin_ok hprep).free
  refine ⟨fun k => ?_, fun k => ?_, ?_, fun k => ?_, fun k => ?_, rfl, rfl⟩
  · exact Table.lookup_insert_eq _ _ _ _
  · exact UsedAddresses.byJail_record _ _ _ _ _
  · exact hused.record fun k hk => absurd hk (hused.byJail_ne_of_isUsed hfree)
  · exact Table.lookup_insert_eq _ _ _ _
  · exact Table.lookup_insert_eq _ _ _ _

/-- **A force-repin is sound, and all or nothing**, of every registry that
registrations make and every consistent table of addresses, whatever the
standby answers and whenever. -/
theorem force_repin_sound {cidr : Ipv4Net} (w : Worker) (r : String)
    (hblocks : w.registry.Blocks cidr) (hused : w.usedAddresses.Consistent) :
    (∀ now ord, (w.handleCommand now ord (.prepareForceRepin r)).2 = w ∧
        ∀ prep, (w.handleCommand now ord (.prepareForceRepin r)).1 = .ok prep →
          SoundPrep w now r prep) ∧
      ∀ o, AllOrNothing w r o := by
  refine ⟨fun now ord => ⟨rfl, fun prep hprep => prepareForceRepin_sound hblocks hprep⟩,
    fun o => ⟨fun hstatus => ?_, fun hstatus => ?_⟩⟩
  · rcases serve_forceRepin r o w with ⟨-, hafter⟩ | ⟨prep, -, hok, -⟩
    · exact hafter
    · exact absurd hok hstatus
  · rcases serve_forceRepin r o w with ⟨hne, -⟩ | ⟨prep, hprep, -, hafter, hlog, hready, hput⟩
    · exact absurd hstatus hne
    · refine ⟨prep, hprep, hlog, hready, hput, ?_⟩
      rw [hafter]
      exact repinned_settle hprep hused

open Sample in
/-- The replica of a silent node, with the others answering and not. -/
theorem force_repin_sound_sample :
    (∃ prep, SoundPrep primarySilent (21 * second) "db-0" prep) ∧
      AllOrNothing primarySilent "db-0" (clock 21 200) ∧
      AllOrNothing primarySilent "db-0" (clock 21 500) ∧
      (serve (.forceRepin "db-0") (clock 21 200) primarySilent).response.status = 200 := by
  have hblocks : primarySilent.registry.Blocks clusterCidr := blocks_final _ (.new clusterCidr)
  have hused : primarySilent.usedAddresses.Consistent :=
    consistent_final _ (by decide +kernel) .new
  obtain ⟨hprepared, hserved⟩ := force_repin_sound primarySilent "db-0" hblocks hused
  obtain ⟨prep, hprep⟩ := isOk_iff_exists.1
    (show (primarySilent.prepareForceRepin (21 * second) "db-0").isOk = true by decide +kernel)
  exact ⟨⟨prep, (hprepared (21 * second) .listed).2 prep hprep⟩, hserved _, hserved _,
    by decide +kernel⟩

end ControlPlane

end Keel
