import Keel.Agent.Helpers.Worker
/-!
# What a request leaves of the records

An agent answers a request with `200` if it carried it out, and with an
error, from `400` on, if it did not. What it carries out it writes to the
one record the request is about; a refusal leaves the records as they
were. Either way a reconcile pass may add the ingress's jail, so all this
is about the other jails. What is on disk is what is in memory.
-/

namespace Keel

namespace Agent

/-- The records on disk are those in memory. -/
def Agentd.Synced (a : Agentd) : Prop := a.reconciler.saved = a.reconciler.records

theorem Agentd.mem_records {a : Agentd} {r : String} :
    r ∈ a.reconciler.records.keys ↔ a.specOf r ≠ none := by
  rw [← AList.mem_keys, ← AList.lookup_isSome, specOf, Option.ne_none_iff_isSome, Option.isSome_map]

/-- The records, but for the ingress's, are written as `write` says. -/
structure Agentd.Writes (a : Agentd) (write : Option (String × Option JailSpec)) (a' : Agentd) :
    Prop where
  specOf : ∀ r, r ≠ "ingress" → a'.specOf r =
    (write.elim (a.specOf r) fun x => if r = x.1 then x.2 else a.specOf r)
  synced : a.Synced → a'.Synced

namespace Agentd.Writes

variable {a a' a'' : Agentd} {write : Option (String × Option JailSpec)}

theorem refl (a : Agentd) : a.Writes none a := ⟨fun _ _ => rfl, id⟩

/-- The records stay as they are. -/
theorem of_reconciler (h : a'.reconciler = a.reconciler) : a.Writes none a' :=
  ⟨fun r _ => by simp only [Agentd.specOf, h, Option.elim_none],
    fun hs => by rw [Synced, h]; exact hs⟩

/-- What is written, and nothing after it. -/
theorem trans (h : a.Writes write a') (h' : a'.Writes none a'') : a.Writes write a'' :=
  ⟨fun r hr => (h'.specOf r hr).trans (h.specOf r hr), fun hs => h'.synced (h.synced hs)⟩

theorem insert {name : String} (record : JailRecord) (next : ℕ) {reconciler : Reconciler}
    (h : reconciler = { a.reconciler with
      nextEpairOrdinal := next
      records := a.reconciler.records.insert name record
      saved := a.reconciler.saved.insert name record }) :
    a.Writes (some (name, some record.spec)) { a with reconciler } where
  specOf r _ := by
    simp only [Agentd.specOf, h, Table.lookup_insert_eq, Option.elim_some]
    split <;> rfl
  synced hs := by
    simp only [Synced] at hs ⊢
    rw [h]
    simp only [hs]

theorem erase (a : Agentd) (name : String) :
    a.Writes (some (name, none)) { a with reconciler := { a.reconciler with
      records := a.reconciler.records.erase name
      saved := a.reconciler.saved.erase name } } where
  specOf r _ := by
    simp only [Agentd.specOf, Table.lookup_erase_eq, Option.elim_some]
    split <;> rfl
  synced hs := by
    simp only [Synced] at hs ⊢
    rw [hs]

variable [Ipnet]

/-- A reconcile pass adds at most the ingress's jail. -/
theorem reconcile (a : Agentd) (m : Machine) : a.Writes none (a.reconcile m) := by
  rcases a.reconciler.ensureIngressJail_cases m with ⟨next, h⟩ | ⟨-, ordinal, next, h⟩
  · refine ⟨fun r _ => ?_, fun hs => ?_⟩
    · simp only [Agentd.specOf, Agentd.reconcile, Reconciler.reconcile, h, Option.elim_none]
    · simp only [Synced, Agentd.reconcile, Reconciler.reconcile, h]
      exact hs
  · refine ⟨fun r hr => ?_, fun hs => ?_⟩
    · simp only [Agentd.specOf, Agentd.reconcile, Reconciler.reconcile, h, Option.elim_none,
        Table.lookup_insert_eq, if_neg hr]
    · simp only [Synced] at hs
      simp only [Synced, Agentd.reconcile, Reconciler.reconcile, h, hs]

/-- **An apply** writes its spec, or is refused. -/
theorem apply (a : Agentd) (m : Machine) (spec : JailSpec) :
    (a.apply m spec).1 = .ok () ∧
        a.Writes (some (spec.metadata.name, some spec)) (a.apply m spec).2 ∨
      (∃ e, (a.apply m spec).1 = .error e) ∧ a.Writes none (a.apply m spec).2 := by
  have hstart : ∀ (b : Agentd) (started : Bool) (name : String),
      b.Writes none (if started then b.startReplicating name else b) := by
    intro b started name
    refine of_reconciler ?_
    split
    · exact startReplicating_reconciler name
    · rfl
  rcases a.reconciler.apply_cases m.saves spec with ⟨e, next, h⟩ | ⟨ordinal, next, h⟩
  · refine Or.inr ⟨⟨e, by simp only [Agentd.apply, h]⟩, ?_⟩
    have hsame : a.Writes none { a with reconciler := (a.reconciler.apply m.saves spec).2 } :=
      ⟨fun r _ => by simp only [Agentd.specOf, h, Option.elim_none],
        fun hs => by simp only [Synced, h]; exact hs⟩
    exact (hsame.trans (reconcile _ m)).trans (hstart _ _ _)
  · refine Or.inl ⟨by simp only [Agentd.apply, h], ?_⟩
    have hinsert : a.Writes (some (spec.metadata.name, some spec))
        { a with reconciler := (a.reconciler.apply m.saves spec).2 } :=
      insert ⟨spec, ordinal⟩ next (by rw [h])
    exact (hinsert.trans (reconcile _ m)).trans (hstart _ _ _)

theorem delete (a : Agentd) (m : Machine) (name : String) :
    (a.delete m name).1 = .ok () ∧ a.Writes (some (name, none)) (a.delete m name).2 ∨
      (∃ e, (a.delete m name).1 = .error e) ∧ a.Writes none (a.delete m name).2 := by
  rcases a.reconciler.delete_cases m name with ⟨e, h⟩ | h
  · refine Or.inr ⟨⟨e, by simp only [Agentd.delete, h]⟩, ?_⟩
    simp only [Agentd.delete, h]
    exact reconcile a m
  · refine Or.inl ⟨by simp only [Agentd.delete, h], ?_⟩
    simp only [Agentd.delete, h]
    exact (erase a name).trans (reconcile _ m)

end Agentd.Writes

/-! ## The answers -/

theorem statusForError_ge (e : ReconcileError) : 400 ≤ statusForError e := by
  rw [statusForError.eq_def]
  split <;> decide

/-- An agent's answer to a request, and what it leaves of the records. -/
def Agentd.Answers (a : Agentd) (request : Request) (x : Response × Agentd) : Prop :=
  x.1.status = 200 ∧ a.Writes request.writes? x.2 ∨ 400 ≤ x.1.status ∧ a.Writes none x.2

namespace Agentd.Answers

variable {a : Agentd}

/-- A refusal before any command. -/
theorem refused {request : Request} {status : ℕ} (hstatus : 400 ≤ status) (message : String) :
    a.Answers request (errorResponse status message, a) :=
  Or.inr ⟨hstatus, .refl a⟩

/-- The answer to a command that writes as the request does, or not at
all. -/
theorem of_command (request : Request) (x : Except ReconcileError Unit × Agentd)
    (h : x.1 = .ok () ∧ a.Writes request.writes? x.2 ∨
      (∃ e, x.1 = .error e) ∧ a.Writes none x.2) :
    a.Answers request (reply x.1, x.2) := by
  rcases h with ⟨hok, hwrites⟩ | ⟨⟨e, he⟩, hwrites⟩
  · exact Or.inl ⟨by rw [hok]; rfl, hwrites⟩
  · exact Or.inr ⟨by rw [he]; exact statusForError_ge e, hwrites⟩

/-- The answer to a command that touches no record. -/
theorem of_kept (request : Request) (x : Except ReconcileError Unit × Agentd)
    (hrequest : request.writes? = none) (h : x.2.reconciler = a.reconciler) :
    a.Answers request (reply x.1, x.2) := by
  have hwrites := Writes.of_reconciler h
  rcases hx : x.1 with e | ⟨⟩
  · exact Or.inr ⟨statusForError_ge e, hwrites⟩
  · exact Or.inl ⟨rfl, by rw [hrequest]; exact hwrites⟩

/-- **What an agent answers, and what it leaves**: every request the
control plane can send it. -/
theorem handle [Ipnet] (a : Agentd) (m : Machine) (request : Request)
    (h : ∀ name body, request ≠ .putReplicateTo name body) :
    a.Answers request (a.handle m request) := by
  cases request with
  | putJail name body =>
    simp only [Agentd.handle, Agentd.handleApply]
    rcases body with e | spec
    · exact refused (by decide) _
    simp only
    split
    · exact refused (by decide) _
    rename_i hname
    split
    · exact refused (by decide) _
    · -- The name of the path is the spec's, or the request is refused.
      refine of_command (.putJail name (.ok spec)) (a.apply m spec) ?_
      have happly := Writes.apply a m spec
      rw [not_not.1 hname] at happly
      exact happly
  | getJails => exact Or.inl ⟨rfl, .refl a⟩
  | getJail name =>
    have heq : a.handle m (.getJail name) =
        (if (a.get (some name)).isEmpty then errorResponse 404 ("jail '" ++ name ++ "' not found")
          else ok, a) := rfl
    rw [heq]
    split
    · exact refused (by decide) _
    · exact Or.inl ⟨rfl, .refl a⟩
  | deleteJail name => exact of_command _ (a.delete m name) (Writes.delete a m name)
  | putReplicateTo name body => exact absurd rfl (h name body)
  | getVolume name => exact of_kept _ (handleCommand m (.getVolume name) a) rfl rfl
  | deleteVolume name => exact of_kept _ (handleCommand m (.deleteVolume name) a) rfl rfl
  | getReplicaTarget name =>
    simp only [Agentd.handle, Agentd.handleGetReplicaTarget]
    split
    · exact refused (by decide) _
    split
    · exact refused (by decide) _
    · exact Or.inl ⟨rfl, .refl a⟩
  | noRoute method path => exact refused (by decide) _

end Agentd.Answers

/-- **A jail an agent has no record of** is what it answers `404` about. -/
theorem Agentd.handle_deleteJail [Ipnet] (a : Agentd) (m : Machine) (r : String)
    (htears : ∀ e, m.tearDown = .error e → statusForError e ≠ 404) :
    (a.handle m (.deleteJail r)).1.status = 404 ↔ a.specOf r = none := by
  simp only [Agentd.handle, Agentd.handleReply, handleCommand, Agentd.delete, Reconciler.delete,
    specOf]
  split
  · rename_i hnone
    simp [hnone, reply, errorResponse, statusForError]
  · rename_i record hrecord
    simp only [hrecord, Option.map_some, reduceCtorEq, iff_false]
    split
    · rename_i e he
      exact htears e he
    · split
      · simp [reply, ok]
      · simp [reply, errorResponse, statusForError]

/-- A restarted agent has the records it has on disk. -/
theorem Agentd.Writes.restart {a : Agentd} (h : a.Synced) : a.Writes none a.restart := by
  have hrestart : a.restart.reconciler = .new a.pool a.reconciler.saved := startAll_reconciler _
  refine ⟨fun r _ => ?_, fun _ => ?_⟩
  · rw [Synced] at h
    simp only [Agentd.specOf, hrestart, Reconciler.new, h, Option.elim_none]
  · rw [Synced, hrestart]
    rfl

end Agent

end Keel
