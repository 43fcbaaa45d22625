import Keel.Ingress.Model
/-!
# Challenges and their clean-up

The record of a challenge is deleted after the order has been finalized,
whether or not a certificate came of it. Before that there are the
authorizations, and a call of that loop that fails ends the request at
once, past the deletion: the record it has just created, or one of an
earlier turn, stays in the zone.

So a request cleans up after itself exactly where the loop, once it has
created a record, goes through (`cleaned_up_iff`).
-/

namespace Keel

namespace Ingress

open Node (Cert)

variable {domain : String} {o : Replies} {t : Trace Op Zone}

/-- Every record created is deleted afterwards. -/
def CleanedUp (log : List Entry) : Prop :=
  ∀ before name value after, log = before ++ .created name value :: after →
    .deleted name ∈ after

namespace Replies

/-- A turn of the loop creates its record. -/
def Creates (o : Replies) (i : ℕ) : Prop :=
  o.authorization i = .ok () ∧ (o.challenge i).isSome ∧ o.create i = .ok ()

/-- A turn of the loop goes through. -/
def Passes (o : Replies) (i : ℕ) : Prop :=
  o.Creates i ∧ o.propagation i = .ok () ∧ o.ready i = .ok ()

/-- Once the loop has created a record, no call of it fails. -/
def Uninterrupted (o : Replies) : Prop :=
  ∀ n, o.account = .ok () → o.order = .ok n → 0 < n → o.Creates 0 → ∀ i < n, o.Passes i

end Replies

/-! ## A turn of the loop -/

/-- A request goes on where a call works, and ends where it fails. -/
theorem run_tryCall_bind {δ α β : Type} {f : δ → AcmeError} {c : Op (Except δ α)}
    {k : α → Client β} :
    ((Proc.tryCall f c).bind k).run outside (fun _ => some o) () t =
      match (Zone.call o c t.world).1 with
      | .ok a => (k a).run outside (fun _ => some o) () (t.push c (Zone.call o c t.world).2)
      | .error e => (.returned (.error (f e)) (), t.push c (Zone.call o c t.world).2) :=
  Proc.run_tryCall_bind rfl

theorem run_ask_bind {ρ β : Type} {c : Op ρ} {k : ρ → Client β} :
    ((Proc.ask c).bind k).run outside (fun _ => some o) () t =
      (k (Zone.call o c t.world).1).run outside (fun _ => some o) ()
        (t.push c (Zone.call o c t.world).2) :=
  Proc.run_ask_bind rfl

/-- **A turn** leaves its record, if it creates one, and hands its value
on if nothing fails. -/
theorem run_authorize (domain : String) (o : Replies) (t : Trace Op Zone) :
    ∃ result t', (authorize domain).run outside (fun _ => some o) () t =
        (.returned result (), t') ∧
      t'.world.fetched = t.world.fetched + 1 ∧
      (∃ l, t'.world.log = t.world.log ++ l ∧
        (∀ e ∈ l, ∃ value, e = .created (challengeName domain) value) ∧
        (l ≠ [] ↔ o.Creates t.world.fetched)) ∧
      ((∃ value, result = .ok value) ↔ o.Passes t.world.fetched) := by
  obtain ⟨⟨i, log⟩, calls⟩ := t
  rw [authorize]
  simp only [Proc.bind_eq, Proc.pure_eq]
  rw [run_tryCall_bind]
  simp only [Zone.call]
  cases hfetch : o.authorization i with
  | error e =>
    exact ⟨_, _, rfl, rfl, ⟨[], (List.append_nil log).symm, by simp,
      by simp [Replies.Creates, hfetch]⟩, by simp [Replies.Passes, Replies.Creates, hfetch]⟩
  | ok fetched =>
    simp only
    rw [run_ask_bind]
    simp only [Zone.call, Trace.push_world, Nat.add_sub_cancel]
    cases hoffer : o.challenge i with
    | none =>
      exact ⟨_, _, rfl, rfl, ⟨[], (List.append_nil log).symm, by simp,
        by simp [Replies.Creates, hoffer]⟩, by simp [Replies.Passes, Replies.Creates, hoffer]⟩
    | some value =>
      simp only
      rw [run_tryCall_bind]
      simp only [Zone.call, Trace.push_world, Nat.add_sub_cancel]
      cases hcreate : o.create i with
      | error e =>
        exact ⟨_, _, rfl, rfl, ⟨[], (List.append_nil log).symm, by simp,
          by simp [Replies.Creates, hcreate]⟩, by simp [Replies.Passes, Replies.Creates, hcreate]⟩
      | ok created =>
        -- from here on the record is there, whatever fails
        have hcreates : o.Creates i := ⟨hfetch, by rw [hoffer]; rfl, hcreate⟩
        have hrecord : ∀ e ∈ [Entry.created (challengeName domain) value],
            ∃ value, e = .created (challengeName domain) value :=
          fun e he => ⟨value, List.mem_singleton.1 he⟩
        have hlog : [Entry.created (challengeName domain) value] ≠ [] ↔ o.Creates i :=
          iff_of_true (List.cons_ne_nil _ _) hcreates
        simp only
        rw [run_tryCall_bind]
        simp only [Zone.call, Trace.push_world, Nat.add_sub_cancel]
        cases hpropagation : o.propagation i with
        | error e =>
          exact ⟨_, _, rfl, rfl, ⟨_, rfl, hrecord, hlog⟩, by simp [Replies.Passes, hpropagation]⟩
        | ok propagated =>
          simp only
          rw [run_tryCall_bind]
          simp only [Zone.call, Trace.push_world, Nat.add_sub_cancel]
          cases hready : o.ready i with
          | error e =>
            exact ⟨_, _, rfl, rfl, ⟨_, rfl, hrecord, hlog⟩, by simp [Replies.Passes, hready]⟩
          | ok ready =>
            exact ⟨_, _, rfl, rfl, ⟨_, rfl, hrecord, hlog⟩,
              iff_of_true ⟨value, rfl⟩ ⟨hcreates, hpropagation, hready⟩⟩

/-! ## The loop -/

/-- **The loop** creates records from its first turn on or not at all, and
goes through if every turn does. -/
theorem run_authorizations (domain : String) (o : Replies) (n : ℕ) :
    ∀ (dnsValues : List String) (t : Trace Op Zone), ∃ result t',
      (authorizations domain n dnsValues).run outside (fun _ => some o) () t =
        (.returned result (), t') ∧
      (∃ l, t'.world.log = t.world.log ++ l ∧
        (∀ e ∈ l, ∃ value, e = .created (challengeName domain) value) ∧
        (l ≠ [] ↔ 0 < n ∧ o.Creates t.world.fetched)) ∧
      match result with
      | .ok values => (∀ i < n, o.Passes (t.world.fetched + i)) ∧
          (values = [] ↔ dnsValues = [] ∧ n = 0)
      | .error _ => ∃ i < n, ¬ o.Passes (t.world.fetched + i) := by
  induction n with
  | zero =>
    intro dnsValues t
    refine ⟨.ok dnsValues, t, rfl, ⟨[], (List.append_nil _).symm, by simp, by simp⟩, ?_, by simp⟩
    exact fun i hi => absurd hi (Nat.not_lt_zero i)
  | succ n ih =>
    intro dnsValues t
    obtain ⟨result, t₁, hturn, hfetched, ⟨l, hlog, hrecords, hcreates⟩, hpasses⟩ :=
      run_authorize domain o t
    rw [authorizations, Proc.bind_eq, Proc.run_bind_eq, hturn]
    cases result with
    | error e =>
      have hfails : ¬ o.Passes t.world.fetched := by
        intro h
        obtain ⟨value, hvalue⟩ := hpasses.2 h
        cases hvalue
      refine ⟨_, _, rfl, ⟨l, hlog, hrecords, hcreates.trans ?_⟩, 0, Nat.succ_pos n, hfails⟩
      exact (and_iff_right (Nat.succ_pos n)).symm
    | ok value =>
      have hfirst : o.Passes t.world.fetched := hpasses.1 ⟨value, rfl⟩
      obtain ⟨result, t₂, hrest, ⟨l', hlog', hrecords', -⟩, hresult⟩ :=
        ih (dnsValues ++ [value]) t₁
      refine ⟨result, t₂, hrest, ⟨l ++ l', ?_, ?_, ?_⟩, ?_⟩
      · rw [hlog', hlog, List.append_assoc]
      · intro e he
        rcases List.mem_append.1 he with he | he
        · exact hrecords e he
        · exact hrecords' e he
      · have hnonempty : l ++ l' ≠ [] := fun h =>
          hcreates.2 hfirst.1 (List.append_eq_nil_iff.1 h).1
        exact iff_of_true hnonempty ⟨Nat.succ_pos n, hfirst.1⟩
      · rw [hfetched] at hresult
        cases result with
        | error e =>
          obtain ⟨i, hi, hfails⟩ := hresult
          refine ⟨i + 1, by omega, ?_⟩
          rw [show t.world.fetched + (i + 1) = t.world.fetched + 1 + i by omega]
          exact hfails
        | ok values =>
          refine ⟨fun i hi => ?_, ?_⟩
          · cases i with
            | zero => exact hfirst
            | succ i =>
              rw [show t.world.fetched + (i + 1) = t.world.fetched + 1 + i by omega]
              exact hresult.1 i (by omega)
          · rw [hresult.2]
            simp

/-- Whatever comes of the order, no record is touched. -/
theorem run_finalizeAndDownload (o : Replies) (t : Trace Op Zone) : ∃ result t',
    finalizeAndDownload.run outside (fun _ => some o) () t = (.returned result (), t') ∧
      t'.world = t.world := by
  rw [finalizeAndDownload]
  simp only [Proc.bind_eq, Proc.pure_eq]
  rw [run_tryCall_bind]
  simp only [Zone.call]
  cases o.status with
  | error e => exact ⟨_, _, rfl, rfl⟩
  | ok status =>
    simp only
    by_cases hready : status ≠ .ready
    · rw [if_pos hready]
      exact ⟨_, _, rfl, rfl⟩
    · rw [if_neg hready, run_tryCall_bind]
      simp only [Zone.call]
      cases o.key with
      | error e => exact ⟨_, _, rfl, rfl⟩
      | ok key =>
        simp only
        rw [run_tryCall_bind]
        simp only [Zone.call]
        cases o.certificate with
        | error e => exact ⟨_, _, rfl, rfl⟩
        | ok certificate => exact ⟨_, _, rfl, rfl⟩

/-! ## A request -/

/-- What follows the loop: the issuance, the deletion, and the issuance's
result. -/
def issue (domain : String) (dnsValues : List String) : Client Cert := do
  let issuanceResult ← (finalizeAndDownload.attempt : Client (Except AcmeError Cert))
  if dnsValues ≠ [] then
    let _ ← Proc.ask (.deleteTxtRecord (challengeName domain))
  Proc.ofExcept id issuanceResult

theorem requestCertificateAsync_eq (domain contactEmail : String) :
    requestCertificateAsync domain contactEmail =
      (Proc.tryCall id (.loadOrCreateAccount contactEmail)).bind fun _ =>
        (Proc.tryCall .request (.newOrder domain)).bind fun n =>
          (authorizations domain n []).bind (issue domain) := rfl

/-- What comes of the order is returned, and the record deleted if there
is one. -/
theorem run_issue (domain : String) (o : Replies) (dnsValues : List String) (t : Trace Op Zone) :
    ∃ result t', (issue domain dnsValues).run outside (fun _ => some o) () t =
        (.returned result (), t') ∧
      t'.world.log = t.world.log ++
        (if dnsValues = [] then [] else [.deleted (challengeName domain)]) := by
  obtain ⟨result, t', hrun, hworld⟩ := run_finalizeAndDownload o t
  have hattempt : (finalizeAndDownload.attempt : Client (Except AcmeError Cert)).run outside
      (fun _ => some o) () t = (.returned (.ok result) (), t') := by
    rw [Proc.run_attempt, hrun]
  rw [issue]
  simp only [Proc.bind_eq]
  rw [Proc.run_bind hattempt]
  by_cases hnil : dnsValues = []
  · rw [if_neg (not_not_intro hnil), if_pos hnil, List.append_nil, ← hworld]
    cases result with
    | error e => exact ⟨_, _, rfl, rfl⟩
    | ok cert => exact ⟨_, _, rfl, rfl⟩
  · rw [if_pos hnil, if_neg hnil, ← hworld]
    cases result with
    | error e => exact ⟨_, _, rfl, rfl⟩
    | ok cert => exact ⟨_, _, rfl, rfl⟩

/-- Records that are never deleted are no records, if all is cleaned up. -/
theorem cleanedUp_of_created {log : List Entry}
    (hlog : ∀ e ∈ log, ∃ value, e = .created (challengeName domain) value) :
    CleanedUp log ↔ log = [] := by
  constructor
  · intro h
    cases log with
    | nil => rfl
    | cons e after =>
      obtain ⟨value, rfl⟩ := hlog e List.mem_cons_self
      have hdeleted := h [] _ value after rfl
      obtain ⟨value', hcreated⟩ := hlog _ (List.mem_cons_of_mem _ hdeleted)
      cases hcreated
  · rintro rfl before name value after h
    have hlength := congrArg List.length h
    simp at hlength

/-- A deletion at the end cleans up. -/
theorem cleanedUp_concat {log : List Entry}
    (hlog : ∀ e ∈ log, ∃ value, e = .created (challengeName domain) value) :
    CleanedUp (log ++ [.deleted (challengeName domain)]) := by
  intro before name value after h
  rcases List.append_eq_append_iff.1 h with ⟨cs, hbefore, hafter⟩ | ⟨cs, hbefore, hafter⟩
  · cases cs with
    | nil => cases hafter
    | cons c cs =>
      have hlength := congrArg List.length (List.cons.inj hafter).2
      simp at hlength
  · cases cs with
    | nil => cases hafter
    | cons c cs =>
      obtain ⟨hc, hcs⟩ := List.cons.inj hafter
      have hmem : c ∈ log := by
        rw [hbefore]
        exact List.mem_append_right _ List.mem_cons_self
      obtain ⟨value', hcreated⟩ := hlog c hmem
      rw [hcreated] at hc
      cases hc
      rw [hcs]
      exact List.mem_append_right _ (List.mem_singleton.2 rfl)

/-- Where the order has `n` authorizations, and the loop over them is all
that matters. -/
theorem uninterrupted_iff {n : ℕ} (haccount : o.account = .ok ()) (horder : o.order = .ok n) :
    o.Uninterrupted ↔ (0 < n ∧ o.Creates 0 → ∀ i < n, o.Passes i) := by
  constructor
  · rintro h ⟨hpos, hcreates⟩
    exact h n haccount horder hpos hcreates
  · intro h m _ hm hpos hcreates
    cases horder.symm.trans hm
    exact h ⟨hpos, hcreates⟩

/-- An order is cleaned up after if the loop, once it has created a
record, goes through. -/
theorem run_authorizations_issue (domain : String) (o : Replies) (n : ℕ) {t : Trace Op Zone}
    (ht : t.world = ⟨0, []⟩) : ∃ result t',
      ((authorizations domain n []).bind (issue domain)).run outside (fun _ => some o) () t =
        (.returned result (), t') ∧
      (CleanedUp t'.world.log ↔ (0 < n ∧ o.Creates 0 → ∀ i < n, o.Passes i)) := by
  obtain ⟨result, t₁, hloop, ⟨l, hlog, hrecords, hcreates⟩, hresult⟩ :=
    run_authorizations domain o n [] t
  rw [ht, List.nil_append] at hlog
  rw [ht] at hcreates
  simp only [ht, Nat.zero_add] at hresult
  cases result with
  | error e =>
    rw [Proc.run_bind_eq, hloop]
    obtain ⟨i, hi, hfails⟩ := hresult
    refine ⟨_, _, rfl, ?_⟩
    rw [hlog, cleanedUp_of_created hrecords, ← not_ne_iff, hcreates]
    exact ⟨fun h h' => absurd h' h, fun h h' => hfails (h h' i hi)⟩
  | ok values =>
    obtain ⟨hpasses, hvalues⟩ := hresult
    obtain ⟨issued, t₂, hissue, hlog₂⟩ := run_issue domain o values t₁
    rw [Proc.run_bind hloop]
    refine ⟨issued, t₂, hissue, iff_of_true ?_ fun _ => hpasses⟩
    rw [hlog₂, hlog]
    by_cases hnil : values = []
    · have hnone : l = [] := by
        by_contra hne
        have hzero := (hvalues.1 hnil).2
        have hpos := (hcreates.1 hne).1
        omega
      rw [if_pos hnil, List.append_nil]
      exact (cleanedUp_of_created hrecords).2 hnone
    · rw [if_neg hnil]
      exact cleanedUp_concat hrecords

/-- **Challenges are cleaned up** by a request exactly where its loop,
once it has created a record, goes through; and every request returns. -/
theorem cleaned_up_iff (domain contactEmail : String) (o : Replies) :
    (∃ result, (request domain contactEmail o).1 = .returned result ()) ∧
      (CleanedUp (request domain contactEmail o).2.world.log ↔ o.Uninterrupted) := by
  have hnone : ∀ e ∈ ([] : List Entry), ∃ value, e = .created (challengeName domain) value :=
    fun e he => absurd he List.not_mem_nil
  have hnothing : CleanedUp [] := (cleanedUp_of_created hnone).2 rfl
  rw [request, requestCertificateAsync_eq, run_tryCall_bind]
  simp only [Zone.call]
  cases haccount : o.account with
  | error e =>
    refine ⟨⟨_, rfl⟩, iff_of_true hnothing fun n h => ?_⟩
    rw [haccount] at h
    cases h
  | ok account =>
    simp only
    rw [run_tryCall_bind]
    simp only [Zone.call, Trace.push_world]
    cases horder : o.order with
    | error e =>
      refine ⟨⟨_, rfl⟩, iff_of_true hnothing fun n _ h => ?_⟩
      rw [horder] at h
      cases h
    | ok n =>
      simp only
      rw [uninterrupted_iff haccount horder]
      obtain ⟨result, t', hrun, hclean⟩ := run_authorizations_issue domain o n
        (t := (Trace.push ⟨⟨0, []⟩, []⟩ (.loadOrCreateAccount contactEmail) ⟨0, []⟩).push
          (.newOrder domain) ⟨0, []⟩) rfl
      rw [hrun]
      exact ⟨⟨result, rfl⟩, hclean⟩

/-! ## A record that stays -/

/-- One authorization, whose record does not propagate. -/
def Sample.stuck : Replies where
  account := .ok ()
  order := .ok 1
  authorization _ := .ok ()
  challenge _ := some "LPJNul-wow4m6DsqxbninhsWHlwfp0JecwQzYpOLmCQ"
  create _ := .ok ()
  propagation _ := .error (.propagationTimeout "_acme-challenge.shop.example")
  ready _ := .ok ()
  status := .ok .ready
  key := .ok "key"
  certificate := .ok "certificate"
  delete := .ok ()

/-- The request gives up, and the record stays. -/
theorem challenge_stays :
    ¬ CleanedUp (request "shop.example" "admin@example.com" Sample.stuck).2.world.log := by
  intro h
  have hlog : (request "shop.example" "admin@example.com" Sample.stuck).2.world.log =
      [.created "_acme-challenge.shop.example" "LPJNul-wow4m6DsqxbninhsWHlwfp0JecwQzYpOLmCQ"] := by
    decide +kernel
  exact absurd (h [] _ _ [] hlog) List.not_mem_nil

end Ingress

end Keel
