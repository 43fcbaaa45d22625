import Mathlib.Data.List.Infix
import Keel.Ingress.Ovh
/-!
# The sub-domain of a name

The name of a record is its sub-domain, a dot and the zone. Taking the
zone off again, as often as it is there, gives the sub-domain back exactly
where that does not end in the zone itself: `trimEndMatches` leaves a
string alone if, and only if, it does not end in the suffix.
-/

namespace Keel

namespace Ingress

/-! ## Suffixes, as often as they are there -/

section Trim

variable {suffix s : List Char}

theorem begins_trimTimes (suffix : List Char) (n : ℕ) (s : List Char) :
    trimTimes suffix n s <+: s := by
  induction n generalizing s with
  | zero => exact List.prefix_rfl
  | succ n ih =>
    unfold trimTimes
    split
    · exact (ih _).trans (List.take_prefix _ s)
    · exact List.prefix_rfl

theorem begins_trimEndMatches (suffix s : List Char) : trimEndMatches suffix s <+: s :=
  begins_trimTimes suffix s.length s

/-- What does not end in the suffix is left alone. -/
theorem trimTimes_of_not_suffix (h : ¬ suffix <:+ s) (n : ℕ) : trimTimes suffix n s = s := by
  cases n with
  | zero => rfl
  | succ n => rw [trimTimes, if_neg h]

/-- The empty suffix takes nothing off. -/
theorem trimTimes_nil (n : ℕ) (s : List Char) : trimTimes [] n s = s := by
  induction n with
  | zero => rfl
  | succ n ih => rw [trimTimes, if_pos List.nil_suffix, List.length_nil, Nat.sub_zero,
      List.take_length, ih]

/-- More times than a string is long are no more than that. -/
theorem trimTimes_of_length_le (hne : suffix ≠ []) {n : ℕ} (hn : s.length ≤ n) :
    trimTimes suffix n s = trimEndMatches suffix s := by
  have hpos : 0 < suffix.length := List.length_pos_of_ne_nil hne
  unfold trimEndMatches
  induction n using Nat.strong_induction_on generalizing s with
  | _ n ih =>
    by_cases hsuffix : suffix <:+ s
    · have hle := hsuffix.length_le
      obtain ⟨m, hm⟩ : ∃ m, s.length = m + 1 := ⟨s.length - 1, by omega⟩
      obtain ⟨k, rfl⟩ : ∃ k, n = k + 1 := ⟨n - 1, by omega⟩
      have hlen : (s.take (s.length - suffix.length)).length ≤ m := by
        rw [List.length_take]
        omega
      rw [hm, trimTimes, trimTimes, if_pos hsuffix, if_pos hsuffix, ih k (by omega) (by omega),
        ih m (by omega) hlen]
    · rw [trimTimes_of_not_suffix hsuffix, trimTimes_of_not_suffix hsuffix]

/-- A suffix that was put on is taken off first. -/
theorem trimEndMatches_append (hne : suffix ≠ []) :
    trimEndMatches suffix (s ++ suffix) = trimEndMatches suffix s := by
  have hpos : 0 < suffix.length := List.length_pos_of_ne_nil hne
  obtain ⟨n, hn⟩ : ∃ n, (s ++ suffix).length = n + 1 :=
    ⟨(s ++ suffix).length - 1, by rw [List.length_append]; omega⟩
  have hle : s.length ≤ n := by
    rw [List.length_append] at hn
    omega
  conv_lhs => unfold trimEndMatches
  rw [hn, trimTimes, if_pos (List.suffix_append s suffix), List.length_append, Nat.add_sub_cancel,
    List.take_left, trimTimes_of_length_le hne hle]

/-- **A string is left alone** where it does not end in the suffix. -/
theorem trimEndMatches_eq_self_iff :
    trimEndMatches suffix s = s ↔ suffix = [] ∨ ¬ suffix <:+ s := by
  constructor
  · intro heq
    by_contra h
    obtain ⟨hne, hsuffix⟩ := not_or.1 h
    obtain ⟨r, rfl⟩ := not_not.1 hsuffix
    rw [trimEndMatches_append hne] at heq
    have hle := (begins_trimEndMatches suffix r).length_le
    rw [heq, List.length_append] at hle
    exact hne (List.eq_nil_of_length_eq_zero (by omega))
  · rintro (rfl | hnot)
    · exact trimTimes_nil s.length s
    · exact trimTimes_of_not_suffix hnot s.length

end Trim

/-! ## The sub-domain -/

/-- A sub-domain that ends in the zone; in a dot, where the zone is
empty. -/
def Overlaps (zone s : String) : Prop :=
  if zone = "" then ['.'] <:+ s.toList else zone.toList <:+ s.toList

instance (zone s : String) : Decidable (Overlaps zone s) :=
  inferInstanceAs (Decidable (if zone = "" then _ else _))

theorem not_overlaps_iff {zone s : String} : ¬ Overlaps zone s ↔
    ¬ '.' :: zone.toList <:+ s.toList ∧ (zone.toList = [] ∨ ¬ zone.toList <:+ s.toList) := by
  unfold Overlaps
  by_cases hzone : zone = ""
  · subst hzone
    simp
  · have hne : zone.toList ≠ [] := fun h => hzone (String.toList_eq_nil_iff.1 h)
    rw [if_neg hzone]
    constructor
    · exact fun h => ⟨fun hdot => h ((List.suffix_cons '.' zone.toList).trans hdot), .inr h⟩
    · exact fun h => h.2.resolve_left hne

/-- **The sub-domain of a qualified name** is what was qualified, if that
does not overlap the zone. -/
theorem subDomain_eq_iff (p : OvhDnsProvider) (s : String) :
    p.subDomain (s ++ "." ++ p.zone) = s ↔ ¬ Overlaps p.zone s := by
  have hname : (s ++ "." ++ p.zone).toList = s.toList ++ '.' :: p.zone.toList := by
    simp
  have hdot : ("." ++ p.zone).toList = '.' :: p.zone.toList := by simp
  rw [not_overlaps_iff, OvhDnsProvider.subDomain, hname, hdot,
    trimEndMatches_append (List.cons_ne_nil _ _), ← String.toList_inj, String.toList_ofList]
  -- Neither of the two has taken anything off: together they give the whole string back.
  have hfirst := begins_trimEndMatches ('.' :: p.zone.toList) s.toList
  have hsecond := begins_trimEndMatches p.zone.toList
    (trimEndMatches ('.' :: p.zone.toList) s.toList)
  constructor
  · intro heq
    rw [heq] at hsecond
    have hsame := hfirst.eq_of_length_le hsecond.length_le
    rw [hsame] at heq
    exact ⟨(trimEndMatches_eq_self_iff.1 hsame).resolve_left (List.cons_ne_nil _ _),
      trimEndMatches_eq_self_iff.1 heq⟩
  · rintro ⟨hnot, hzone⟩
    rw [trimEndMatches_eq_self_iff.2 (.inr hnot), trimEndMatches_eq_self_iff.2 hzone]

/-! ## The requests -/

theorem request_inj {method method' path path' : String} {body body' : Body} :
    (⟨_, .request method path body⟩ : Σ ρ : Type, OvhOp ρ) = ⟨_, .request method' path' body'⟩ ↔
      method = method' ∧ path = path' ∧ body = body' := by
  simp

/-- A request names a sub-domain: that of the record it creates, or that
of the records it lists. -/
def Names (p : OvhDnsProvider) (t : String) (c : Σ ρ : Type, OvhOp ρ) : Prop :=
  (∃ record : TxtRecord, record.subDomain = t ∧
      c = ⟨_, .request "POST" p.recordPath (.json record)⟩) ∨
    c = ⟨_, .request "GET" (p.recordPath ++ "?fieldType=TXT&subDomain=" ++ t) .empty⟩

/-- No request names two sub-domains. -/
theorem Names.unique {p : OvhDnsProvider} {t t' : String} {c : Σ ρ : Type, OvhOp ρ}
    (h : Names p t c) (h' : Names p t' c) : t = t' := by
  have hmethods : ("POST" : String) ≠ "GET" := by decide
  rcases h with ⟨record, rfl, rfl⟩ | rfl
  · rcases h' with ⟨record', rfl, h'⟩ | h'
    · rw [Body.json.inj (request_inj.1 h').2.2]
    · exact absurd (request_inj.1 h').1 hmethods
  · rcases h' with ⟨record', rfl, h'⟩ | h'
    · exact absurd (request_inj.1 h').1.symm hmethods
    · exact (String.append_right_inj _).1 (request_inj.1 h').2.1

/-- Under any answers a sub-domain is named, and no other one. -/
structure Uses {α : Type} (p : OvhDnsProvider) (q : Ovh α) (t : String) : Prop where
  named : ∀ answers, ∃ c ∈ requests q answers, Names p t c
  only : ∀ answers, ∀ c ∈ requests q answers, ∀ t', Names p t' c → t' = t

/-- What makes no request that names a sub-domain. -/
def NamesNone {α : Type} (p : OvhDnsProvider) (q : Ovh α) : Prop :=
  q.Keeps (fun c => ∀ t, ¬ Names p t ⟨_, c⟩) (fun _ _ => True) True fun _ => True

theorem NamesNone.since {α : Type} {p : OvhDnsProvider} {q : Ovh α} (h : NamesNone p q)
    (answers : ℕ → Except DnsError String) (t : Trace OvhOp Unit) :
    (q.run ovhOutside (fun i => some (answers i)) () t).2.Since t.calls
      fun c => ∀ s, ¬ Names p s ⟨_, c⟩ := by
  refine Ended.Meets.trace (P := fun t' => t'.Since t.calls _)
    (Proc.run_of_makes (fun _ _ => trivial) (h () trivial) (Trace.since_self t)) ?_ ?_
  · exact fun _ _ _ hreturned => hreturned.2
  · exact fun _ _ hstopped => hstopped

/-- **One request names the sub-domain**, if those after it name none. -/
theorem uses_iff {α : Type} {p : OvhDnsProvider} {method path : String} {body : Body}
    {k : String → Ovh α} {t s : String} (h : Names p t ⟨_, .request method path body⟩)
    (hk : ∀ response, NamesNone p (k response)) :
    Uses p ((Proc.tryCall id (.request method path body)).bind k) s ↔ s = t := by
  have hcalls : ∀ answers, ∃ l, requests ((Proc.tryCall id (.request method path body)).bind k)
      answers = ⟨_, .request method path body⟩ :: l ∧ ∀ c ∈ l, ∀ t', ¬ Names p t' c := by
    intro answers
    have hfirst : (fun i => some (answers i)) (Trace.mk (C := OvhOp) () []).calls.length =
        some (answers 0) := rfl
    unfold requests
    rw [Proc.run_tryCall_bind hfirst]
    simp only [ovhOutside]
    cases answers 0 with
    | error e => exact ⟨[], rfl, fun c hc => absurd hc List.not_mem_nil⟩
    | ok response =>
      obtain ⟨l, hl, hnone⟩ := (hk response).since answers _
      exact ⟨l, hl, hnone⟩
  constructor
  · intro huses
    obtain ⟨l, hl, -⟩ := hcalls fun _ => .ok ""
    exact (huses.only (fun _ => .ok "") _ (by rw [hl]; exact List.mem_cons_self) t h).symm
  · rintro rfl
    refine ⟨fun answers => ?_, fun answers c hc t' ht' => ?_⟩
    · obtain ⟨l, hl, -⟩ := hcalls answers
      exact ⟨_, by rw [hl]; exact List.mem_cons_self, h⟩
    · obtain ⟨l, hl, hnone⟩ := hcalls answers
      rw [hl] at hc
      rcases List.mem_cons.1 hc with rfl | hc
      · exact ht'.unique h
      · exact absurd ht' (hnone c hc t')

/-- A request that is neither of the two names none. -/
theorem not_names {p : OvhDnsProvider} {method path : String} {body : Body} (h : method ≠ "GET")
    (h' : method ≠ "POST" ∨ body = .empty) (t : String) :
    ¬ Names p t ⟨_, .request method path body⟩ := by
  rintro (⟨record, -, hc⟩ | hc)
  · obtain ⟨hpost, -, hbody⟩ := request_inj.1 hc
    rcases h' with h' | rfl
    · exact h' hpost
    · cases hbody
  · exact h (request_inj.1 hc).1

theorem namesNone_request {p : OvhDnsProvider} {method path : String} {body : Body}
    (h : method ≠ "GET") (h' : method ≠ "POST" ∨ body = .empty) :
    NamesNone p ((Proc.tryCall id (.request method path body)).bind fun _ => Proc.ret ()) :=
  Proc.keeps_bind (Proc.keeps_tryCall (not_names h h')) fun _ => Proc.keeps_ret

theorem uses_createTxtRecord_iff {p : OvhDnsProvider} {name value s : String} :
    Uses p (p.createTxtRecord name value) s ↔ s = p.subDomain name :=
  uses_iff (.inl ⟨⟨"TXT", p.subDomain name, value, 60⟩, rfl, rfl⟩) fun _ =>
    namesNone_request (by decide) (.inr rfl)

theorem uses_deleteTxtRecord_iff {p : OvhDnsProvider} {name s : String}
    {fromStr : String → Except String (List UInt64)} :
    Uses p (p.deleteTxtRecord fromStr name) s ↔ s = p.subDomain name := by
  refine uses_iff (.inr rfl) fun _ => Proc.keeps_bind Proc.keeps_ofExcept fun ids => ?_
  refine Proc.keeps_bind (Proc.keeps_forEach fun i _ => ?_) fun _ => ?_
  · exact namesNone_request (by decide) (.inl (by decide))
  · exact namesNone_request (by decide) (.inr rfl)

/-- **The sub-domain used** for a name in the zone, whatever is answered:
creating a record and deleting it both use what stands before the zone if,
and only if, that does not end in the zone itself. -/
theorem subDomain_used_iff (p : OvhDnsProvider) (s : String)
    (fromStr : String → Except String (List UInt64)) :
    ((∀ value, Uses p (p.createTxtRecord (s ++ "." ++ p.zone) value) s) ∧
      Uses p (p.deleteTxtRecord fromStr (s ++ "." ++ p.zone)) s) ↔ ¬ Overlaps p.zone s := by
  simp only [uses_createTxtRecord_iff, uses_deleteTxtRecord_iff, forall_const, and_self]
  rw [eq_comm, subDomain_eq_iff]

/-- The challenge of a host in the zone goes by the sub-domain of the host,
if that does not overlap the zone. -/
theorem challenge_subDomain_iff (p : OvhDnsProvider) (host : String) :
    p.subDomain (challengeName (host ++ "." ++ p.zone)) = challengeName host ↔
      ¬ Overlaps p.zone (challengeName host) := by
  have hname : challengeName (host ++ "." ++ p.zone) = challengeName host ++ "." ++ p.zone := by
    unfold challengeName
    rw [String.append_assoc, String.append_assoc, String.append_assoc]
  rw [hname, subDomain_eq_iff]

/-! ## A host called as its zone -/

/-- `vlan.lan`: the name ends in the zone twice, with no dot before the
second one. -/
def Sample.lan : OvhDnsProvider := ⟨"lan"⟩

example : Sample.lan.subDomain "_acme-challenge.vlan.lan" = "_acme-challenge.v" := by
  decide +kernel

/-- Its challenge is created under another name. -/
theorem subDomain_cut_short : ∃ s : String, s ≠ "" ∧ ∃ value,
    ¬ Uses Sample.lan (Sample.lan.createTxtRecord (s ++ "." ++ Sample.lan.zone) value) s := by
  refine ⟨challengeName "vlan", by decide, "value", fun h => ?_⟩
  exact absurd (uses_createTxtRecord_iff.1 h) (by decide +kernel)

end Ingress

end Keel
