import Mathlib.Data.Int.CardIntervalMod
import Mathlib.Data.Set.Basic
import Keel.Agent.Model.Relay
/-!
# What the relay of a service does with connections

Over every interleaving of the threads, of fewer than 2⁶⁴ steps: the
counter hands every connection a number of its own, so connections are
spread evenly over the replicas; a connection knows only replicas that
were listed when it looked; a replica that is down costs no connection;
and a listener told to stop accepts one more connection at most
(`relay_serves`).
-/

namespace Keel

namespace Agent

/-! ## Numbers handed out -/

section FilterMap

variable {B C : Type} {g : B → Option C}

theorem filterMap_set_of_eq {l : List B} : ∀ {i : ℕ} {b b' : B}, l[i]? = some b → g b' = g b →
    (l.set i b').filterMap g = l.filterMap g := by
  induction l with
  | nil => exact fun _ _ => rfl
  | cons a l ih =>
    intro i b b' h heq
    cases i with
    | zero =>
      rw [List.getElem?_cons_zero, Option.some.injEq] at h
      subst h
      simp only [List.set_cons_zero, List.filterMap_cons, heq]
    | succ i =>
      rw [List.getElem?_cons_succ] at h
      simp only [List.set_cons_succ, List.filterMap_cons, ih h heq]

theorem filterMap_set_perm {l : List B} : ∀ {i : ℕ} {b b' : B} {c : C}, l[i]? = some b →
    g b = none → g b' = some c → ((l.set i b').filterMap g).Perm (c :: l.filterMap g) := by
  induction l with
  | nil => intro i b b' c h; cases h
  | cons a l ih =>
    intro i b b' c h hnone hsome
    cases i with
    | zero =>
      rw [List.getElem?_cons_zero, Option.some.injEq] at h
      subst h
      simp only [List.set_cons_zero, List.filterMap_cons, hnone, hsome]
      exact List.Perm.refl _
    | succ i =>
      rw [List.getElem?_cons_succ] at h
      rw [List.set_cons_succ, List.filterMap_cons, List.filterMap_cons]
      cases g a with
      | none => exact ih h hnone hsome
      | some d => exact ((ih h hnone hsome).cons d).trans (List.Perm.swap c d _)

end FilterMap

/-- Of the first `n` numbers, as many as there are whole rounds leave a
given remainder, or one more. -/
theorem countP_range_mod {len : ℕ} (hlen : 0 < len) {j : ℕ} (hj : j < len) (n : ℕ) :
    n / len ≤ (List.range n).countP (fun k => decide (k % len = j)) ∧
      (List.range n).countP (fun k => decide (k % len = j)) ≤ n / len + 1 := by
  have hcount := Nat.count_modEq_card n hlen j
  rw [Nat.mod_eq_of_lt hj] at hcount
  have hsame : (List.range n).countP (fun k => decide (k % len = j)) =
      n.count (· ≡ j [MOD len]) := by
    rw [Nat.count]
    refine List.countP_congr fun k _ => ?_
    simp only [decide_eq_true_eq, Nat.ModEq, Nat.mod_eq_of_lt hj]
  rw [hsame, hcount]
  split <;> omega

/-! ## What a connection knows -/

variable {A : Type}

/-- The replicas a connection was accepted for. -/
def RelayPhase.snapshot? : RelayPhase A → Option (List A)
  | .snapped snapshot | .trying snapshot _ _ | .relaying snapshot _ _ => some snapshot
  | .closed (.failed snapshot _) | .closed (.cut snapshot _ _) => some snapshot
  | .closed (.relayed snapshot _ _) => some snapshot
  | _ => none

/-- The number a connection was handed. -/
def RelayPhase.start? : RelayPhase A → Option ℕ
  | .trying _ start _ | .relaying _ start _ => some start
  | .closed (.failed _ start) | .closed (.cut _ start _) | .closed (.relayed _ start _) => some start
  | _ => none

namespace Relay

variable {r : Relay A} {label : RelayLabel A} {labels : List (RelayLabel A)}

/-- The numbers handed out. -/
def starts (r : Relay A) : List ℕ := r.connections.filterMap RelayPhase.start?

/-- **What a thread does**: it is handed the next number, or it leaves the
counter alone. -/
theorem handle_cases (r : Relay A) (x : Attempt A) (phase : RelayPhase A) :
    (∃ snapshot, phase = .snapped snapshot ∧
      r.handle x phase = (.trying snapshot r.counter 0, (r.counter + 1) % 2 ^ 64)) ∨
    (r.handle x phase).2 = r.counter ∧ (r.handle x phase).1.start? = phase.start? := by
  rcases phase with _ | snapshot | ⟨snapshot, start, attempt⟩ | _ | _
  · refine Or.inr ?_
    simp only [handle]
    split <;> exact ⟨rfl, rfl⟩
  · exact Or.inl ⟨snapshot, rfl, rfl⟩
  · refine Or.inr ?_
    simp only [handle]
    split
    · split
      · split <;> exact ⟨rfl, rfl⟩
      · exact ⟨rfl, rfl⟩
    · exact ⟨rfl, rfl⟩
  · exact Or.inr ⟨rfl, rfl⟩
  · exact Or.inr ⟨rfl, rfl⟩

/-- The counter goes up by one at a time, as long as it does not wrap. -/
theorem counter_step (hr : r.counter + 1 < 2 ^ 64) (label : RelayLabel A) :
    (r.step label).counter ≤ r.counter + 1 := by
  cases label with
  | swap | halt => exact Nat.le_succ _
  | poll incoming =>
    simp only [step]
    split <;> exact Nat.le_succ _
  | handle i x =>
    simp only [step]
    split
    · rename_i phase _
      show (r.handle x phase).2 ≤ _
      rcases r.handle_cases x phase with ⟨snapshot, -, heq⟩ | ⟨heq, -⟩
      · rw [heq]
        exact (Nat.mod_eq_of_lt hr).le
      · rw [heq]
        exact Nat.le_succ _
    · exact Nat.le_succ _

/-- **The rule for runs** in which the counter does not wrap. -/
theorem run_keeps {P : RelayLabel A → Prop} {I : Relay A → Prop}
    (hstep : ∀ r label, P label → r.counter + 1 < 2 ^ 64 → I r → I (r.step label)) :
    ∀ {labels : List (RelayLabel A)} {r : Relay A}, (∀ label ∈ labels, P label) →
      r.counter + labels.length < 2 ^ 64 → I r → I (r.run labels) := by
  intro labels
  induction labels with
  | nil => exact fun _ _ h => h
  | cons label labels ih =>
    intro r hP hlen h
    rw [List.length_cons] at hlen
    have hr : r.counter + 1 < 2 ^ 64 := by omega
    have hcounter := counter_step hr label
    refine ih (fun label' hlabel' => hP label' (List.mem_cons_of_mem _ hlabel')) (by omega) ?_
    exact hstep r label (hP label List.mem_cons_self) hr h

/-! ## Even shares -/

/-- Every number below the counter has been handed out once. -/
def Numbered (r : Relay A) : Prop := r.starts.Perm (List.range r.counter)

theorem Numbered.step (hr : r.counter + 1 < 2 ^ 64) (h : r.Numbered) (label : RelayLabel A) :
    (r.step label).Numbered := by
  cases label with
  | swap | halt => exact h
  | poll incoming =>
    simp only [Relay.step]
    split
    · exact h
    · cases incoming with
      | false => exact h
      | true =>
        show List.Perm (List.filterMap _ (_ ++ [_])) _
        rw [List.filterMap_append]
        exact (List.append_nil _).symm ▸ h
    · exact h
  | handle i x =>
    simp only [Relay.step]
    split
    · rename_i phase hphase
      show List.Perm ((r.connections.set i (r.handle x phase).1).filterMap _)
        (List.range (r.handle x phase).2)
      rcases r.handle_cases x phase with ⟨snapshot, rfl, heq⟩ | ⟨heq, hstart⟩
      · rw [heq]
        show List.Perm _ (List.range ((r.counter + 1) % 2 ^ 64))
        rw [Nat.mod_eq_of_lt hr, List.range_succ]
        have hhanded : List.Perm ((r.connections.set i (.trying snapshot r.counter 0)).filterMap
            RelayPhase.start?) (r.counter :: r.starts) := filterMap_set_perm hphase rfl rfl
        exact hhanded.trans ((h.cons r.counter).trans (List.perm_append_singleton _ _).symm)
      · rw [heq, filterMap_set_of_eq hphase hstart]
        exact h
    · exact h

theorem numbered_run (replicas : List A) (hlabels : labels.length < 2 ^ 64) :
    ((new replicas).run labels).Numbered :=
  run_keeps (P := fun _ => True) (fun _ label _ hr h => h.step hr label) (fun _ _ => trivial)
    ((Nat.zero_add _).trans_lt hlabels) (List.Perm.refl [])

/-- **Even shares.** Of the connections handed a number, each replica is
first for its share, rounded down or up. -/
theorem countP_starts (replicas : List A) (hlabels : labels.length < 2 ^ 64) {j : ℕ}
    (hj : j < replicas.length) :
    ((new replicas).run labels).starts.length / replicas.length ≤
      ((new replicas).run labels).starts.countP
        (fun start => decide (position replicas start 0 = j)) ∧
    ((new replicas).run labels).starts.countP
        (fun start => decide (position replicas start 0 = j)) ≤
      ((new replicas).run labels).starts.length / replicas.length + 1 := by
  have hnumbered := numbered_run replicas hlabels
  have hcounter : ((new replicas).run labels).counter < 2 ^ 64 :=
    run_keeps (P := fun _ => True) (I := fun r => r.counter < 2 ^ 64)
      (fun r label _ hr _ => (counter_step hr label).trans_lt hr) (fun _ _ => trivial)
      ((Nat.zero_add _).trans_lt hlabels) (show 0 < 2 ^ 64 from Nat.two_pow_pos 64)
  have hfirst : ((new replicas).run labels).starts.countP
      (fun start => decide (position replicas start 0 = j)) =
      ((new replicas).run labels).starts.countP
        (fun start => decide (start % replicas.length = j)) := by
    refine List.countP_congr fun start hstart => ?_
    have hlt := List.mem_range.1 (hnumbered.mem_iff.1 hstart)
    rw [position, Nat.add_zero, Nat.mod_eq_of_lt (hlt.trans hcounter)]
  rw [hfirst, hnumbered.length_eq, hnumbered.countP_eq, List.length_range]
  exact countP_range_mod (by omega) hj _

/-! ## Replicas that were listed -/

/-- The replicas of a connection are those it read, or those listed. -/
theorem snapshot_handle (r : Relay A) (x : Attempt A) {phase : RelayPhase A} {snapshot : List A}
    (h : (r.handle x phase).1.snapshot? = some snapshot) :
    phase.snapshot? = some snapshot ∨ snapshot = r.replicas := by
  rcases phase with _ | snapshot' | ⟨snapshot', start, attempt⟩ | _ | _
  · simp only [handle] at h
    split at h
    · cases h
    · cases h
      exact Or.inr rfl
  · exact Or.inl h
  · refine Or.inl ?_
    simp only [handle] at h
    split at h
    · split at h
      · split at h <;> exact h
      · exact h
    · exact h
  · exact Or.inl h
  · exact Or.inl h

/-- Connections from the `n`-th on know the replicas `rs`. -/
structure Listed (n : ℕ) (rs : List A) (r : Relay A) : Prop where
  replicas : r.replicas = rs
  known : ∀ i phase snapshot, n ≤ i → r.connections[i]? = some phase →
    phase.snapshot? = some snapshot → snapshot = rs

theorem Listed.step {n : ℕ} {rs : List A} (hlabel : ∀ rs', label ≠ .swap rs')
    (h : Listed n rs r) : Listed n rs (r.step label) := by
  cases label with
  | swap rs' => exact absurd rfl (hlabel rs')
  | halt => exact ⟨h.replicas, h.known⟩
  | poll incoming =>
    simp only [Relay.step]
    split
    · exact ⟨h.replicas, h.known⟩
    · refine ⟨h.replicas, fun i phase snapshot hi hphase hsnapshot => ?_⟩
      cases incoming with
      | false => exact h.known i phase snapshot hi hphase hsnapshot
      | true =>
        simp only [if_true, List.getElem?_append] at hphase
        split at hphase
        · exact h.known i phase snapshot hi hphase hsnapshot
        · rw [List.getElem?_singleton] at hphase
          split at hphase
          · cases hphase
            cases hsnapshot
          · cases hphase
    · exact h
  | handle i x =>
    simp only [Relay.step]
    split
    · rename_i phase hphase
      refine ⟨h.replicas, fun k phase' snapshot hk hphase' hsnapshot => ?_⟩
      simp only [List.getElem?_set] at hphase'
      split at hphase'
      · rename_i hik
        subst hik
        split at hphase'
        · cases hphase'
          rcases snapshot_handle r x hsnapshot with hbefore | hlisted
          · exact h.known i phase snapshot hk hphase hbefore
          · exact hlisted.trans h.replicas
        · cases hphase'
      · exact h.known k phase' snapshot hk hphase' hsnapshot
    · exact h

/-! ## Told to stop -/

/-- A listener that is to stop, and accepts a connection past the `n`-th
only if it was past the flag already. -/
structure Stopping (n : ℕ) (r : Relay A) : Prop where
  stop : r.stop = true
  polling : r.loop = .polling → r.connections.length ≤ n
  length_le : r.connections.length ≤ n + 1

theorem Stopping.step {n : ℕ} (h : Stopping n r) (label : RelayLabel A) :
    Stopping n (r.step label) := by
  cases label with
  | swap rs => exact ⟨h.stop, h.polling, h.length_le⟩
  | halt => exact ⟨rfl, h.polling, h.length_le⟩
  | poll incoming =>
    simp only [Relay.step]
    split
    · rw [h.stop, if_pos rfl]
      exact ⟨rfl, AcceptPhase.noConfusion, h.length_le⟩
    · rename_i hloop
      refine ⟨h.stop, AcceptPhase.noConfusion, ?_⟩
      have hlen := h.polling hloop
      cases incoming with
      | false => exact h.length_le
      | true =>
        rw [if_pos rfl, List.length_append]
        exact Nat.succ_le_succ hlen
    · exact h
  | handle i x =>
    simp only [Relay.step]
    split
    · refine ⟨h.stop, fun hloop => ?_, ?_⟩
      · rw [List.length_set]
        exact h.polling hloop
      · rw [List.length_set]
        exact h.length_le
    · exact h

theorem Stopping.run {n : ℕ} (h : Stopping n r) (labels : List (RelayLabel A)) :
    Stopping n (r.run labels) := by
  induction labels generalizing r with
  | nil => exact h
  | cons label labels ih => exact ih (h.step label)

theorem Listed.run {n : ℕ} {rs : List A} (hlabels : ∀ label ∈ labels, ∀ rs', label ≠ .swap rs')
    (h : Listed n rs r) : Listed n rs (r.run labels) := by
  induction labels generalizing r with
  | nil => exact h
  | cons label labels ih =>
    exact ih (fun label' hlabel' => hlabels label' (List.mem_cons_of_mem _ hlabel'))
      (h.step (hlabels label List.mem_cons_self))

/-! ## A replica that is down -/

/-- A list with two replicas at least, of which one is down at most. -/
structure Spare (down : Set A) (rs : List A) : Prop where
  nodup : rs.Nodup
  two_le : 2 ≤ rs.length
  one_down : ∀ a ∈ rs, ∀ b ∈ rs, a ∈ down → b ∈ down → a = b

theorem target_eq_some {rs : List A} (hlen : 2 ≤ rs.length) (start attempt : ℕ) :
    ∃ a, target rs start attempt = some a :=
  ⟨_, List.getElem?_eq_getElem (Nat.mod_lt _ (by omega))⟩

theorem target_mem {rs : List A} {start attempt : ℕ} {a : A}
    (h : target rs start attempt = some a) : a ∈ rs := List.mem_of_getElem? h

/-- Two in a row are two. -/
theorem target_ne {rs : List A} (hnodup : rs.Nodup) (hlen : 2 ≤ rs.length) {start : ℕ}
    (hstart : start + 1 < 2 ^ 64) : target rs start 0 ≠ target rs start 1 := by
  have hmod : position rs start 0 ≠ position rs start 1 := by
    rw [position, position, Nat.add_zero, Nat.mod_eq_of_lt hstart,
      Nat.mod_eq_of_lt ((Nat.lt_succ_self start).trans hstart)]
    intro heq
    have hdvd : rs.length ∣ start + 1 - start :=
      (Nat.modEq_iff_dvd' (Nat.le_succ start)).1 heq
    rw [Nat.add_sub_cancel_left, Nat.dvd_one] at hdvd
    omega
  intro heq
  have hlt : position rs start 0 < rs.length := Nat.mod_lt _ (by omega)
  exact hmod ((List.getElem?_inj hlt hnodup).1 heq)

/-- A connection that is relayed, or will be. -/
def Spared (down : Set A) : RelayPhase A → Prop
  | .accepted => True
  | .snapped snapshot => Spare down snapshot
  | .trying snapshot start attempt => Spare down snapshot ∧ start + 1 < 2 ^ 64 ∧
    ∀ b a, b < attempt → target snapshot start b = some a → a ∈ down
  | .relaying snapshot _ _ => Spare down snapshot
  | .closed (.relayed snapshot _ _) => Spare down snapshot
  | .closed _ => False

/-- What a step of the outside may not do: take a list down to less than
`Spare`, or keep a connection from a replica that is up. -/
def Benign (down : Set A) : RelayLabel A → Prop
  | .swap rs => Spare down rs
  | .handle _ x => x.clones = true ∧ ∀ a, a ∉ down → x.connects a = true
  | _ => True

variable {down : Set A}

theorem spared_handle {x : Attempt A} (hx : x.clones = true ∧ ∀ a, a ∉ down → x.connects a = true)
    (hr : r.counter + 1 < 2 ^ 64) (hspare : Spare down r.replicas) {phase : RelayPhase A}
    (h : Spared down phase) : Spared down (r.handle x phase).1 := by
  rcases phase with _ | snapshot | ⟨snapshot, start, attempt⟩ | _ | e
  · have hne : r.replicas.isEmpty = false := by
      have hlen := hspare.two_le
      cases hreplicas : r.replicas with
      | nil =>
        rw [hreplicas, List.length_nil] at hlen
        omega
      | cons a rest => rfl
    simp only [handle, hne, Bool.false_eq_true, if_false]
    exact hspare
  · exact ⟨h, hr, fun b a hb => absurd hb (Nat.not_lt_zero b)⟩
  · obtain ⟨hsnapshot, hstart, hdown⟩ := h
    have hattempts : attempts snapshot = 2 := Nat.min_eq_left hsnapshot.two_le
    simp only [handle, hattempts, hx.1, if_true]
    split
    · split
      · exact hsnapshot
      · rename_i hfails
        refine ⟨hsnapshot, hstart, fun b a hb ha => ?_⟩
        rcases Nat.lt_succ_iff_lt_or_eq.1 hb with hlt | rfl
        · exact hdown b a hlt ha
        · by_contra hup
          rw [ha, Option.any_some] at hfails
          exact hfails (hx.2 a hup)
    · -- Both attempts failed, at two replicas, which would both be down.
      rename_i hlast
      obtain ⟨a, ha⟩ := target_eq_some hsnapshot.two_le start 0
      obtain ⟨b, hb⟩ := target_eq_some hsnapshot.two_le start 1
      have hsame := hsnapshot.one_down a (target_mem ha) b (target_mem hb)
        (hdown 0 a (by omega) ha) (hdown 1 b (by omega) hb)
      exact target_ne hsnapshot.nodup hsnapshot.two_le hstart (by rw [ha, hb, hsame])
  · exact h
  · exact h

theorem spared_step (hlabel : Benign down label) (hr : r.counter + 1 < 2 ^ 64)
    (h : Spare down r.replicas ∧ ∀ phase ∈ r.connections, Spared down phase) :
    Spare down (r.step label).replicas ∧
      ∀ phase ∈ (r.step label).connections, Spared down phase := by
  cases label with
  | swap rs => exact ⟨hlabel, h.2⟩
  | halt => exact h
  | poll incoming =>
    simp only [Relay.step]
    split
    · exact h
    · refine ⟨h.1, fun phase hphase => ?_⟩
      cases incoming with
      | false => exact h.2 phase hphase
      | true =>
        rw [if_pos rfl, List.mem_append, List.mem_singleton] at hphase
        rcases hphase with hphase | rfl
        · exact h.2 phase hphase
        · trivial
    · exact h
  | handle i x =>
    simp only [Relay.step]
    split
    · rename_i phase hphase
      refine ⟨h.1, fun phase' hphase' => ?_⟩
      rcases List.mem_or_eq_of_mem_set hphase' with hbefore | rfl
      · exact h.2 phase' hbefore
      · exact spared_handle hlabel hr h.1 (h.2 phase (List.mem_of_getElem? hphase))
    · exact h

/-! ## The relay -/

/-- **What a service's relay does**, over a run from its first replicas. -/
structure Serves (replicas : List A) (labels : List (RelayLabel A)) : Prop where
  /-- Connections are spread evenly: no replica is first for more than one
  connection above another, while the list is not swapped. -/
  even : (∀ rs, .swap rs ∉ labels) →
    (∀ phase ∈ ((new replicas).run labels).connections, ∀ snapshot,
      phase.snapshot? = some snapshot → snapshot = replicas) ∧
    ∀ j < replicas.length,
      ((new replicas).run labels).starts.length / replicas.length ≤
        ((new replicas).run labels).starts.countP
          (fun start => decide (position replicas start 0 = j)) ∧
      ((new replicas).run labels).starts.countP
          (fun start => decide (position replicas start 0 = j)) ≤
        ((new replicas).run labels).starts.length / replicas.length + 1
  /-- A connection accepted since the last swap knows no other replicas. -/
  listed : ∀ past later, labels = past ++ later → (∀ rs, .swap rs ∉ later) →
    ∀ i phase snapshot, ((new replicas).run past).connections.length ≤ i →
      ((new replicas).run labels).connections[i]? = some phase →
      phase.snapshot? = some snapshot → snapshot = ((new replicas).run past).replicas
  /-- Once told to stop, the listener accepts one connection more at most. -/
  stops : ∀ past later, labels = past ++ later → ((new replicas).run past).stop = true →
    ((new replicas).run labels).connections.length ≤
      ((new replicas).run past).connections.length + 1
  /-- One replica that is down costs no connection, where there are two. -/
  spared : ∀ down : Set A, Spare down replicas → (∀ label ∈ labels, Benign down label) →
    ∀ e, .closed e ∈ ((new replicas).run labels).connections →
      ∃ snapshot start attempt a, e = .relayed snapshot start attempt ∧
        target snapshot start attempt = some a

theorem relay_serves (replicas : List A) (labels : List (RelayLabel A))
    (hlabels : labels.length < 2 ^ 64) : Serves replicas labels := by
  refine ⟨fun hswap => ⟨fun phase hphase snapshot hsnapshot => ?_, fun j hj => ?_⟩,
    ?_, ?_, fun down hspare hbenign e he => ?_⟩
  · have hlisted : Listed 0 replicas ((new replicas).run labels) := by
      refine Listed.run (fun label hlabel rs heq => hswap rs (heq ▸ hlabel)) ⟨rfl, ?_⟩
      intro i phase snapshot _ hphase
      cases hphase
    obtain ⟨i, hi⟩ := List.getElem?_of_mem hphase
    exact hlisted.known i phase snapshot (Nat.zero_le i) hi hsnapshot
  · exact countP_starts replicas hlabels hj
  · rintro past later rfl hswap i phase snapshot hi hphase hsnapshot
    have hlisted : Listed ((new replicas).run past).connections.length
        ((new replicas).run past).replicas ((new replicas).run past) := by
      refine ⟨rfl, fun k phase' _ hk hphase' => ?_⟩
      rw [List.getElem?_eq_none hk] at hphase'
      cases hphase'
    have hrun : Listed ((new replicas).run past).connections.length
        ((new replicas).run past).replicas (((new replicas).run past).run later) :=
      hlisted.run fun label hlabel rs heq => hswap rs (heq ▸ hlabel)
    rw [Relay.run, List.foldl_append] at hphase
    exact hrun.known i phase snapshot hi hphase hsnapshot
  · rintro past later rfl hstop
    rw [Relay.run, List.foldl_append]
    exact (Stopping.run ⟨hstop, fun _ => le_refl _, Nat.le_succ _⟩ later).length_le
  · have hrun : Spare down ((new replicas).run labels).replicas ∧
        ∀ phase ∈ ((new replicas).run labels).connections, Spared down phase :=
      run_keeps (P := Benign down) (fun r label hlabel hr h => spared_step hlabel hr h) hbenign
        ((Nat.zero_add _).trans_lt hlabels) ⟨hspare, fun phase hphase => by cases hphase⟩
    have hspared := hrun.2 _ he
    cases e with
    | relayed snapshot start attempt =>
      obtain ⟨a, ha⟩ := target_eq_some hspared.two_le start attempt
      exact ⟨snapshot, start, attempt, a, rfl, ha⟩
    | _ => exact hspared.elim

/-- Two connections, of two replicas. -/
theorem relay_serves_two : Serves ["10.0.1.2:80", "10.0.2.2:80"]
    [.poll false, .poll true, .poll false, .poll true, .handle 1 ⟨fun _ => true, true⟩,
      .handle 0 ⟨fun _ => true, true⟩, .handle 1 ⟨fun _ => true, true⟩] :=
  relay_serves _ _ (by decide)

end Relay

end Agent

end Keel
