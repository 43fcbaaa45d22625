import Mathlib.Data.List.DropRight
import Mathlib.Data.List.Infix
/-!
# Lexical paths

A path by its components, one of which (`parent`) leads one level up.
Read from the left, a path leads some levels up from where it starts and
then down through some components: its `route`. The route of two paths
one after the other is that of the first continued by the second
(`route_append`), and the normal form of an absolute path is where it
leads down to, since there is nothing above the root.

From this a path joined to a base is seen to lie below the base by looking
at the path alone, except where it climbs out of the base and comes back
in through the same components (`strictlyBelow_normal_append`).
-/

namespace Keel

namespace Paths

variable {α : Type}

/-- Where a path leads from where it starts: up, and then down. -/
structure Route (α : Type) where
  /-- How many levels up. -/
  ups : ℕ
  /-- The components down from there. -/
  downs : List α
deriving DecidableEq

/-- A route, continued by another. -/
def Route.comp (r s : Route α) : Route α :=
  ⟨r.ups + (s.ups - r.downs.length), r.downs.rdrop s.ups ++ s.downs⟩

theorem Route.comp_nil (r : Route α) : r.comp ⟨0, []⟩ = r := by
  simp [Route.comp]

/-! ## What ends a list -/

theorem rdrop_append_rtake (l : List α) (k : ℕ) : l.rdrop k ++ l.rtake k = l := by
  rw [List.rdrop, List.rtake, List.take_append_drop]

theorem rdrop_eq_nil_of_le {l : List α} {k : ℕ} (h : l.length ≤ k) : l.rdrop k = [] := by
  rw [List.rdrop, Nat.sub_eq_zero_of_le h, List.take_zero]

theorem length_rdrop (l : List α) (k : ℕ) : (l.rdrop k).length = l.length - k := by
  rw [List.rdrop, List.length_take]
  omega

theorem dropLast_rdrop (l : List α) (k : ℕ) : (l.rdrop k).dropLast = l.rdrop (k + 1) := by
  rw [List.rdrop, List.rdrop, List.dropLast_eq_take, List.take_take, List.length_take]
  congr 1
  omega

/-! ## What lies below a path -/

/-- Strictly below: some components further down. -/
def StrictlyBelow (base p : List α) : Prop := base <+: p ∧ base ≠ p

instance [DecidableEq α] (base p : List α) : Decidable (StrictlyBelow base p) :=
  inferInstanceAs (Decidable (_ ∧ _))

theorem strictlyBelow_nil {p : List α} : StrictlyBelow [] p ↔ p ≠ [] := by
  rw [StrictlyBelow, and_iff_right List.nil_prefix, ne_comm]

/-- What both have in front says nothing. -/
theorem strictlyBelow_append {front base p : List α} :
    StrictlyBelow (front ++ base) (front ++ p) ↔ StrictlyBelow base p := by
  rw [StrictlyBelow, StrictlyBelow, List.prefix_append_right_inj, ne_eq, ne_eq,
    List.append_cancel_left_eq]

/-- A path some levels up from a base, and down again, is below the base
when it comes down through the components it went up. -/
theorem strictlyBelow_rdrop_append {base downs : List α} {k : ℕ} :
    StrictlyBelow base (base.rdrop k ++ downs) ↔ StrictlyBelow (base.rtake k) downs := by
  have hbase : base.rdrop k ++ base.rtake k = base := rdrop_append_rtake base k
  calc StrictlyBelow base (base.rdrop k ++ downs)
      ↔ StrictlyBelow (base.rdrop k ++ base.rtake k) (base.rdrop k ++ downs) := by rw [hbase]
    _ ↔ StrictlyBelow (base.rtake k) downs := strictlyBelow_append

/-- And is the base itself when it comes down through just those. -/
theorem rdrop_append_eq_self {base downs : List α} {k : ℕ} :
    base.rdrop k ++ downs = base ↔ downs = base.rtake k := by
  constructor
  · intro h
    refine List.append_cancel_left (h.trans ?_)
    exact (rdrop_append_rtake base k).symm
  · rintro rfl
    exact rdrop_append_rtake base k

/-! ## What a path comes to -/

section Routes

variable [DecidableEq α] (parent : α)

/-- One more component. -/
def Route.step (r : Route α) (c : α) : Route α :=
  if c ≠ parent then ⟨r.ups, r.downs ++ [c]⟩
  else if r.downs = [] then ⟨r.ups + 1, []⟩
  else ⟨r.ups, r.downs.dropLast⟩

def route (p : List α) : Route α := p.foldl (Route.step parent) ⟨0, []⟩

/-- The normal form of an absolute path. -/
def normal (p : List α) : List α := (route parent p).downs

variable {parent} {p q : List α} {c : α}

theorem Route.step_name (hc : c ≠ parent) (r : Route α) :
    r.step parent c = ⟨r.ups, r.downs ++ [c]⟩ := if_pos hc

theorem Route.step_parent (r : Route α) : r.step parent parent =
    if r.downs = [] then ⟨r.ups + 1, []⟩ else ⟨r.ups, r.downs.dropLast⟩ :=
  if_neg (not_not_intro rfl)

@[simp] theorem route_nil : route parent [] = ⟨0, []⟩ := rfl

theorem route_concat : route parent (p ++ [c]) = (route parent p).step parent c := by
  rw [route, route, List.foldl_append]
  rfl

/-- Continuing a route by a step more. -/
theorem Route.comp_step (r s : Route α) :
    r.comp (s.step parent c) = (r.comp s).step parent c := by
  by_cases hc : c = parent
  · subst hc
    rw [Route.step_parent, Route.step_parent]
    by_cases hs : s.downs = []
    · have hdowns : (r.comp s).downs = r.downs.rdrop s.ups := by
        rw [Route.comp, hs, List.append_nil]
      have hlength := length_rdrop r.downs s.ups
      rw [if_pos hs, hdowns]
      by_cases hr : r.downs.rdrop s.ups = []
      · -- nothing is left to go up through
        have hle : r.downs.length ≤ s.ups := by
          rw [hr, List.length_nil] at hlength
          omega
        rw [if_pos hr, Route.comp, rdrop_eq_nil_of_le (by omega : r.downs.length ≤ s.ups + 1)]
        congr 1
        simp only [Route.comp]
        omega
      · have hlt : s.ups < r.downs.length := by
          have := List.length_pos_of_ne_nil hr
          omega
        rw [if_neg hr, dropLast_rdrop, Route.comp, List.append_nil]
        congr 1
        simp only [Route.comp]
        omega
    · have hne : (r.comp s).downs ≠ [] := by
        intro h
        exact hs (List.append_eq_nil_iff.1 h).2
      rw [if_neg hs, if_neg hne, Route.comp, Route.comp]
      simp only
      rw [List.dropLast_append_of_ne_nil hs]
  · rw [Route.step_name hc, Route.step_name hc, Route.comp, Route.comp]
    simp only [List.append_assoc]

/-- **One path after another** leads where the first one's route,
continued by the second's, does. -/
theorem route_append : route parent (p ++ q) = (route parent p).comp (route parent q) := by
  induction q using List.reverseRecOn with
  | nil => rw [List.append_nil, route_nil, Route.comp_nil]
  | append_singleton q c ih => rw [← List.append_assoc, route_concat, ih, route_concat,
      Route.comp_step]

theorem normal_append : normal parent (p ++ q) =
    (normal parent p).rdrop (route parent q).ups ++ (route parent q).downs := by
  rw [normal, route_append, Route.comp, normal]

/-- A path that ends in a name leads down to it. -/
theorem route_append_name (hc : c ≠ parent) : route parent (p ++ [c]) =
    ⟨(route parent p).ups, (route parent p).downs ++ [c]⟩ := by
  rw [route_concat, Route.step_name hc]

/-- **Below a base.** A path joined to a base lies strictly below it
exactly when the path leads down further than it leads up through the
base's own last components. -/
theorem strictlyBelow_normal_append {base : List α} :
    StrictlyBelow (normal parent base) (normal parent (base ++ p)) ↔
      StrictlyBelow ((normal parent base).rtake (route parent p).ups) (route parent p).downs := by
  rw [normal_append, strictlyBelow_rdrop_append]

/-! ## Counting levels -/

theorem ups_le_ups_append : (route parent p).ups ≤ (route parent (p ++ q)).ups := by
  rw [route_append, Route.comp]
  exact Nat.le_add_right _ _

variable [BEq α] [LawfulBEq α]

/-- Every component goes one level up or one level down. -/
theorem route_balance : (route parent p).downs.length + 2 * p.count parent =
    (route parent p).ups + p.length := by
  induction p using List.reverseRecOn with
  | nil => rfl
  | append_singleton p c ih =>
    rw [route_concat, List.count_append, List.length_append, List.length_singleton]
    by_cases hc : c = parent
    · subst hc
      rw [Route.step_parent, List.count_singleton_self]
      by_cases hdowns : (route c p).downs = []
      · rw [if_pos hdowns]
        rw [hdowns] at ih
        simp only [List.length_nil] at ih ⊢
        omega
      · have hpos := List.length_pos_of_ne_nil hdowns
        rw [if_neg hdowns]
        simp only [List.length_dropLast]
        omega
    · rw [Route.step_name hc, List.count_singleton, if_neg (by simpa using hc)]
      simp only [List.length_append, List.length_singleton]
      omega

/-- A path climbs above its start exactly when some beginning of it has
more steps up than names. -/
theorem ups_eq_zero_iff :
    (route parent p).ups = 0 ↔ ∀ q, q <+: p → 2 * q.count parent ≤ q.length := by
  constructor
  · rintro h q ⟨rest, rfl⟩
    have hle : (route parent q).ups ≤ (route parent (q ++ rest)).ups := ups_le_ups_append
    have hbalance : (route parent q).downs.length + 2 * q.count parent =
        (route parent q).ups + q.length := route_balance
    omega
  · induction p using List.reverseRecOn with
    | nil => exact fun _ => rfl
    | append_singleton p c ih =>
      intro h
      have hups : (route parent p).ups = 0 :=
        ih fun q hq => h q (hq.trans (List.prefix_append p [c]))
      have hbalance : (route parent p).downs.length + 2 * p.count parent =
          (route parent p).ups + p.length := route_balance
      have hwhole := h (p ++ [c]) (List.prefix_refl _)
      rw [List.count_append, List.length_append, List.length_singleton] at hwhole
      rw [route_concat]
      by_cases hc : c = parent
      · subst hc
        rw [List.count_singleton_self] at hwhole
        have hdowns : (route c p).downs ≠ [] := by
          intro hnil
          rw [hnil, List.length_nil] at hbalance
          omega
        rw [Route.step_parent, if_neg hdowns]
        exact hups
      · rw [Route.step_name hc]
        exact hups

/-- A path lies strictly below wherever it starts exactly when no
beginning of it has more steps up than names, and the whole fewer. -/
theorem ups_eq_zero_and_downs_ne_nil_iff :
    (route parent p).ups = 0 ∧ (route parent p).downs ≠ [] ↔
      (∀ q, q <+: p → 2 * q.count parent ≤ q.length) ∧ 2 * p.count parent < p.length := by
  rw [ups_eq_zero_iff]
  refine and_congr_right fun h => ?_
  have hups : (route parent p).ups = 0 := ups_eq_zero_iff.2 h
  have hbalance : (route parent p).downs.length + 2 * p.count parent =
      (route parent p).ups + p.length := route_balance
  rw [← List.length_pos_iff]
  omega

end Routes

end Paths

open Paths (Route route)

/-! ## Paths to open -/

/-- A path, from the root or from wherever the process is. -/
structure PathBuf (α : Type) where
  absolute : Bool
  components : List α
deriving DecidableEq

/-- The lexical normal form of a path: nothing leads up from the root. -/
structure Place (α : Type) where
  absolute : Bool
  route : Route α
deriving DecidableEq

/-- An entry of the directory at a place. -/
def Place.entry {α : Type} (place : Place α) (name : α) : Place α :=
  { place with route := { place.route with downs := place.route.downs ++ [name] } }

theorem Place.entry_inj {α : Type} {place place' : Place α} {name name' : α}
    (h : place.entry name = place'.entry name') : place = place' ∧ name = name' := by
  obtain ⟨absolute, ups, downs⟩ := place
  obtain ⟨absolute', ups', downs'⟩ := place'
  simp only [Place.entry, Place.mk.injEq, Route.mk.injEq] at h
  obtain ⟨rfl, rfl, hdowns⟩ := h
  obtain ⟨rfl, hname⟩ := List.append_inj' hdowns rfl
  exact ⟨rfl, List.singleton_inj.1 hname⟩

namespace PathBuf

variable {α : Type}

/-- An absolute path replaces the one it is joined to. -/
def join (p q : PathBuf α) : PathBuf α :=
  if q.absolute then q else ⟨p.absolute, p.components ++ q.components⟩

theorem join_of_absolute {p q : PathBuf α} (h : q.absolute = true) : p.join q = q := if_pos h

theorem join_of_relative {p q : PathBuf α} (h : q.absolute = false) :
    p.join q = ⟨p.absolute, p.components ++ q.components⟩ := by
  rw [join, h]
  rfl

theorem components_join_concat {p q : PathBuf α} {name : α} :
    p.join { q with components := q.components ++ [name] } =
      { p.join q with components := (p.join q).components ++ [name] } := by
  rw [join, join]
  split
  · rfl
  · rw [List.append_assoc]

variable [DecidableEq α] (parent : α)

def place (p : PathBuf α) : Place α :=
  ⟨p.absolute, if p.absolute then ⟨0, (route parent p.components).downs⟩
    else route parent p.components⟩

/-- The path is one of a file directly in a directory. -/
def LiesIn (dir p : PathBuf α) : Prop := ∃ name, p.place parent = (dir.place parent).entry name

variable {parent} {dir p q : PathBuf α} {name : α}

theorem place_concat (hname : name ≠ parent) :
    ({ p with components := p.components ++ [name] } : PathBuf α).place parent =
      (p.place parent).entry name := by
  unfold place Place.entry
  simp only [Paths.route_append_name hname]
  split
  · rfl
  · rfl

/-- A file is directly in a directory when its path, without its name,
leads to the directory. -/
theorem liesIn_concat_iff (hname : name ≠ parent) :
    LiesIn parent dir { p with components := p.components ++ [name] } ↔
      p.place parent = dir.place parent := by
  unfold LiesIn
  rw [place_concat hname]
  constructor
  · rintro ⟨name', h⟩
    exact (Place.entry_inj h).1
  · intro h
    exact ⟨name, by rw [h]⟩

/-- **Leading back.** A path joined to a directory leads to that directory
when it is the directory's own path from the root, or goes up through some
of the directory's last components and comes down through the same. -/
theorem place_join_eq_iff : (dir.join q).place parent = dir.place parent ↔
    if q.absolute then q.place parent = dir.place parent
    else (route parent q.components).downs =
        (dir.place parent).route.downs.rtake (route parent q.components).ups ∧
      (dir.absolute ∨
        (route parent q.components).ups ≤ (dir.place parent).route.downs.length) := by
  cases hq : q.absolute with
  | true => rw [join_of_absolute hq, if_pos rfl]
  | false =>
    rw [join_of_relative hq, if_neg Bool.false_ne_true]
    unfold place
    simp only [Paths.route_append, Route.comp]
    cases dir.absolute with
    | true =>
      simp only [if_true, Place.mk.injEq, Route.mk.injEq, true_and, true_or, and_true]
      exact Paths.rdrop_append_eq_self
    | false =>
      simp only [Bool.false_eq_true, if_false, Place.mk.injEq, true_and, false_or]
      rw [← Paths.rdrop_append_eq_self]
      constructor
      · intro h
        have hups := congrArg Route.ups h
        have hdowns := congrArg Route.downs h
        dsimp only at hups hdowns
        exact ⟨hdowns, by omega⟩
      · rintro ⟨hdowns, hups⟩
        rw [hdowns, Nat.sub_eq_zero_of_le hups, Nat.add_zero]

end PathBuf

end Keel
