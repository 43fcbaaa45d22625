import Keel.Spec.Names
import Keel.Node.Helpers.Frame
/-!
# Jails are apart

What the reconciler keeps on the machine for a jail is named after it: the
jail, its dataset, its epair and its mounts. Two jails share none of
these, as long as their names are valid and their ordinals differ.
-/

namespace Keel

namespace Node

open Agent (JailRecord)

theorem jailName_inj {name name' : String} (h : jailName name = jailName name') : name = name' :=
  (String.append_right_inj _).1 h

theorem jailDatasetPath_inj {pool name name' : String}
    (h : jailDatasetPath pool name = jailDatasetPath pool name') : name = name' :=
  (String.append_right_inj _).1 h

theorem epairBaseName_inj {i j : ℕ} (h : epairBaseName i = epairBaseName j) : i = j :=
  toString_inj.1 ((String.append_right_inj _).1 h)

theorem components_append (s s' : List Char) :
    components (s ++ '/' :: s') = components s ++ components s' := by
  rw [components, components, components, List.splitOn_append_cons_self, List.filter_append]

/-- A valid name is one component of a path. -/
theorem components_name {name : String} (h : validateName name = .ok ()) :
    components name.toList = [name.toList] := by
  have hspelt := (validateName_ok_iff.1 h).1
  have hslash : '/' ∉ name.toList := by
    intro hmem
    have := hspelt.chars _ hmem
    revert this
    decide
  have hdot : name.toList ≠ ['.'] := by
    intro heq
    have := hspelt.chars '.' (heq ▸ List.mem_singleton_self '.')
    revert this
    decide
  simp [components, List.splitOn_eq_singleton hslash, hspelt.ne_nil, hdot]

theorem jailRootfsPath_eq (pool : String) {name : String} (h : validateName name = .ok ()) :
    jailRootfsPath pool name =
      components ('/' :: (pool.toList ++ "/keel/jails".toList)) ++ [name.toList] := by
  rw [jailRootfsPath, mountpoint, ← components_name h, ← components_append]
  congr 1
  simp [jailDatasetPath]

/-- Nothing is mounted below two jails. -/
theorem mountTarget_ne {pool name name' : String} (hname : validateName name = .ok ())
    (hname' : validateName name' = .ok ()) (hne : name ≠ name') (path path' : String) :
    mountTarget (jailRootfsPath pool name) path ≠ mountTarget (jailRootfsPath pool name') path' := by
  intro h
  rw [mountTarget, mountTarget, jailRootfsPath_eq pool hname, jailRootfsPath_eq pool hname',
    List.append_assoc, List.append_assoc, List.append_cancel_left_eq, List.singleton_append,
    List.singleton_append, List.cons.injEq] at h
  exact hne (String.toList_injective h.1)

end Node

end Keel
