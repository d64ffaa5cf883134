import Mathlib.Data.List.Infix

/-! # Splitting a list at the first occurrence of a marker

`splitOnce marker s` is the pair before and after the leftmost occurrence of `marker` in
`s`, and `none` when there is no occurrence.  An occurrence is a decomposition
`s = before ++ marker ++ after`; a marker that occurs once is found where it is.
-/

namespace SupplierAssurance.Lib

universe u

variable {α : Type u} [DecidableEq α] {marker s before after : List α}

def splitOnce (marker : List α) : List α → Option (List α × List α)
  | [] => if marker = [] then some ([], []) else none
  | c :: rest =>
    if marker.isPrefixOf (c :: rest) then some ([], (c :: rest).drop marker.length)
    else (splitOnce marker rest).map fun (before, after) => (c :: before, after)

/-- What is found is an occurrence. -/
theorem eq_append_of_splitOnce (found : splitOnce marker s = some (before, after)) :
    s = before ++ marker ++ after := by
  induction s generalizing before after with
  | nil =>
    simp only [splitOnce] at found
    split at found
    next empty =>
      cases found
      simp [empty]
    next => cases found
  | cons c rest ih =>
    simp only [splitOnce] at found
    split at found
    next here =>
      cases found
      obtain ⟨tail, rejoined⟩ := List.isPrefixOf_iff_prefix.mp here
      rw [← rejoined, List.drop_left]
      simp
    next =>
      obtain ⟨⟨front, back⟩, later, same⟩ := Option.map_eq_some_iff.mp found
      cases same
      rw [ih later]
      simp

/-- An occurrence is found, possibly at an earlier place. -/
theorem splitOnce_append_isSome (before after : List α) :
    (splitOnce marker (before ++ marker ++ after)).isSome := by
  induction before with
  | nil =>
    cases joined : marker ++ after with
    | nil =>
      obtain ⟨rfl, rfl⟩ := List.append_eq_nil_iff.mp joined
      simp [splitOnce]
    | cons c rest =>
      have here : marker.isPrefixOf (c :: rest) = true :=
        List.isPrefixOf_iff_prefix.mpr ⟨after, joined⟩
      simp [splitOnce, joined, here]
  | cons c front ih =>
    simp only [List.cons_append, splitOnce]
    split
    · rfl
    · rw [Option.isSome_map]
      exact ih

/-- The occurrences of a marker in a given list can be checked position by position. -/
theorem front_eq_of_positions {n : Nat}
    (positions : ∀ i ≤ s.length, marker.isPrefixOf (s.drop i) → i = n)
    (occurs : s = before ++ marker ++ after) : before = s.take n := by
  have position : before.length = n := by
    apply positions
    · rw [occurs, List.append_assoc, List.length_append]
      omega
    · rw [occurs, List.append_assoc, List.drop_left]
      exact List.isPrefixOf_iff_prefix.mpr (List.prefix_append _ _)
  rw [occurs, ← position, List.append_assoc, List.take_left]

/-- A marker with one occurrence. -/
theorem splitOnce_eq_of_unique
    (unique : ∀ front back, before ++ marker ++ after = front ++ marker ++ back →
      front = before ∧ back = after) :
    splitOnce marker (before ++ marker ++ after) = some (before, after) := by
  obtain ⟨⟨front, back⟩, found⟩ :=
    Option.isSome_iff_exists.mp (splitOnce_append_isSome before after)
  obtain ⟨rfl, rfl⟩ := unique front back (eq_append_of_splitOnce found)
  exact found

/-! ## A marker of one element -/

variable {x : α} {front front' back back' : List α}

omit [DecidableEq α] in
/-- Fronts without the marker are cut off at the same place. -/
theorem append_cons_inj (free : x ∉ front) (free' : x ∉ front')
    (same : front ++ x :: back = front' ++ x :: back') : front = front' ∧ back = back' := by
  induction front generalizing front' with
  | nil =>
    cases front' with
    | nil => exact ⟨rfl, (List.cons.inj same).2⟩
    | cons d rest => exact absurd ((List.cons.inj same).1 ▸ List.mem_cons_self) free'
  | cons c front ih =>
    cases front' with
    | nil => exact absurd ((List.cons.inj same).1 ▸ List.mem_cons_self) free
    | cons d rest =>
      obtain ⟨rfl, later⟩ := List.cons.inj same
      obtain ⟨rfl, backs⟩ := ih (fun member => free (List.mem_cons_of_mem _ member))
        (fun member => free' (List.mem_cons_of_mem _ member)) later
      exact ⟨rfl, backs⟩

/-- A marker is found behind a front without its first element. -/
theorem splitOnce_of_head_notMem (free : x ∉ front) (back : List α) :
    splitOnce (x :: marker) (front ++ (x :: marker ++ back)) = some (front, back) := by
  induction front with
  | nil =>
    have here : (x :: marker).isPrefixOf (x :: marker ++ back) = true :=
      List.isPrefixOf_iff_prefix.mpr (List.prefix_append _ _)
    rw [List.nil_append, List.cons_append, splitOnce, ← List.cons_append, if_pos here, List.drop_left]
  | cons c front ih =>
    obtain ⟨other, later⟩ := not_or.mp (List.mem_cons.not.mp free)
    have notHere : ¬ (x :: marker).isPrefixOf (c :: (front ++ (x :: marker ++ back))) := by
      simp [List.isPrefixOf, other]
    rw [List.cons_append, splitOnce, if_neg notHere, ih later, Option.map_some]

end SupplierAssurance.Lib
