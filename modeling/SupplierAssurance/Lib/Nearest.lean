import Mathlib.Data.List.Sort
import Mathlib.Order.Lattice

/-! # The nearest few

A search returns the items with the smallest keys, at most `limit` of them, in the order of the
keys.  Items with the same key may come in any order, and any of them may be left out: `IsNearest`
says what does not depend on this, `nearest` is the choice of a stable sort.  Whatever the choice,
the keys of the result are the same.
-/

namespace SupplierAssurance.Lib

universe u v w

variable {α : Type u} {β : Type w} {κ : Type v} [LinearOrder κ]

/-- The order that a sort by a key puts items in. -/
def ByKey (key : α → κ) (a b : α) : Prop :=
  key a ≤ key b

instance (key : α → κ) : DecidableRel (ByKey key) := fun _ _ => inferInstanceAs (Decidable (_ ≤ _))

instance (key : α → κ) : Std.Total (ByKey key) where
  total a b := le_total (key a) (key b)

instance (key : α → κ) : IsTrans α (ByKey key) where
  trans _ _ _ le le' := le_trans (α := κ) le le'

/-- `picked` are items with the smallest keys, in their order; `rest` are the others. -/
structure NearestSplit (key : α → κ) (limit : Nat) (items picked rest : List α) : Prop where
  parts : (picked ++ rest).Perm items
  count : picked.length = min limit items.length
  ordered : picked.Pairwise (ByKey key)
  closer : ∀ a ∈ picked, ∀ b ∈ rest, key a ≤ key b

def IsNearest (key : α → κ) (limit : Nat) (items picked : List α) : Prop :=
  ∃ rest, NearestSplit key limit items picked rest

/-- `sort(key=key)` and a slice. -/
def nearest (key : α → κ) (limit : Nat) (items : List α) : List α :=
  (items.insertionSort (ByKey key)).take limit

variable {key : α → κ} {limit : Nat} {items items' picked picked' : List α}

theorem nearest_isNearest (key : α → κ) (limit : Nat) (items : List α) :
    IsNearest key limit items (nearest key limit items) := by
  have sorted : (items.insertionSort (ByKey key)).Pairwise (ByKey key) :=
    List.pairwise_insertionSort (ByKey key) items
  refine ⟨(items.insertionSort (ByKey key)).drop limit, ?_, ?_, ?_, ?_⟩
  · rw [nearest, List.take_append_drop]
    exact List.perm_insertionSort (ByKey key) items
  · rw [nearest, List.length_take, List.length_insertionSort]
  · exact sorted.sublist (List.take_sublist limit _)
  · rw [← List.take_append_drop limit (items.insertionSort (ByKey key)), List.pairwise_append] at sorted
    exact sorted.2.2

theorem IsNearest.subset (found : IsNearest key limit items picked) : picked ⊆ items := by
  obtain ⟨rest, split⟩ := found
  intro a member
  exact split.parts.subset (List.mem_append_left rest member)

/-- The order of the items makes no difference. -/
theorem IsNearest.perm (found : IsNearest key limit items picked) (same : items.Perm items') :
    IsNearest key limit items' picked := by
  obtain ⟨rest, split⟩ := found
  exact ⟨rest, split.parts.trans same, by rw [← same.length_eq, split.count], split.ordered, split.closer⟩

/-- A search in another representation of the items. -/
theorem IsNearest.map {key' : β → κ} {f : α → β} (found : IsNearest key limit items picked)
    (keys : ∀ a ∈ items, key' (f a) = key a) : IsNearest key' limit (items.map f) (picked.map f) := by
  have inItems := found.subset
  obtain ⟨rest, split⟩ := found
  have restItems : rest ⊆ items := fun a member => split.parts.subset (List.mem_append_right picked member)
  refine ⟨rest.map f, ?_, ?_, ?_, ?_⟩
  · rw [← List.map_append]
    exact split.parts.map f
  · rw [List.length_map, List.length_map, split.count]
  · rw [List.pairwise_map]
    refine split.ordered.imp_of_mem ?_
    intro a b isPicked isPicked' le
    rw [ByKey, keys a (inItems isPicked), keys b (inItems isPicked')]
    exact le
  · intro a' isPicked b' isRest
    obtain ⟨a, member, rfl⟩ := List.mem_map.mp isPicked
    obtain ⟨b, member', rfl⟩ := List.mem_map.mp isRest
    rw [keys a (inItems member), keys b (restItems member')]
    exact split.closer a member b member'

/-- A key that orders the items as another one does. -/
theorem IsNearest.of_comp {κ' : Type v} [LinearOrder κ'] {g : κ → κ'} (le : ∀ a b, g a ≤ g b ↔ a ≤ b)
    (found : IsNearest (fun a => g (key a)) limit items picked) : IsNearest key limit items picked := by
  obtain ⟨rest, split⟩ := found
  refine ⟨rest, split.parts, split.count, split.ordered.imp fun {a b} => (le (key a) (key b)).mp, ?_⟩
  intro a isPicked b isRest
  exact (le (key a) (key b)).mp (split.closer a isPicked b isRest)

/-- The picked items go in front of the sorted rest. -/
theorem NearestSplit.sorted {rest : List α} (split : NearestSplit key limit items picked rest) :
    (picked ++ rest.insertionSort (ByKey key)).Pairwise (ByKey key) := by
  rw [List.pairwise_append]
  refine ⟨split.ordered, List.pairwise_insertionSort (ByKey key) rest, ?_⟩
  intro a isPicked b isRest
  exact split.closer a isPicked b ((List.mem_insertionSort (ByKey key)).mp isRest)

/-- All answers to a search have the same keys. -/
theorem IsNearest.keys_unique (found : IsNearest key limit items picked)
    (found' : IsNearest key limit items picked') : picked.map key = picked'.map key := by
  obtain ⟨rest, split⟩ := found
  obtain ⟨rest', split'⟩ := found'
  -- both are the front of the sorted keys
  have all : ((picked ++ rest.insertionSort (ByKey key)).map key).Perm
      ((picked' ++ rest'.insertionSort (ByKey key)).map key) := by
    refine List.Perm.map key ?_
    have sorted := List.Perm.append_left picked (List.perm_insertionSort (ByKey key) rest)
    have sorted' := List.Perm.append_left picked' (List.perm_insertionSort (ByKey key) rest')
    exact (sorted.trans (split.parts.trans split'.parts.symm)).trans sorted'.symm
  have same := List.Perm.eq_of_pairwise (fun _ _ _ _ le ge => le_antisymm le ge)
    (List.pairwise_map.mpr split.sorted) (List.pairwise_map.mpr split'.sorted) all
  rw [List.map_append, List.map_append] at same
  refine (List.append_inj same ?_).1
  rw [List.length_map, List.length_map, split.count, split'.count]

/-- Items that the key tells apart have one answer. -/
theorem IsNearest.unique (found : IsNearest key limit items picked)
    (found' : IsNearest key limit items picked') (distinct : (items.map key).Nodup) : picked = picked' := by
  have apart : ∀ a ∈ picked, ∀ b ∈ picked', key a = key b → a = b := fun a isPicked b isPicked' =>
    List.inj_on_of_nodup_map distinct (found.subset isPicked) (found'.subset isPicked')
  have keys := found.keys_unique found'
  clear found found'
  induction picked generalizing picked' with
  | nil => exact (List.map_eq_nil_iff.mp keys.symm).symm
  | cons a rest ih =>
    cases picked' with
    | nil => cases keys
    | cons b rest' =>
      obtain ⟨first, others⟩ := List.cons.inj keys
      rw [apart a List.mem_cons_self b List.mem_cons_self first,
        ih (fun a member b member' => apart a (List.mem_cons_of_mem _ member) b
          (List.mem_cons_of_mem _ member')) others]

end SupplierAssurance.Lib
