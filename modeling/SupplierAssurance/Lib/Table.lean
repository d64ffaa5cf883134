import Mathlib.Data.List.Nodup
import Mathlib.Data.List.Perm.Basic
import Mathlib.Order.Lattice

/-! # Relational tables with two unique constraints

A `Table pk alt` is the content of a relational table whose rows are pairwise
distinct under the primary key `pk` and under a second unique constraint `alt`.
Both constraints are fields, so a table that breaks one cannot be built:
`insert?` refuses a conflicting row and `updateWhere` only takes updates that
leave both keys alone.

A table without a second constraint is `Table pk pk`.
-/

namespace SupplierAssurance.Lib

universe u v w

/-! ## Rows that a key tells apart -/

section Key

variable {ρ : Type u} {κ : Type v} {key : ρ → κ} {rows : List ρ} {r : ρ} {k : κ}

theorem map_key_updateWhere {p : ρ → Bool} {f : ρ → ρ} (keeps : ∀ r, key (f r) = key r) (rows : List ρ) :
    (rows.map fun r => if p r then f r else r).map key = rows.map key := by
  rw [List.map_map]
  apply List.map_congr_left
  intro r _
  rw [Function.comp_apply]
  split
  · exact keeps r
  · rfl

theorem nodup_key_concat (distinct : (rows.map key).Nodup) (fresh : key r ∉ rows.map key) :
    ((rows ++ [r]).map key).Nodup := by
  rw [List.map_append, List.map_singleton]
  apply distinct.append (List.nodup_singleton _)
  simpa using fresh

variable [DecidableEq κ]

theorem find?_key_eq_some (distinct : (rows.map key).Nodup) :
    (rows.find? fun r => key r = k) = some r ↔ r ∈ rows ∧ key r = k := by
  constructor
  · intro found
    exact ⟨List.mem_of_find?_eq_some found, by simpa using List.find?_some found⟩
  · rintro ⟨member, rfl⟩
    cases found : rows.find? fun r' => key r' = key r with
    | none => simpa using List.find?_eq_none.mp found r member
    | some r' =>
      have same : key r' = key r := by simpa using List.find?_some found
      rw [List.inj_on_of_nodup_map distinct (List.mem_of_find?_eq_some found) member same]

theorem find?_key_updateWhere {p : ρ → Bool} {f : ρ → ρ} (keeps : ∀ r, key (f r) = key r) :
    ((rows.map fun r => if p r then f r else r).find? fun r => key r = k) =
      (rows.find? fun r => key r = k).map fun r => if p r then f r else r := by
  have same : ((fun r => decide (key r = k)) ∘ fun r => if p r then f r else r) =
      fun r => decide (key r = k) := by
    funext r
    simp only [Function.comp_apply]
    split
    · rw [keeps r]
    · rfl
  rw [List.find?_map, same]

theorem find?_key_concat (distinct : ((rows ++ [r]).map key).Nodup) :
    ((rows ++ [r]).find? fun r => key r = k) =
      if key r = k then some r else rows.find? fun r => key r = k := by
  by_cases here : key r = k
  · rw [if_pos here]
    exact (find?_key_eq_some distinct).mpr ⟨by simp, here⟩
  · simp [List.find?_append, here]

end Key

/-! ## Tables -/

/-- Rows in insertion order, unique under `pk` and under `alt`. -/
structure Table {ρ : Type u} {κ : Type v} {κ' : Type w} (pk : ρ → κ) (alt : ρ → κ') where
  rows : List ρ
  pkUnique : (rows.map pk).Nodup
  altUnique : (rows.map alt).Nodup

namespace Table

variable {ρ : Type u} {κ : Type v} {κ' : Type w} {pk : ρ → κ} {alt : ρ → κ'}

def empty : Table pk alt := ⟨[], List.nodup_nil, List.nodup_nil⟩

/-- An update that leaves both keys of every row alone. -/
def KeepsKeys (pk : ρ → κ) (alt : ρ → κ') (f : ρ → ρ) : Prop :=
  ∀ r, pk (f r) = pk r ∧ alt (f r) = alt r

/-- `UPDATE … SET f WHERE p`. -/
def updateWhere (table : Table pk alt) (p : ρ → Bool) (f : ρ → ρ) (keeps : KeepsKeys pk alt f) :
    Table pk alt where
  rows := table.rows.map fun r => if p r then f r else r
  pkUnique := by
    rw [map_key_updateWhere fun r => (keeps r).1]
    exact table.pkUnique
  altUnique := by
    rw [map_key_updateWhere fun r => (keeps r).2]
    exact table.altUnique

/-- `DELETE … WHERE p`. -/
def deleteWhere (table : Table pk alt) (p : ρ → Bool) : Table pk alt where
  rows := table.rows.filter fun r => !p r
  pkUnique := table.pkUnique.sublist (List.filter_sublist.map pk)
  altUnique := table.altUnique.sublist (List.filter_sublist.map alt)

@[simp] theorem rows_empty : (empty : Table pk alt).rows = [] := rfl

theorem eq_of_pk {table : Table pk alt} {r r' : ρ} (h : r ∈ table.rows) (h' : r' ∈ table.rows)
    (same : pk r = pk r') : r = r' :=
  List.inj_on_of_nodup_map table.pkUnique h h' same

theorem eq_of_alt {table : Table pk alt} {r r' : ρ} (h : r ∈ table.rows) (h' : r' ∈ table.rows)
    (same : alt r = alt r') : r = r' :=
  List.inj_on_of_nodup_map table.altUnique h h' same

theorem map_pk_updateWhere {table : Table pk alt} {p : ρ → Bool} {f : ρ → ρ}
    {keeps : KeepsKeys pk alt f} : (table.updateWhere p f keeps).rows.map pk = table.rows.map pk :=
  map_key_updateWhere (fun r => (keeps r).1) table.rows

theorem exists_pk_updateWhere {table : Table pk alt} {p : ρ → Bool} {f : ρ → ρ}
    {keeps : KeepsKeys pk alt f} {k : κ} (exists_ : ∃ r ∈ table.rows, pk r = k) :
    ∃ r ∈ (table.updateWhere p f keeps).rows, pk r = k := by
  rw [← List.mem_map, map_pk_updateWhere]
  exact List.mem_map.mpr exists_

section PrimaryKey

variable [DecidableEq κ]

/-- `session.get(Record, k)`. -/
def find? (table : Table pk alt) (k : κ) : Option ρ :=
  table.rows.find? fun r => pk r = k

theorem find?_eq_some {table : Table pk alt} {k : κ} {r : ρ} :
    table.find? k = some r ↔ r ∈ table.rows ∧ pk r = k :=
  find?_key_eq_some table.pkUnique

theorem find?_eq_none {table : Table pk alt} {k : κ} :
    table.find? k = none ↔ ∀ r ∈ table.rows, pk r ≠ k := by
  simp [find?, List.find?_eq_none]

theorem find?_updateWhere {table : Table pk alt} {p : ρ → Bool} {f : ρ → ρ}
    {keeps : KeepsKeys pk alt f} (k : κ) :
    (table.updateWhere p f keeps).find? k =
      (table.find? k).map fun r => if p r then f r else r :=
  find?_key_updateWhere fun r => (keeps r).1

/-- Looking a key up after an insert. -/
theorem find?_of_rows_concat {table table' : Table pk alt} {r : ρ}
    (rows : table'.rows = table.rows ++ [r]) (k : κ) :
    table'.find? k = if pk r = k then some r else table.find? k := by
  have distinct := table'.pkUnique
  rw [rows] at distinct
  rw [find?, rows]
  exact find?_key_concat distinct

end PrimaryKey

section UniqueConstraint

variable [DecidableEq κ']

/-- `SELECT … WHERE alt = k`, at most one row by the unique constraint. -/
def findAlt? (table : Table pk alt) (k : κ') : Option ρ :=
  table.rows.find? fun r => alt r = k

theorem findAlt?_eq_some {table : Table pk alt} {k : κ'} {r : ρ} :
    table.findAlt? k = some r ↔ r ∈ table.rows ∧ alt r = k :=
  find?_key_eq_some table.altUnique

theorem findAlt?_eq_none {table : Table pk alt} {k : κ'} :
    table.findAlt? k = none ↔ ∀ r ∈ table.rows, alt r ≠ k := by
  simp [findAlt?, List.find?_eq_none]

theorem findAlt?_updateWhere {table : Table pk alt} {p : ρ → Bool} {f : ρ → ρ}
    {keeps : KeepsKeys pk alt f} (k : κ') :
    (table.updateWhere p f keeps).findAlt? k =
      (table.findAlt? k).map fun r => if p r then f r else r :=
  find?_key_updateWhere fun r => (keeps r).2

theorem findAlt?_of_rows_concat {table table' : Table pk alt} {r : ρ}
    (rows : table'.rows = table.rows ++ [r]) (k : κ') :
    table'.findAlt? k = if alt r = k then some r else table.findAlt? k := by
  have distinct := table'.altUnique
  rw [rows] at distinct
  rw [findAlt?, rows]
  exact find?_key_concat distinct

end UniqueConstraint

section Insert

variable [DecidableEq κ] [DecidableEq κ']

/-- `INSERT`: `none` when a unique constraint is violated. -/
def insert? (table : Table pk alt) (r : ρ) : Option (Table pk alt) :=
  if h : pk r ∉ table.rows.map pk ∧ alt r ∉ table.rows.map alt then
    some {
      rows := table.rows ++ [r]
      pkUnique := nodup_key_concat table.pkUnique h.1
      altUnique := nodup_key_concat table.altUnique h.2 }
  else none

/-- What a successful insert says: no row held either key, and the row is added. -/
theorem insert?_eq_some {table table' : Table pk alt} {r : ρ}
    (inserted : table.insert? r = some table') :
    table'.rows = table.rows ++ [r] ∧ (∀ old ∈ table.rows, pk old ≠ pk r) ∧
      ∀ old ∈ table.rows, alt old ≠ alt r := by
  unfold insert? at inserted
  split at inserted
  next fresh =>
    cases inserted
    refine ⟨rfl, ?_, ?_⟩
    · intro old member same
      exact fresh.1 (List.mem_map.mpr ⟨old, member, same⟩)
    · intro old member same
      exact fresh.2 (List.mem_map.mpr ⟨old, member, same⟩)
  next => cases inserted

/-- A row with two fresh keys is inserted. -/
theorem insert?_isSome (table : Table pk alt) {r : ρ} (pkFresh : ∀ old ∈ table.rows, pk old ≠ pk r)
    (altFresh : ∀ old ∈ table.rows, alt old ≠ alt r) : (table.insert? r).isSome := by
  have fresh : pk r ∉ table.rows.map pk ∧ alt r ∉ table.rows.map alt := by
    simpa [List.mem_map] using And.intro pkFresh altFresh
  rw [insert?, dif_pos fresh]
  rfl

/-- Two tables with the same keys accept the same keys. -/
theorem insert?_isSome_congr {ρ' : Type u} {pk' : ρ' → κ} {alt' : ρ' → κ'} {table : Table pk alt}
    {table' : Table pk' alt'} {r : ρ} {r' : ρ'} (pks : table'.rows.map pk' = table.rows.map pk)
    (alts : table'.rows.map alt' = table.rows.map alt) (samePk : pk' r' = pk r)
    (sameAlt : alt' r' = alt r) : (table'.insert? r').isSome = (table.insert? r).isSome := by
  rw [insert?, insert?]
  simp only [pks, alts, samePk, sameAlt]
  split <;> rfl

end Insert

end Table

/-! ## Rows in the order of a key -/

/-- There is one way to order rows by a key that tells them apart. -/
theorem eq_of_perm_of_increasing {ρ : Type u} {κ : Type v} [LinearOrder κ] {key : ρ → κ}
    {rows rows' : List ρ} (same : rows.Perm rows') (ordered : rows.Pairwise fun r r' => key r ≤ key r')
    (increasing : rows'.Pairwise fun r r' => key r < key r') : rows = rows' := by
  have distinct : ∀ ⦃r⦄, r ∈ rows' → ∀ ⦃r'⦄, r' ∈ rows' → key r = key r' → r = r' :=
    List.Pairwise.forall_of_forall_of_flip (fun _ _ _ => rfl)
      (increasing.imp fun {r r'} less equal => absurd equal (ne_of_lt less))
      (increasing.imp fun {r r'} less equal => absurd equal.symm (ne_of_lt less))
  have weaker := increasing.imp fun {r r'} less => le_of_lt less
  apply List.Perm.eq_of_pairwise _ ordered weaker same
  intro r r' member member' le ge
  exact distinct (same.mem_iff.mp member) member' (le_antisymm le ge)

end SupplierAssurance.Lib
