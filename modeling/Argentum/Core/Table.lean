import Mathlib.Data.List.Basic
import Mathlib.Data.List.Nodup
import Mathlib.Data.List.Count

/-! Tables with a primary key, in row order. Uniqueness of the key is a field,
so no operation can build a table in which a key names two rows. Selecting,
inserting and updating follow SQL: an insert under a taken key fails, an update
maps the selected rows in place and leaves every key alone. -/
namespace Argentum
universe u v

/-- The primary key column of a row type. -/
class Keyed (ρ : Type u) (κ : outParam (Type v)) where
  key : ρ → κ

open Keyed (key)

structure Table (ρ : Type u) {κ : Type v} [Keyed ρ κ] where
  rows : List ρ
  unique : (rows.map key).Nodup

namespace Table
variable {ρ : Type u} {κ : Type v} [Keyed ρ κ]

@[ext] theorem ext {first second : Table ρ} (same : first.rows = second.rows) : first = second := by
  cases first
  cases second
  cases same
  rfl

def empty : Table ρ := ⟨[], List.nodup_nil⟩

@[simp] theorem rows_empty : (empty : Table ρ).rows = [] := rfl

/-- `UPDATE ... SET f WHERE p`, for an assignment that does not touch the key. -/
def update (table : Table ρ) (p : ρ → Bool) (f : ρ → ρ) (keeps : ∀ row, key (f row) = key row) :
    Table ρ where
  rows := table.rows.map (fun row => if p row then f row else row)
  unique := by
    have same : (fun row => key (if p row then f row else row)) = (key : ρ → κ) := by
      funext row
      split
      · exact keeps row
      · rfl
    rw [List.map_map, Function.comp_def, same]
    exact table.unique

/-- `UPDATE ... SET f WHERE p`, for an assignment to the key: it fails where two rows
would share one. -/
def rekey? [DecidableEq κ] (table : Table ρ) (p : ρ → Bool) (f : ρ → ρ) : Option (Table ρ) :=
  if unique : ((table.rows.map fun row => if p row then f row else row).map key).Nodup then
    some ⟨table.rows.map fun row => if p row then f row else row, unique⟩
  else none

theorem rows_rekey [DecidableEq κ] {table next : Table ρ} {p : ρ → Bool} {f : ρ → ρ}
    (updated : table.rekey? p f = some next) :
    next.rows = table.rows.map fun row => if p row then f row else row := by
  unfold rekey? at updated
  split at updated
  · cases updated
    rfl
  · cases updated

section
variable {table : Table ρ} {p : ρ → Bool} {f : ρ → ρ} {keeps : ∀ row, key (f row) = key row}

@[simp] theorem rows_update :
    (table.update p f keeps).rows = table.rows.map (fun row => if p row then f row else row) := rfl

end

variable [DecidableEq κ]

/-- `SELECT * ... WHERE key = ?`. -/
def find? (table : Table ρ) (k : κ) : Option ρ := table.rows.find? (fun row => decide (key row = k))

/-- `INSERT`, failing where the key is taken. -/
def insert? (table : Table ρ) (row : ρ) : Option (Table ρ) :=
  if fresh : ∀ old ∈ table.rows, key old ≠ key row then
    some ⟨table.rows ++ [row], by
      rw [List.map_append, List.map_singleton, List.nodup_append]
      refine ⟨table.unique, List.nodup_singleton _, ?_⟩
      intro taken member other single
      obtain ⟨old, stored, rfl⟩ := List.mem_map.mp member
      rw [List.mem_singleton.mp single]
      exact fresh old stored⟩
  else none

variable {table next : Table ρ} {row : ρ} {k : κ}

@[simp] theorem find?_empty : (empty : Table ρ).find? k = none := rfl

theorem find?_eq_some_iff : table.find? k = some row ↔ row ∈ table.rows ∧ key row = k := by
  constructor
  · intro found
    exact ⟨List.mem_of_find?_eq_some found, by simpa using List.find?_some found⟩
  · rintro ⟨member, rfl⟩
    cases found : table.find? (key row) with
    | none => simpa using List.find?_eq_none.mp found row member
    | some other =>
        have named : key other = key row := by simpa using List.find?_some found
        have same := List.inj_on_of_nodup_map table.unique
          (List.mem_of_find?_eq_some found) member named
        rw [same]

theorem find?_key (found : table.find? k = some row) : key row = k := (find?_eq_some_iff.mp found).2

theorem find?_mem (found : table.find? k = some row) : row ∈ table.rows := (find?_eq_some_iff.mp found).1

theorem find?_eq_none_iff : table.find? k = none ↔ ∀ row ∈ table.rows, key row ≠ k := by
  simp [find?, List.find?_eq_none]

/-- An update reads through the key: the row found afterwards is the row found
before, with the assignment applied when it was selected. -/
theorem find?_update {p : ρ → Bool} {f : ρ → ρ} {keeps : ∀ row, key (f row) = key row} :
    (table.update p f keeps).find? k =
      (table.find? k).map (fun row => if p row then f row else row) := by
  have same : (fun row => decide (key row = k)) ∘ (fun row => if p row then f row else row) =
      fun row => decide (key row = k) := by
    funext row
    simp only [Function.comp_apply]
    split
    · rw [keeps]
    · rfl
  rw [find?, rows_update, List.find?_map, same]
  rfl

/-- An update of the row under one key. -/
theorem find?_update_key {p : ρ → Bool} {f : ρ → ρ} {keeps : ∀ row, key (f row) = key row} {named : κ}
    (selects : ∀ row, p row = decide (key row = named)) :
    (table.update p f keeps).find? k = if named = k then (table.find? k).map f else table.find? k := by
  rw [find?_update]
  cases found : table.find? k with
  | none => simp
  | some row =>
      have same := find?_key found
      subst same
      by_cases taken : named = key row
      · simp [selects, taken]
      · simp [selects, taken, Ne.symm taken]

/-- An update of the row under one key rewrites that row where it stands. -/
theorem rows_update_key {p : ρ → Bool} {f : ρ → ρ} (keeps : ∀ row, key (f row) = key row)
    (selects : ∀ row ∈ table.rows, p row = decide (key row = k)) (found : table.find? k = some row) :
    ∃ before after, table.rows = before ++ row :: after ∧
      (table.update p f keeps).rows = before ++ f row :: after := by
  obtain ⟨member, named⟩ := find?_eq_some_iff.mp found
  obtain ⟨before, after, split⟩ := List.mem_iff_append.mp member
  have distinct := table.unique
  rw [split, List.map_append, List.map_cons, List.nodup_append, List.nodup_cons] at distinct
  obtain ⟨_, ⟨later, _⟩, earlier⟩ := distinct
  have untouched : ∀ rows : List ρ, (∀ other ∈ rows, other ∈ table.rows) → (∀ other ∈ rows, key other ≠ k) →
      rows.map (fun row => if p row then f row else row) = rows := by
    intro rows within apart
    calc rows.map (fun row => if p row then f row else row) = rows.map id :=
          List.map_congr_left fun other stored => by simp [selects other (within other stored), apart other stored]
      _ = rows := List.map_id rows
  refine ⟨before, after, split, ?_⟩
  rw [rows_update, split, List.map_append, List.map_cons, untouched before, untouched after]
  · simp [selects row member, named]
  · exact fun other stored => split ▸ List.mem_append_right _ (List.mem_cons_of_mem _ stored)
  · intro other stored same
    exact later (List.mem_map.mpr ⟨other, stored, same.trans named.symm⟩)
  · exact fun other stored => split ▸ List.mem_append_left _ stored
  · intro other stored same
    exact earlier (key other) (List.mem_map_of_mem stored) (key row) (by simp) (same.trans named.symm)

theorem insert?_eq_some_iff : table.insert? row = some next ↔
    next.rows = table.rows ++ [row] ∧ table.find? (key row) = none := by
  rw [find?_eq_none_iff]
  unfold insert?
  split
  · rename_i fresh
    rw [Option.some.injEq]
    constructor
    · rintro rfl
      exact ⟨rfl, fresh⟩
    · rintro ⟨rows, _⟩
      exact ext rows.symm
  · rename_i taken
    exact ⟨fun failed => by contradiction, fun fresh => absurd fresh.2 taken⟩

theorem insert?_isSome_iff : (table.insert? row).isSome ↔ table.find? (key row) = none := by
  rw [find?_eq_none_iff]
  unfold insert?
  split <;> simp_all

theorem rows_insert (inserted : table.insert? row = some next) : next.rows = table.rows ++ [row] :=
  (insert?_eq_some_iff.mp inserted).1

theorem find?_insert (inserted : table.insert? row = some next) (k : κ) :
    next.find? k = if key row = k then some row else table.find? k := by
  obtain ⟨rows, fresh⟩ := insert?_eq_some_iff.mp inserted
  rw [find?, rows, List.find?_append]
  by_cases named : key row = k
  · subst named
    have absent : table.rows.find? (fun old => decide (key old = key row)) = none := fresh
    simp [absent]
  · simp [named, find?]

/-- A key is there once at most. -/
theorem countP_key_le (table : Table ρ) (k : κ) : table.rows.countP (fun row => decide (key row = k)) ≤ 1 := by
  have counted : table.rows.countP (fun row => decide (key row = k)) =
      (table.rows.map key).countP fun other => decide (other = k) := by
    rw [List.countP_map]
    rfl
  rw [counted]
  exact List.nodup_iff_count_le_one.mp table.unique k

end Table

/-- What is there once at most is what a search finds. -/
theorem find?_of_countP_le_one {α : Type*} {p : α → Bool} {items : List α} {item : α} (once : items.countP p ≤ 1)
    (member : item ∈ items) (holds : p item) : items.find? p = some item := by
  induction items with
  | nil => cases member
  | cons first rest ih =>
      rw [List.countP_cons] at once
      cases here : p first with
      | true =>
          rw [List.find?_cons_of_pos here]
          rcases List.mem_cons.mp member with rfl | later
          · rfl
          · have counted := List.countP_pos_iff.mpr ⟨item, later, holds⟩
            rw [here, if_pos rfl] at once
            omega
      | false =>
          rw [List.find?_cons_of_neg (by simp [here])]
          rcases List.mem_cons.mp member with rfl | later
          · rw [here] at holds
            cases holds
          · exact ih (by omega) later

end Argentum
