import Argentum.Core.Json
import Mathlib.Order.Compare

/-! Python's methods and operators on a JSON value of any kind: what reads a dictionary, cuts
a sequence or orders two values raises where the kind does not have it. Numbers, texts and
lists are ordered, and a NaN is neither below a number nor at least one. -/
namespace Argentum

/-- `items[key] = value` on a dictionary: a new key comes last. -/
def assign {α : Type} (items : List (Str × α)) (key : Str) (value : α) : List (Str × α) :=
  match items with
  | [] => [(key, value)]
  | item :: rest => if item.1 = key then (key, value) :: rest else item :: assign rest key value

section
variable {α : Type} {items : List (Str × α)} {key : Str} {value : α}

theorem lookup_assign (other : Str) :
    (assign items key value).lookup other = if other = key then some value else items.lookup other := by
  induction items with
  | nil =>
      rw [assign, List.lookup_cons]
      split
      · rename_i same
        rw [if_pos (beq_iff_eq.mp same)]
      · rename_i apart
        rw [if_neg fun same => by simp [same] at apart]
  | cons item rest ih =>
      obtain ⟨name, stored⟩ := item
      rw [assign]
      by_cases here : name = key
      · subst here
        rw [if_pos rfl, List.lookup_cons, List.lookup_cons]
        by_cases same : other = name
        · simp [same]
        · simp [same, beq_false_of_ne same]
      · rw [if_neg here, List.lookup_cons, List.lookup_cons, ih]
        by_cases same : other = name
        · subst same
          simp [here]
        · simp [beq_false_of_ne same]

/-- What is assigned is there, and what was there stays or is overwritten. -/
theorem mem_assign {item : Str × α} (member : item ∈ assign items key value) : item = (key, value) ∨ item ∈ items := by
  induction items with
  | nil => exact Or.inl (List.mem_singleton.mp member)
  | cons first rest ih =>
      rw [assign] at member
      split at member
      · rcases List.mem_cons.mp member with same | later
        · exact Or.inl same
        · exact Or.inr (List.mem_cons_of_mem _ later)
      · rcases List.mem_cons.mp member with same | later
        · exact Or.inr (List.mem_cons.mpr (Or.inl same))
        · exact (ih later).imp_right (List.mem_cons_of_mem _)

/-- A filter that drops the key does not see the assignment. -/
theorem filter_assign {keeps : Str → Bool} (dropped : keeps key = false) :
    (assign items key value).filter (fun item => keeps item.1) = items.filter fun item => keeps item.1 := by
  induction items with
  | nil => simp [assign, dropped]
  | cons first rest ih =>
      rw [assign]
      split
      · rename_i same
        simp [dropped, same]
      · rw [List.filter_cons, List.filter_cons, ih]

end

namespace Json

/-- `value.get(key, default)` -/
def fetchD (value : Json) (key : Str) (default : Json) : Except PyError Json :=
  if value.isDict then .ok (value.getD key default) else .error .attributeError

/-- `value.get(key)` -/
def fetch (value : Json) (key : Str) : Except PyError Json := value.fetchD key .null

/-- `value[:n]` -/
def leading (n : Nat) : Json → Except PyError Json
  | .str s => .ok (.str (s.take n))
  | .list items => .ok (.list (items.take n))
  | _ => .error .typeError

/-- How two numbers compare; NaN compares with none. -/
def compareNumbers : Option Number → Option Number → Option Ordering
  | some x, some y => some (cmp x y)
  | _, _ => none

/-- How a number compares with a value. -/
def orderNumber (value : Option Number) (other : Json) : Except PyError (Option Ordering) :=
  match other with
  | .bool _ | .int _ | .float _ => .ok (compareNumbers value other.number?)
  | _ => .error .typeError

mutual

/-- What `<`, `<=`, `>` and `>=` go by: none where a NaN decides. -/
def order : Json → Json → Except PyError (Option Ordering)
  | .list xs, other => match other with
      | .list ys => orderAll xs ys
      | _ => .error .typeError
  | .str s, other => match other with
      | .str t => .ok (some (cmp s t))
      | _ => .error .typeError
  | .bool b, other => orderNumber (Json.bool b).number? other
  | .int n, other => orderNumber (Json.int n).number? other
  | .float x, other => orderNumber (Json.float x).number? other
  | .null, _ => .error .typeError
  | .dict _, _ => .error .typeError
termination_by structural value => value

/-- The first members that differ decide, and then the lengths. -/
def orderAll : List Json → List Json → Except PyError (Option Ordering)
  | [], others => .ok (some (if others.isEmpty then .eq else .lt))
  | item :: rest, others => match others with
      | other :: others => if item.same other then orderAll rest others else order item other
      | [] => .ok (some .gt)
termination_by structural items => items

end

/-- The values compare as less. -/
def Less (found : Option Ordering) : Prop := found = some .lt

/-- The values compare as greater or equal. -/
def AtLeast (found : Option Ordering) : Prop := found = some .gt ∨ found = some .eq

instance (found : Option Ordering) : Decidable (Less found) := inferInstanceAs (Decidable (_ = _))

instance (found : Option Ordering) : Decidable (AtLeast found) := inferInstanceAs (Decidable (_ ∨ _))

/-- A NaN apart, what is not at least another is less. -/
theorem not_atLeast_iff {found : Option Ordering} : ¬ AtLeast found ↔ found = none ∨ Less found := by
  match found with
  | none | some .lt | some .eq | some .gt => simp [AtLeast, Less]

theorem fetchD_ok_iff {value default found : Json} {key : Str} :
    value.fetchD key default = .ok found ↔ value.isDict = true ∧ value.getD key default = found := by
  unfold fetchD
  split <;> simp [*]

/-- A dictionary is read without an error. -/
theorem fetchD_of_isDict {value : Json} (object : value.isDict = true) (key : Str) (default : Json) :
    value.fetchD key default = .ok (value.getD key default) := if_pos object

theorem getD_null {value : Json} {key : Str} : value.getD key .null = value.get key := by
  cases value <;> rfl

theorem fetch_ok_iff {value found : Json} {key : Str} :
    value.fetch key = .ok found ↔ value.isDict = true ∧ value.get key = found := by
  rw [fetch, fetchD_ok_iff, getD_null]

theorem fetch_of_isDict {value : Json} (object : value.isDict = true) (key : Str) :
    value.fetch key = .ok (value.get key) := fetch_ok_iff.mpr ⟨object, rfl⟩

theorem ne_null_of_isDict {value : Json} (object : value.isDict = true) : value ≠ .null := by
  rintro rfl
  cases object

/-- What is something else is not null. -/
theorem ne_null_of_eq {value found : Json} (same : value = found) (present : found.isNull = false) : value ≠ .null := by
  rw [same]
  exact isNull_false_iff.mp present

/-- What a present field holds, whatever the default. -/
theorem getD_eq_get {value default : Json} {key : Str} (present : value.get key ≠ .null) :
    value.getD key default = value.get key := by
  cases value with
  | dict items =>
      rw [get] at present
      rw [getD, get]
      cases found : items.lookup key with
      | none => exact absurd (by rw [found]; rfl) present
      | some found => rfl
  | null | bool | int | float | str | list => rfl

/-- A text that is not empty is no default. -/
theorem getD_str_iff {value : Json} {key s : Str} (full : s ≠ []) :
    value.getD key (.str []) = .str s ↔ value.get key = .str s := by
  cases value with
  | dict items =>
      rw [getD, get]
      cases items.lookup key with
      | none =>
          rw [Option.getD_none, Option.getD_none]
          exact iff_of_false (fun same => full (Json.str.inj same).symm) Json.noConfusion
      | some found => rfl
  | null | bool | int | float | str | list => rfl

theorem isDict_iff {value : Json} : value.isDict = true ↔ ∃ items, value = .dict items := by
  cases value <;> simp [isDict]

/-- Only a dictionary has a field that is not null. -/
theorem isDict_of_get {value : Json} {key : Str} (present : value.get key ≠ .null) : value.isDict = true := by
  cases value with
  | dict items => rfl
  | null | bool | int | float | str | list => exact absurd rfl present

/-- A field is read where it is present. -/
theorem item_of_get {value : Json} {key : Str} (present : value.get key ≠ .null) :
    value.item key = .ok (value.get key) := by
  cases value with
  | dict items =>
      rw [get] at present
      rw [item, get]
      cases found : items.lookup key with
      | none => exact absurd (by rw [found]; rfl) present
      | some found => rfl
  | null | bool | int | float | str | list => exact absurd rfl present

theorem item_of_isDict {value : Json} {key : Str} (inside : (value.get key).isDict = true) :
    value.item key = .ok (value.get key) := item_of_get (ne_null_of_isDict inside)

/-- Only null equals null. -/
theorem eq_null {value : Json} : value.eq .null = true ↔ value = .null := by
  cases value with
  | float x => cases x <;> simp [eq, same, number?, Float64.number?]
  | null | bool | int | str | list | dict => simp [eq, same, number?]

/-- What is read of a field is what `get` finds. -/
theorem get_of_item {value found : Json} {key : Str} (read : value.item key = .ok found) : value.get key = found := by
  obtain ⟨items, rfl, there⟩ := item_ok read
  rw [get, there]
  rfl

end Json
end Argentum
