import Argentum.Trail.Canonical

/-! Equality of the values a parser can return, in which no dictionary has a key twice. Python's
`==` compares the items of one dictionary with those of the other; as both have as many keys,
it does not matter which of the two it starts from. -/
namespace Argentum.Json
open Jcs

/-- No dictionary of the value has a key twice. -/
inductive Unambiguous : Json → Prop
  | null : Unambiguous .null
  | bool (b : Bool) : Unambiguous (.bool b)
  | int (n : Int) : Unambiguous (.int n)
  | float (x : Float64) : Unambiguous (.float x)
  | str (s : Str) : Unambiguous (.str s)
  | list {items : List Json} (each : ∀ item ∈ items, Unambiguous item) : Unambiguous (.list items)
  | dict {items : List (Str × Json)} (unique : (items.map Prod.fst).Nodup)
      (each : ∀ item ∈ items, Unambiguous item.2) : Unambiguous (.dict items)

section
variable {value other : Json}

theorem sameAll_iff {items others : List Json} :
    sameAll items others = true ↔ List.Forall₂ (fun item other => item.same other = true) items others := by
  induction items generalizing others with
  | nil => cases others <;> simp [sameAll]
  | cons item rest ih =>
      cases others with
      | nil => simp [sameAll]
      | cons other others => rw [sameAll, Bool.and_eq_true, List.forall₂_cons, ih]

theorem sameItems_iff {items others : List (Str × Json)} : sameItems items others = true ↔
    ∀ item ∈ items, ∃ found, others.lookup item.1 = some found ∧ item.2.same found = true := by
  induction items with
  | nil => simp [sameItems]
  | cons item rest ih =>
      obtain ⟨key, value⟩ := item
      rw [sameItems, Bool.and_eq_true, List.forall_mem_cons, ih]
      cases others.lookup key <;> simp

/-- Values that are no containers compare by what number or text they are. -/
theorem same_symm (unique : Unambiguous value) (unique' : Unambiguous other) (same : value.same other = true) :
    other.same value = true := by
  induction unique generalizing other with
  | null => cases other <;> simp_all [Json.same]
  | str s => cases other <;> simp_all [Json.same]
  | bool b | int n =>
      cases other with
      | float x => cases x <;> simp_all [Json.same, number?, Float64.number?, eq_comm]
      | null | bool | int | str | list | dict => simp_all [Json.same, number?, eq_comm]
  | float x =>
      cases x <;> cases other with
      | float y => cases y <;> simp_all [Json.same, number?, Float64.number?, eq_comm]
      | null | bool | int | str | list | dict => simp_all [Json.same, number?, Float64.number?, eq_comm]
  | @list items each ih =>
      cases unique' with
      | @list others each' =>
          rw [Json.same, sameAll_iff] at same ⊢
          clear each
          induction same with
          | nil => exact .nil
          | cons first later rest =>
              exact .cons (ih _ List.mem_cons_self (each' _ List.mem_cons_self) first)
                (rest (fun item member => ih item (List.mem_cons_of_mem _ member))
                  fun item member => each' item (List.mem_cons_of_mem _ member))
      | _ => cases same
  | @dict items unique each ih =>
      cases unique' with
      | @dict others unique' each' =>
          rw [Json.same, Bool.and_eq_true, decide_eq_true_eq, sameItems_iff] at same ⊢
          obtain ⟨length, found⟩ := same
          refine ⟨length.symm, fun item member => ?_⟩
          -- as many keys, each of them among the others, are all the others
          have within : items.map Prod.fst ⊆ others.map Prod.fst := by
            intro key inside
            obtain ⟨own, stored, rfl⟩ := List.mem_map.mp inside
            obtain ⟨value, there, _⟩ := found own stored
            exact List.mem_map.mpr ⟨_, (lookup_eq_some_iff_mem unique').mp there, rfl⟩
          have all := (List.subperm_of_subset unique within).perm_of_length_le (by simp [length])
          obtain ⟨own, stored, named⟩ := List.mem_map.mp (all.mem_iff.mpr (List.mem_map_of_mem member))
          obtain ⟨value, there, alike⟩ := found own stored
          obtain ⟨key, value'⟩ := item
          obtain ⟨key', value''⟩ := own
          obtain rfl : key' = key := named
          obtain rfl := Option.some.inj (there.symm.trans ((lookup_eq_some_iff_mem unique').mpr member))
          exact ⟨value'', (lookup_eq_some_iff_mem unique).mpr stored, ih _ stored (each' _ member) alike⟩
      | _ => cases same

theorem same_comm (unique : Unambiguous value) (unique' : Unambiguous other) : value.same other = other.same value :=
  Bool.eq_iff_iff.mpr ⟨same_symm unique unique', same_symm unique' unique⟩

/-- `value == other` is `other == value`. -/
theorem eq_swap (unique : Unambiguous value) (unique' : Unambiguous other) : value.eq other = other.eq value := by
  have plain : ∀ {value : Json}, value ≠ .float .nan → ∀ other, value.eq other = value.same other := by
    intro value apart other
    cases value with
    | float x => cases x <;> first | rfl | exact absurd rfl apart
    | _ => rfl
  have nan : ∀ value : Json, value.eq (.float .nan) = false := by
    intro value
    cases value with
    | float x => cases x <;> simp [Json.eq, Json.same, number?, Float64.number?]
    | null | bool | int | str | list | dict => simp [Json.eq, Json.same, number?, Float64.number?]
  by_cases first : value = .float .nan
  · rw [first, nan]
    rfl
  by_cases second : other = .float .nan
  · rw [second, nan]
    rfl
  rw [plain first, plain second, same_comm unique unique']

/-- A value that a field holds is unambiguous with the whole. -/
theorem Unambiguous.get (unique : Unambiguous value) (key : Str) : Unambiguous (value.get key) := by
  cases unique with
  | @dict items unique each =>
      rw [Json.get]
      cases found : items.lookup key with
      | none => exact .null
      | some stored => exact each _ ((lookup_eq_some_iff_mem unique).mp found)
  | _ => exact .null

end
end Argentum.Json
