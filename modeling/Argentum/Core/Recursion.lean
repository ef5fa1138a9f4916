import Argentum.Core.Json

/-! Recursions over nested values on a stack of limited depth. A container takes frames that
its members stand on, and where they run out the interpreter raises `RecursionError`. What a
container takes and what anything else takes are parameters. -/
namespace Argentum

/-- A recursion where it is called: the frames that are left, those that a container takes,
and those that anything else does, a key as the string it is. -/
structure Recursion where
  left : Nat
  container : Nat
  scalar : Json → Nat

namespace Recursion

mutual

/-- The frames that a recursion takes for a value. -/
def needs (r : Recursion) : Json → Nat
  | .list items => r.container + needsAll r items
  | .dict items => r.container + needsItems r items
  | value => r.scalar value
termination_by structural value => value

def needsAll (r : Recursion) : List Json → Nat
  | [] => 0
  | item :: rest => max (needs r item) (needsAll r rest)
termination_by structural items => items

def needsItems (r : Recursion) : List (Str × Json) → Nat
  | [] => 0
  | (key, item) :: rest => max (max (r.scalar (.str key)) (needs r item)) (needsItems r rest)
termination_by structural items => items

end

/-- The frames last for the value. -/
def Admits (r : Recursion) (value : Json) : Prop := r.needs value ≤ r.left

instance (r : Recursion) (value : Json) : Decidable (r.Admits value) := inferInstanceAs (Decidable (_ ≤ _))

section
variable {r : Recursion} {n : Nat}

theorem needsAll_le_iff {items : List Json} : r.needsAll items ≤ n ↔ ∀ item ∈ items, r.needs item ≤ n := by
  induction items with
  | nil => simp [needsAll]
  | cons item rest ih => rw [needsAll, max_le_iff, ih, List.forall_mem_cons]

theorem needsItems_le_iff {items : List (Str × Json)} :
    r.needsItems items ≤ n ↔ ∀ item ∈ items, r.scalar (.str item.1) ≤ n ∧ r.needs item.2 ≤ n := by
  induction items with
  | nil => simp [needsItems]
  | cons item rest ih => rw [needsItems, max_le_iff, max_le_iff, ih, List.forall_mem_cons]

theorem needs_list_le_iff {items : List Json} :
    r.needs (.list items) ≤ n ↔ r.container ≤ n ∧ ∀ item ∈ items, r.needs item ≤ n - r.container := by
  rw [needs, ← needsAll_le_iff]
  omega

theorem needs_dict_le_iff {items : List (Str × Json)} :
    r.needs (.dict items) ≤ n ↔ r.container ≤ n ∧
      ∀ item ∈ items, r.scalar (.str item.1) ≤ n - r.container ∧ r.needs item.2 ≤ n - r.container := by
  rw [needs, ← needsItems_le_iff]
  omega

end
end Recursion

/-- What takes frames returns where they last. -/
theorem frames_eq_ok_iff {α : Type} {left cost : Nat} {action : Except PyError α} {value : α} :
    (if left < cost then .error .recursionError else action) = .ok value ↔ cost ≤ left ∧ action = .ok value := by
  rw [← Nat.not_lt]
  split <;> simp [*]

/-- How many containers stand in each other. -/
def Json.depth (value : Json) : Nat := Recursion.needs ⟨0, 1, fun _ => 0⟩ value

section
variable {r : Recursion} {bound n : Nat}

theorem depth_list_le_iff {items : List Json} :
    (Json.list items).depth ≤ n + 1 ↔ ∀ item ∈ items, item.depth ≤ n := by
  rw [Json.depth, Recursion.needs_list_le_iff]
  exact and_iff_right (Nat.le_add_left 1 n)

theorem depth_dict_le_iff {items : List (Str × Json)} :
    (Json.dict items).depth ≤ n + 1 ↔ ∀ item ∈ items, item.2.depth ≤ n := by
  rw [Json.depth, Recursion.needs_dict_le_iff, and_iff_right (Nat.le_add_left 1 n)]
  exact forall₂_congr fun item _ => and_iff_right (Nat.zero_le _)

/-- What a value takes is bounded by its depth. -/
theorem Recursion.needs_le (scalar : ∀ value, r.scalar value ≤ bound) (value : Json) :
    r.needs value ≤ r.container * value.depth + bound := by
  suffices general : ∀ n, value.depth ≤ n → r.needs value ≤ r.container * n + bound from general _ le_rfl
  induction value using Json.induct with
  | null | bool | int | float | str =>
      intro n _
      exact (scalar _).trans (Nat.le_add_left _ _)
  | list items each =>
      intro n flat
      cases n with
      | zero => exact absurd flat (by rw [Json.depth, Recursion.needs]; simp)
      | succ n =>
          have members := depth_list_le_iff.mp flat
          refine needs_list_le_iff.mpr ⟨by rw [Nat.mul_succ]; omega, fun item member => ?_⟩
          have inner := each item member n (members item member)
          rw [Nat.mul_succ]
          omega
  | dict items each =>
      intro n flat
      cases n with
      | zero => exact absurd flat (by rw [Json.depth, Recursion.needs]; simp)
      | succ n =>
          have members := depth_dict_le_iff.mp flat
          refine needs_dict_le_iff.mpr ⟨by rw [Nat.mul_succ]; omega, fun item member => ?_⟩
          have inner := each item member n (members item member)
          have key := scalar (.str item.1)
          rw [Nat.mul_succ]
          constructor <;> omega

end

/-- `==` where it is called: the frames that are left, and those that comparing two values takes
before their members are compared. -/
structure Comparison where
  left : Nat
  frames : Json → Json → Nat

namespace Comparison

mutual

/-- `Json.same` with so many frames left. -/
def same (c : Comparison) : Json → Json → Nat → Except PyError Bool
  | .list xs, other, left =>
      if left < c.frames (.list xs) other then .error .recursionError
      else
        match other with
        | .list ys =>
            if xs.length = ys.length then sameAll c xs ys (left - c.frames (.list xs) (.list ys)) else .ok false
        | _ => .ok false
  | .dict xs, other, left =>
      if left < c.frames (.dict xs) other then .error .recursionError
      else
        match other with
        | .dict ys =>
            if xs.length = ys.length then sameItems c xs ys (left - c.frames (.dict xs) (.dict ys)) else .ok false
        | _ => .ok false
  | value, other, left =>
      if left < c.frames value other then .error .recursionError else .ok (Json.same value other)
termination_by structural value => value

def sameAll (c : Comparison) : List Json → List Json → Nat → Except PyError Bool
  | [], others, _ => .ok others.isEmpty
  | item :: rest, others, left =>
      match others with
      | other :: others => do
          if ← same c item other left then sameAll c rest others left else .ok false
      | [] => .ok false
termination_by structural items => items

def sameItems (c : Comparison) : List (Str × Json) → List (Str × Json) → Nat → Except PyError Bool
  | [], _, _ => .ok true
  | (key, item) :: rest, others, left =>
      match others.lookup key with
      | some other => do
          if ← same c item other left then sameItems c rest others left else .ok false
      | none => .ok false
termination_by structural items => items

end

/-- `Json.eq`, as far as the frames last. -/
def eq (c : Comparison) (value other : Json) : Except PyError Bool :=
  match value with
  | .float .nan => .ok false
  | value => c.same value other c.left

section
variable {c : Comparison} {left : Nat} {verdict : Bool}

theorem sameAll_ok {items others : List Json}
    (each : ∀ item ∈ items, ∀ other verdict, c.same item other left = .ok verdict → verdict = Json.same item other)
    (compared : c.sameAll items others left = .ok verdict) : verdict = Json.sameAll items others := by
  induction items generalizing others with
  | nil => exact (Except.ok.inj compared).symm
  | cons item rest ih =>
      obtain ⟨own, later⟩ := List.forall_mem_cons.mp each
      cases others with
      | nil => exact (Except.ok.inj compared).symm
      | cons other others =>
          rw [sameAll] at compared
          obtain ⟨alike, first, compared⟩ := bind_ok compared
          rw [Json.sameAll, ← own other alike first]
          cases alike with
          | false => exact (Except.ok.inj compared).symm
          | true => exact ih later compared

theorem sameItems_ok {items others : List (Str × Json)}
    (each : ∀ item ∈ items, ∀ other verdict, c.same item.2 other left = .ok verdict → verdict = Json.same item.2 other)
    (compared : c.sameItems items others left = .ok verdict) : verdict = Json.sameItems items others := by
  induction items with
  | nil => exact (Except.ok.inj compared).symm
  | cons item rest ih =>
      obtain ⟨own, later⟩ := List.forall_mem_cons.mp each
      rw [sameItems] at compared
      rw [Json.sameItems]
      cases found : others.lookup item.1 with
      | none =>
          rw [found] at compared
          exact (Except.ok.inj compared).symm
      | some other =>
          rw [found] at compared
          obtain ⟨alike, first, compared⟩ := bind_ok compared
          dsimp only
          rw [← own other alike first]
          cases alike with
          | false => exact (Except.ok.inj compared).symm
          | true => exact ih later compared

theorem length_of_sameAll {items others : List Json} (alike : Json.sameAll items others = true) :
    items.length = others.length := by
  induction items generalizing others with
  | nil => exact (List.length_eq_zero_iff.mpr (List.isEmpty_iff.mp alike)).symm
  | cons item rest ih =>
      cases others with
      | nil => simp [Json.sameAll] at alike
      | cons other others =>
          rw [Json.sameAll, Bool.and_eq_true] at alike
          exact congrArg Nat.succ (ih alike.2)

theorem same_ok (value : Json) : ∀ other left verdict, c.same value other left = .ok verdict →
    verdict = Json.same value other := by
  induction value using Json.induct with
  | null | bool | int | float | str =>
      intro other left verdict compared
      exact (Except.ok.inj (frames_eq_ok_iff.mp compared).2).symm
  | list items each =>
      intro other left verdict compared
      cases other with
      | list others =>
          rw [same] at compared
          replace compared := (frames_eq_ok_iff.mp compared).2
          split at compared
          · exact sameAll_ok (fun item member other => each item member other _) compared
          · rename_i longer
            rw [← Except.ok.inj compared, Json.same, eq_comm, Bool.eq_false_iff]
            exact fun alike => longer (length_of_sameAll alike)
      | null | bool | int | float | str | dict => exact (Except.ok.inj (frames_eq_ok_iff.mp compared).2).symm
  | dict items each =>
      intro other left verdict compared
      cases other with
      | dict others =>
          rw [same] at compared
          replace compared := (frames_eq_ok_iff.mp compared).2
          rw [Json.same]
          split at compared
          · rename_i long
            rw [decide_eq_true long, Bool.true_and]
            exact sameItems_ok (fun item member other => each item member other _) compared
          · rename_i longer
            rw [decide_eq_false longer, Bool.false_and]
            exact (Except.ok.inj compared).symm
      | null | bool | int | float | str | list => exact (Except.ok.inj (frames_eq_ok_iff.mp compared).2).symm

/-- What `==` returns is whether the values are equal. -/
theorem eq_ok {value other : Json} (compared : c.eq value other = .ok verdict) : verdict = Json.eq value other := by
  unfold eq at compared
  split at compared
  · exact (Except.ok.inj compared).symm
  · rename_i number
    have alike := same_ok _ _ _ _ compared
    rwa [Json.eq]
    exact number

/-- A string is compared in the frames of one comparison, whatever the other value is. -/
theorem eq_str {value : Json} {s : Str} (room : c.frames value (.str s) ≤ c.left) :
    c.eq value (.str s) = .ok (Json.eq value (.str s)) := by
  cases value with
  | float x => cases x <;> simp [eq, same, Json.eq, room]
  | null | bool | int | str | list | dict => simp [eq, same, Json.eq, Json.same, room]

end
end Comparison
end Argentum
