import Mathlib.Data.List.Basic

/-! Lists that are compared member by member, and counts that are. -/
namespace Argentum

/-- Lists with one image have one image under what the first decides. -/
theorem map_eq_of_map_eq {α β γ δ : Type*} {f : α → γ} {g : β → γ} {f' : α → δ} {g' : β → δ} {xs : List α} {ys : List β}
    (decides : ∀ x ∈ xs, ∀ y ∈ ys, f x = g y → f' x = g' y) (same : xs.map f = ys.map g) : xs.map f' = ys.map g' := by
  induction xs generalizing ys with
  | nil => rw [List.map_eq_nil_iff.mp same.symm, List.map_nil, List.map_nil]
  | cons x rest ih =>
      cases ys with
      | nil => cases same
      | cons y others =>
          obtain ⟨first, later⟩ := List.cons.inj same
          rw [List.map_cons, List.map_cons, decides x List.mem_cons_self y List.mem_cons_self first,
            ih (fun x member y member' => decides x (List.mem_cons_of_mem _ member) y (List.mem_cons_of_mem _ member'))
              later]

/-- Lists with one image are one, where the map is injective on them. -/
theorem eq_of_map_eq {α β : Type*} {f : α → β} {xs ys : List α} (injective : ∀ x ∈ xs, ∀ y ∈ ys, f x = f y → x = y)
    (same : xs.map f = ys.map f) : xs = ys := by
  simpa only [List.map_id] using @map_eq_of_map_eq α α β α f f id id xs ys injective same

/-- Counts that add up at every member add up over the list. -/
theorem countP_add_countP {α : Type*} {p q r s : α → Bool} {xs : List α}
    (each : ∀ x ∈ xs, (p x).toNat + (q x).toNat = (r x).toNat + (s x).toNat) :
    xs.countP p + xs.countP q = xs.countP r + xs.countP s := by
  induction xs with
  | nil => rfl
  | cons x rest ih =>
      obtain ⟨first, later⟩ := List.forall_mem_cons.mp each
      have earlier := ih later
      have count : ∀ t : α → Bool, (x :: rest).countP t = rest.countP t + (t x).toNat := by
        intro t
        rw [List.countP_cons]
        cases t x <;> rfl
      rw [count, count, count, count]
      omega

/-- A map under a condition succeeds iff all of the list meets it. -/
theorem mapM_guard_eq_some_iff {α β : Type} {f : α → Option β} {p : α → Bool} {g : α → β} {xs : List α} {ys : List β}
    (guarded : ∀ x ∈ xs, f x = if p x then some (g x) else none) :
    xs.mapM f = some ys ↔ (∀ x ∈ xs, p x = true) ∧ ys = xs.map g := by
  induction xs generalizing ys with
  | nil => rw [List.mapM_nil, List.map_nil, and_iff_right (List.forall_mem_nil _)]; exact Option.some_inj.trans eq_comm
  | cons x rest ih =>
      have first := guarded x List.mem_cons_self
      have others : ∀ y ∈ rest, f y = if p y then some (g y) else none :=
        fun y member => guarded y (List.mem_cons_of_mem _ member)
      have later : ∀ {zs : List β}, rest.mapM f = some zs ↔ (∀ y ∈ rest, p y = true) ∧ zs = rest.map g := ih others
      rw [List.mapM_cons, first, List.forall_mem_cons, List.map_cons]
      split
      · rename_i holds
        simp only [Option.bind_eq_bind, Option.bind_some, Option.bind_eq_some_iff, Option.pure_def, Option.some.injEq]
        constructor
        · rintro ⟨zs, mapped, rfl⟩
          obtain ⟨all, rfl⟩ := later.mp mapped
          exact ⟨⟨holds, all⟩, rfl⟩
        · rintro ⟨⟨_, all⟩, rfl⟩
          exact ⟨_, later.mpr ⟨all, rfl⟩, rfl⟩
      · rename_i fails
        simp [fails]

end Argentum
