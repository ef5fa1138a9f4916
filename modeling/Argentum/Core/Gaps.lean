import Mathlib.Data.List.Basic
import Mathlib.Data.Finset.Max
import Mathlib.Data.Finset.Dedup

/-! The gaps between finitely many points of a linear order. Two points are adjacent when
no third lies between them, whatever order they are listed in and however often; scanning
a sorted list for neighbours that are too far apart finds the earliest such gap. -/
namespace Argentum.Gaps
universe u v

section
variable {κ : Type u} [LinearOrder κ] {points others : List κ} {a b c d t : κ} {wide : κ → κ → Prop}

/-- Two of the points with none between them. -/
structure Adjacent (points : List κ) (a b : κ) : Prop where
  first : a ∈ points
  second : b ∈ points
  less : a < b
  between : ∀ t ∈ points, t ≤ a ∨ b ≤ t

theorem Adjacent.of_mem_iff (adjacent : Adjacent points a b) (same : ∀ t, t ∈ points ↔ t ∈ others) :
    Adjacent others a b :=
  ⟨(same a).mp adjacent.first, (same b).mp adjacent.second, adjacent.less,
    fun t member => adjacent.between t ((same t).mpr member)⟩

theorem Adjacent.right_unique (first : Adjacent points a b) (second : Adjacent points a c) : b = c := by
  apply le_antisymm
  · exact (first.between c second.second).resolve_left second.less.not_ge
  · exact (second.between b first.second).resolve_left first.less.not_ge

/-- The earliest of the adjacent pairs that are too far apart. -/
structure Earliest (wide : κ → κ → Prop) (points : List κ) (a b : κ) : Prop where
  adjacent : Adjacent points a b
  apart : wide a b
  earliest : ∀ c d, Adjacent points c d → wide c d → a ≤ c

theorem Earliest.of_mem_iff (found : Earliest wide points a b) (same : ∀ t, t ∈ points ↔ t ∈ others) :
    Earliest wide others a b :=
  ⟨found.adjacent.of_mem_iff same, found.apart, fun c d adjacent apart =>
    found.earliest c d (adjacent.of_mem_iff fun t => (same t).symm) apart⟩

theorem Earliest.unique (first : Earliest wide points a b) (second : Earliest wide points c d) :
    a = c ∧ b = d := by
  obtain rfl : a = c := le_antisymm (first.earliest c d second.adjacent second.apart)
    (second.earliest a b first.adjacent first.apart)
  exact ⟨rfl, first.adjacent.right_unique second.adjacent⟩

/-- The least point makes one pair with the next one. -/
theorem adjacent_cons_iff (below : a ≤ b) (least : ∀ t ∈ points, b ≤ t) :
    Adjacent (a :: b :: points) c d ↔ a < b ∧ c = a ∧ d = b ∨ Adjacent (b :: points) c d := by
  have above : ∀ t ∈ b :: points, b ≤ t := List.forall_mem_cons.mpr ⟨le_rfl, least⟩
  constructor
  · intro adjacent
    have later : d ∈ b :: points := by
      rcases List.mem_cons.mp adjacent.second with rfl | member
      · rcases List.mem_cons.mp adjacent.first with rfl | member
        · exact absurd adjacent.less (lt_irrefl _)
        · exact absurd adjacent.less (below.trans (above c member)).not_gt
      · exact member
    rcases List.mem_cons.mp adjacent.first with rfl | member
    · rcases below.eq_or_lt with rfl | apart
      · exact .inr ⟨List.mem_cons_self, later, adjacent.less,
          fun t member => adjacent.between t (List.mem_cons_of_mem _ member)⟩
      · have reached : d ≤ b := (adjacent.between b (by simp)).resolve_left apart.not_ge
        exact .inl ⟨apart, rfl, le_antisymm reached (above d later)⟩
    · exact .inr ⟨member, later, adjacent.less,
        fun t member => adjacent.between t (List.mem_cons_of_mem _ member)⟩
  · rintro (⟨apart, rfl, rfl⟩ | adjacent)
    · refine ⟨by simp, by simp, apart, List.forall_mem_cons.mpr ⟨.inl le_rfl, fun t member => ?_⟩⟩
      exact .inr (above t member)
    · refine ⟨List.mem_cons_of_mem _ adjacent.first, List.mem_cons_of_mem _ adjacent.second, adjacent.less,
        List.forall_mem_cons.mpr ⟨.inl ?_, adjacent.between⟩⟩
      exact below.trans (above c adjacent.first)

/-- The nearest of the points at or above `t`. -/
theorem exists_next (member : b ∈ points) (less : t ≤ b) :
    ∃ next ∈ points, t ≤ next ∧ ∀ s ∈ points, t ≤ s → next ≤ s := by
  obtain ⟨next, found, least⟩ := Finset.exists_min_image (points.toFinset.filter (t ≤ ·)) id
    ⟨b, by simpa using ⟨member, less⟩⟩
  simp only [Finset.mem_filter, List.mem_toFinset, id] at found least
  exact ⟨next, found.1, found.2, fun s inside above => least s ⟨inside, above⟩⟩

theorem exists_previous (member : a ∈ points) (less : a ≤ t) :
    ∃ previous ∈ points, previous ≤ t ∧ ∀ s ∈ points, s ≤ t → s ≤ previous := by
  obtain ⟨previous, found, greatest⟩ := Finset.exists_max_image (points.toFinset.filter (· ≤ t)) id
    ⟨a, by simpa using ⟨member, less⟩⟩
  simp only [Finset.mem_filter, List.mem_toFinset, id] at found greatest
  exact ⟨previous, found.1, found.2, fun s inside above => greatest s ⟨inside, above⟩⟩

/-- A point between two others makes no gap wide. -/
theorem not_wide_insert (mono : ∀ a b c d, a ≤ c → d ≤ b → c < d → wide c d → wide a b)
    (first : a ∈ points) (second : b ∈ points) (above : a ≤ t) (below : t ≤ b)
    (close : ∀ c d, Adjacent points c d → ¬ wide c d) (adjacent : Adjacent (t :: points) c d) : ¬ wide c d := by
  intro apart
  have between : ∀ s ∈ points, s ≤ c ∨ d ≤ s := fun s member => adjacent.between s (List.mem_cons_of_mem _ member)
  obtain ⟨previous, previousMem, previousLe, previousMax⟩ : ∃ previous ∈ points, previous ≤ c ∧
      ∀ s ∈ points, s ≤ c → s ≤ previous := by
    rcases List.mem_cons.mp adjacent.first with rfl | member
    · exact exists_previous first above
    · exact ⟨c, member, le_rfl, fun s _ below => below⟩
  obtain ⟨next, nextMem, nextLe, nextMin⟩ : ∃ next ∈ points, d ≤ next ∧ ∀ s ∈ points, d ≤ s → next ≤ s := by
    rcases List.mem_cons.mp adjacent.second with rfl | member
    · exact exists_next second below
    · exact ⟨d, member, le_rfl, fun s _ above => above⟩
  refine close previous next ⟨previousMem, nextMem, previousLe.trans_lt (adjacent.less.trans_le nextLe), ?_⟩
    (mono previous next c d previousLe nextLe adjacent.less apart)
  intro s member
  exact (between s member).imp (previousMax s member) (nextMin s member)

end

section
variable {α : Type u} {κ : Type v} [LinearOrder κ] {key : α → κ} {wide : κ → κ → Prop} [DecidableRel wide]
  {items rest : List α} {x y : α}

/-- The first neighbours that are too far apart. -/
def firstGap (key : α → κ) (wide : κ → κ → Prop) [DecidableRel wide] : List α → Option (α × α)
  | [] => none
  | [_] => none
  | x :: y :: rest => if wide (key x) (key y) then some (x, y) else firstGap key wide (y :: rest)

theorem adjacent_map_cons_iff (sorted : (x :: y :: rest).Pairwise fun x y => key x ≤ key y) {a b : κ} :
    Adjacent ((x :: y :: rest).map key) a b ↔
      key x < key y ∧ a = key x ∧ b = key y ∨ Adjacent ((y :: rest).map key) a b := by
  obtain ⟨below, later⟩ := List.pairwise_cons.mp sorted
  obtain ⟨least, _⟩ := List.pairwise_cons.mp later
  refine adjacent_cons_iff (below y List.mem_cons_self) fun t member => ?_
  obtain ⟨z, inside, rfl⟩ := List.mem_map.mp member
  exact least z inside

theorem firstGap_eq_none (sorted : items.Pairwise fun x y => key x ≤ key y)
    (close : firstGap key wide items = none) {a b : κ} (adjacent : Adjacent (items.map key) a b) : ¬ wide a b := by
  induction items with
  | nil => exact absurd adjacent.first List.not_mem_nil
  | cons x rest ih =>
      cases rest with
      | nil =>
          obtain rfl := List.mem_singleton.mp adjacent.first
          obtain rfl := List.mem_singleton.mp adjacent.second
          exact absurd adjacent.less (lt_irrefl _)
      | cons y rest =>
          rw [firstGap] at close
          split at close
          · contradiction
          rename_i narrow
          rcases (adjacent_map_cons_iff sorted).mp adjacent with ⟨_, rfl, rfl⟩ | later
          · exact narrow
          · exact ih (List.pairwise_cons.mp sorted).2 close later

theorem firstGap_eq_some (irrefl : ∀ a, ¬ wide a a) (sorted : items.Pairwise fun x y => key x ≤ key y)
    (found : firstGap key wide items = some (x, y)) :
    x ∈ items ∧ y ∈ items ∧ Earliest wide (items.map key) (key x) (key y) := by
  induction items with
  | nil => contradiction
  | cons first rest ih =>
      cases rest with
      | nil => contradiction
      | cons second rest =>
          have step := fun c d => adjacent_map_cons_iff (a := c) (b := d) sorted
          obtain ⟨below, later⟩ := List.pairwise_cons.mp sorted
          rw [firstGap] at found
          split at found
          · rename_i apart
            obtain ⟨rfl, rfl⟩ := Prod.mk.inj (Option.some.inj found)
            have less : key first < key second := (below second List.mem_cons_self).lt_of_ne fun same =>
              irrefl _ (same ▸ apart)
            refine ⟨by simp, by simp, (step _ _).mpr (.inl ⟨less, rfl, rfl⟩), apart, fun c d adjacent _ => ?_⟩
            obtain ⟨z, inside, rfl⟩ := List.mem_map.mp adjacent.first
            rcases List.mem_cons.mp inside with rfl | inside
            · exact le_rfl
            · exact below z inside
          · rename_i narrow
            obtain ⟨firstMem, secondMem, ⟨adjacent, apart, earliest⟩⟩ := ih later found
            refine ⟨List.mem_cons_of_mem _ firstMem, List.mem_cons_of_mem _ secondMem,
              (step _ _).mpr (.inr adjacent), apart, fun c d pair tooFar => ?_⟩
            rcases (step c d).mp pair with ⟨_, rfl, rfl⟩ | pair
            · exact absurd tooFar narrow
            · exact earliest c d pair tooFar

end

end Argentum.Gaps
