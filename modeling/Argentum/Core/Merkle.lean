import Mathlib.Data.List.Basic
import Mathlib.Data.Nat.Bitwise

/-! Pairwise hash trees over an arbitrary node function. An odd node is carried up
unchanged. For a symmetric node function the siblings of a position recompute
the root; for any node function a path that ends inside the tree starts inside it,
as long as no node of the path is a second reading of a node of the tree. The tree
itself is what the levels are before hashing: its digest is their root, and where no
digest has two readings it is determined up to the sides of its nodes. -/
namespace Argentum.Merkle
variable {D : Type*} (node : D → D → D)

def pairUp : List D → List D
  | a :: b :: rest => node a b :: pairUp rest
  | [a] => [a]
  | [] => []

/-- The levels above and including `level`, up to the first with at most one node. -/
def levels : Nat → List D → List (List D)
  | fuel + 1, level => if 1 < level.length then level :: levels fuel (pairUp node level) else [level]
  | 0, level => [level]

/-- The sibling at each level of the position `index`, where there is one. -/
def siblings : List (List D) → Nat → List D
  | [], _ => []
  | level :: rest, index => level[index ^^^ 1]?.toList ++ siblings rest (index / 2)

/-- The node over the last level. -/
def root? (levels : List (List D)) : Option D := levels.getLast?.bind List.head?

/-- The pairs one level combines. -/
def pairs : List D → List (D × D)
  | a :: b :: rest => (a, b) :: pairs rest
  | [_] => []
  | [] => []

/-- The pairs that folding a path from `start` combines. -/
def steps : D → List D → List (D × D)
  | _, [] => []
  | start, sibling :: path => (start, sibling) :: steps (node start sibling) path

theorem xor_one (index : Nat) : index ^^^ 1 = if index % 2 = 0 then index + 1 else index - 1 := by
  split
  · rename_i even
    exact Nat.xor_one_of_even (Nat.even_iff.mpr even)
  · rename_i odd
    exact Nat.xor_one_of_odd (Nat.not_even_iff_odd.mp (fun even => odd (Nat.even_iff.mp even)))

theorem xor_one_add_two (index : Nat) : (index + 2) ^^^ 1 = (index ^^^ 1) + 2 := by
  rw [xor_one, xor_one]
  split <;> split <;> omega

variable {node}

theorem length_pairUp (level : List D) : (pairUp node level).length = (level.length + 1) / 2 := by
  induction level using pairUp.induct with
  | case1 a b rest ih =>
      simp only [pairUp, List.length_cons, ih]
      omega
  | case2 | case3 => simp [pairUp]

theorem levels_ne_nil (fuel : Nat) (level : List D) : levels node fuel level ≠ [] := by
  cases fuel with
  | zero => simp [levels]
  | succ fuel =>
      unfold levels
      split <;> simp

/-- One level up, a position holds its old node combined with the sibling. -/
theorem getElem?_pairUp (symmetric : ∀ a b, node a b = node b a) {level : List D} {index : Nat} {x : D}
    (found : level[index]? = some x) :
    (pairUp node level)[index / 2]? = some (level[index ^^^ 1]?.toList.foldl node x) := by
  induction level using pairUp.induct generalizing index with
  | case1 a b rest ih =>
      match index, found with
      | 0, found =>
          cases found
          rfl
      | 1, found =>
          cases found
          simp [pairUp, symmetric a]
      | index + 2, found =>
          rw [xor_one_add_two, show (index + 2) / 2 = index / 2 + 1 by omega]
          simpa [pairUp] using ih (by simpa using found)
  | case2 a =>
      match index, found with
      | 0, found =>
          cases found
          rfl
  | case3 => contradiction

/-- Every position's siblings recompute the root. -/
theorem foldl_siblings (symmetric : ∀ a b, node a b = node b a) {fuel : Nat} {level : List D}
    (enough : level.length ≤ fuel) {index : Nat} {x : D} (found : level[index]? = some x) :
    root? (levels node fuel level) =
      some ((siblings (levels node fuel level).dropLast index).foldl node x) := by
  induction fuel generalizing level index x with
  | zero =>
      obtain ⟨inside, _⟩ := List.getElem?_eq_some_iff.mp found
      omega
  | succ fuel ih =>
      unfold levels
      split
      · rename_i several
        have shorter : (pairUp node level).length ≤ fuel := by
          rw [length_pairUp]
          omega
        rw [List.dropLast_cons_of_ne_nil (levels_ne_nil fuel _), siblings, List.foldl_append,
          ← ih shorter (getElem?_pairUp symmetric found), root?, root?,
          List.getLast?_cons_of_ne_nil (levels_ne_nil fuel _)]
      · rename_i single
        match level, single, index, found with
        | [a], _, 0, found =>
            cases found
            rfl
        | a :: b :: rest, single, _, _ => exact absurd (by simp) single

theorem root?_isSome {fuel : Nat} {level : List D} (enough : level.length ≤ fuel) (full : level ≠ []) :
    ∃ x, root? (levels node fuel level) = some x := by
  induction fuel generalizing level with
  | zero => exact absurd (List.length_eq_zero_iff.mp (by omega)) full
  | succ fuel ih =>
      unfold levels
      split
      · have shorter : (pairUp node level).length ≤ fuel := by
          rw [length_pairUp]
          omega
        have fuller : pairUp node level ≠ [] := by
          rw [← List.length_pos_iff_ne_nil, length_pairUp]
          omega
        rw [root?, List.getLast?_cons_of_ne_nil (levels_ne_nil fuel _)]
        exact ih shorter fuller
      · rename_i single
        match level, single, full with
        | [a], _, _ => exact ⟨a, rfl⟩
        | a :: b :: rest, single, _ => exact absurd (by simp) single

theorem root?_mem {tree : List (List D)} {x : D} (root : root? tree = some x) : x ∈ tree.flatten := by
  obtain ⟨last, final, first⟩ := Option.bind_eq_some_iff.mp root
  exact List.mem_flatten.mpr ⟨last, List.mem_of_getLast? final, List.mem_of_head? first⟩

theorem mem_pairUp {level : List D} {x : D} (member : x ∈ pairUp node level) :
    x ∈ level ∨ ∃ pair ∈ pairs level, x = node pair.1 pair.2 := by
  induction level using pairUp.induct with
  | case1 a b rest ih =>
      rcases List.mem_cons.mp member with rfl | member
      · exact Or.inr ⟨(a, b), List.mem_cons_self, rfl⟩
      · rcases ih member with stored | ⟨pair, combined, same⟩
        · exact Or.inl (List.mem_cons_of_mem _ (List.mem_cons_of_mem _ stored))
        · exact Or.inr ⟨pair, List.mem_cons_of_mem _ combined, same⟩
  | case2 | case3 => exact Or.inl member

theorem mem_of_mem_pairs {level : List D} {pair : D × D} (combined : pair ∈ pairs level) :
    pair.1 ∈ level ∧ pair.2 ∈ level := by
  induction level using pairs.induct with
  | case1 a b rest ih =>
      rcases List.mem_cons.mp combined with rfl | combined
      · simp
      · obtain ⟨left, right⟩ := ih combined
        simp [left, right]
  | case2 | case3 => contradiction

/-- A node of the tree is a leaf or combines two nodes of the tree. -/
theorem mem_levels {fuel : Nat} {level : List D} {x : D} (member : x ∈ (levels node fuel level).flatten) :
    x ∈ level ∨ ∃ pair ∈ (levels node fuel level).flatMap pairs, x = node pair.1 pair.2 := by
  induction fuel generalizing level with
  | zero => exact Or.inl (by simpa [levels] using member)
  | succ fuel ih =>
      unfold levels at member ⊢
      split at member
      · rename_i several
        rw [List.flatten_cons, List.mem_append] at member
        rw [if_pos several, List.flatMap_cons]
        rcases member with member | member
        · exact Or.inl member
        · rcases ih member with raised | ⟨pair, combined, same⟩
          · rcases mem_pairUp raised with stored | ⟨pair, combined, same⟩
            · exact Or.inl stored
            · exact Or.inr ⟨pair, List.mem_append_left _ combined, same⟩
          · exact Or.inr ⟨pair, List.mem_append_right _ combined, same⟩
      · exact Or.inl (by simpa using member)

theorem mem_flatten_of_pairs {tree : List (List D)} {pair : D × D} (combined : pair ∈ tree.flatMap pairs) :
    pair.1 ∈ tree.flatten ∧ pair.2 ∈ tree.flatten := by
  obtain ⟨level, stored, inside⟩ := List.mem_flatMap.mp combined
  obtain ⟨left, right⟩ := mem_of_mem_pairs inside
  exact ⟨List.mem_flatten_of_mem stored left, List.mem_flatten_of_mem stored right⟩

/-- What a path combines from the left is its start or a node. -/
theorem fst_steps {start : D} {path : List D} {pair : D × D} (step : pair ∈ steps node start path) :
    pair.1 = start ∨ ∃ a b, pair.1 = node a b := by
  induction path generalizing start with
  | nil => contradiction
  | cons sibling path ih =>
      rcases List.mem_cons.mp step with rfl | step
      · exact Or.inl rfl
      · rcases ih step with first | later
        · exact Or.inr ⟨_, _, first⟩
        · exact Or.inr later

/-- A path that ends inside a set which each of its steps leads back into starts inside it. -/
theorem start_inside {P : D → Prop} {start : D} {path : List D}
    (back : ∀ pair ∈ steps node start path, P (node pair.1 pair.2) → P pair.1)
    (ends : P (path.foldl node start)) : P start := by
  induction path generalizing start with
  | nil => exact ends
  | cons sibling path ih =>
      have later := ih (fun pair step => back pair (List.mem_cons_of_mem _ step)) ends
      exact back (start, sibling) List.mem_cons_self later

section
variable {E : Type*} {f : D → E} {combine : E → E → E} (hom : ∀ a b, f (node a b) = combine (f a) (f b))
include hom

theorem pairUp_map (level : List D) : pairUp combine (level.map f) = (pairUp node level).map f := by
  induction level using pairUp.induct with
  | case1 a b rest ih => simp only [List.map_cons, pairUp, ih, hom]
  | case2 | case3 => rfl

theorem levels_map (fuel : Nat) (level : List D) :
    levels combine fuel (level.map f) = (levels node fuel level).map (List.map f) := by
  induction fuel generalizing level with
  | zero => rfl
  | succ fuel ih =>
      simp only [levels, List.length_map]
      split
      · rw [pairUp_map hom, ih, List.map_cons]
      · rfl

theorem root?_levels_map (fuel : Nat) (level : List D) :
    root? (levels combine fuel (level.map f)) = (root? (levels node fuel level)).map f := by
  rw [levels_map hom, root?, root?, List.getLast?_map]
  cases (levels node fuel level).getLast? with
  | none => rfl
  | some last => exact List.head?_map

end

theorem pairs_map {E : Type*} (f : D → E) (level : List D) :
    pairs (level.map f) = (pairs level).map (Prod.map f f) := by
  induction level using pairs.induct with
  | case1 a b rest ih => simp only [List.map_cons, pairs, ih, Prod.map]
  | case2 | case3 => rfl

/-- A tree before hashing. -/
inductive Tree (L : Type*) where
  | leaf (value : L)
  | node (left right : Tree L)

namespace Tree
variable {L : Type*}

def leaves : Tree L → List L
  | .leaf value => [value]
  | .node left right => left.leaves ++ right.leaves

def digest (leaf : L → D) (node : D → D → D) : Tree L → D
  | .leaf value => leaf value
  | .node left right => node (left.digest leaf node) (right.digest leaf node)

/-- The digests that the nodes combine. -/
def combined (leaf : L → D) (node : D → D → D) : Tree L → List (D × D)
  | .leaf _ => []
  | .node left right => (left.digest leaf node, right.digest leaf node) ::
      (left.combined leaf node ++ right.combined leaf node)

/-- The same tree but for the sides of its nodes. -/
inductive Mirrors : Tree L → Tree L → Prop where
  | leaf (value : L) : Mirrors (.leaf value) (.leaf value)
  | straight {left right left' right' : Tree L} : Mirrors left left' → Mirrors right right' →
      Mirrors (.node left right) (.node left' right')
  | crossed {left right left' right' : Tree L} : Mirrors left right' → Mirrors right left' →
      Mirrors (.node left right) (.node left' right')

variable {leaf : L → D} {S T : Tree L}

theorem Mirrors.refl (S : Tree L) : Mirrors S S := by
  induction S with
  | leaf value => exact .leaf value
  | node left right first second => exact .straight first second

theorem Mirrors.leaves_perm (mirrors : Mirrors S T) : S.leaves.Perm T.leaves := by
  induction mirrors with
  | leaf value => exact .refl _
  | straight _ _ first second => exact first.append second
  | crossed _ _ first second => exact (first.append second).trans List.perm_append_comm

theorem Mirrors.digest_eq (symmetric : ∀ a b, node a b = node b a) (mirrors : Mirrors S T) :
    S.digest leaf node = T.digest leaf node := by
  induction mirrors with
  | leaf value => rfl
  | straight _ _ first second => rw [digest, first, second, digest]
  | crossed _ _ first second => rw [digest, first, second, symmetric, digest]

/-- No digest of the one tree reads as another in the other. -/
structure Readings (leaf : L → D) (node : D → D → D) (S T : Tree L) : Prop where
  leaves : ∀ a ∈ S.leaves, ∀ b ∈ T.leaves, leaf a = leaf b → a = b
  below : ∀ a ∈ S.leaves, ∀ p ∈ T.combined leaf node, leaf a ≠ node p.1 p.2
  above : ∀ p ∈ S.combined leaf node, ∀ b ∈ T.leaves, node p.1 p.2 ≠ leaf b
  nodes : ∀ p ∈ S.combined leaf node, ∀ q ∈ T.combined leaf node, node p.1 p.2 = node q.1 q.2 →
    p = q ∨ p = q.swap

theorem Readings.mono {S' T' : Tree L} (readings : Readings leaf node S T)
    (leavesS : S'.leaves ⊆ S.leaves) (leavesT : T'.leaves ⊆ T.leaves)
    (nodesS : S'.combined leaf node ⊆ S.combined leaf node)
    (nodesT : T'.combined leaf node ⊆ T.combined leaf node) : Readings leaf node S' T' where
  leaves a first b second := readings.leaves a (leavesS first) b (leavesT second)
  below a first p second := readings.below a (leavesS first) p (nodesT second)
  above p first b second := readings.above p (nodesS first) b (leavesT second)
  nodes p first q second := readings.nodes p (nodesS first) q (nodesT second)

theorem leaves_subset_node (left right : Tree L) :
    left.leaves ⊆ (Tree.node left right).leaves ∧ right.leaves ⊆ (Tree.node left right).leaves :=
  ⟨List.subset_append_left _ _, List.subset_append_right _ _⟩

theorem combined_subset_node (leaf : L → D) (combine : D → D → D) (left right : Tree L) :
    left.combined leaf combine ⊆ (Tree.node left right).combined leaf combine ∧
      right.combined leaf combine ⊆ (Tree.node left right).combined leaf combine :=
  ⟨List.subset_cons_of_subset _ (List.subset_append_left _ _),
    List.subset_cons_of_subset _ (List.subset_append_right _ _)⟩

/-- The digest determines the tree up to the sides of its nodes. -/
theorem mirrors_of_digest (readings : Readings leaf node S T)
    (same : S.digest leaf node = T.digest leaf node) : Mirrors S T := by
  induction S generalizing T with
  | leaf a =>
      cases T with
      | leaf b =>
          obtain rfl := readings.leaves a List.mem_cons_self b List.mem_cons_self same
          exact .leaf a
      | node left right => exact absurd same (readings.below a List.mem_cons_self _ List.mem_cons_self)
  | node left right first second =>
      cases T with
      | leaf b => exact absurd same (readings.above _ List.mem_cons_self b List.mem_cons_self)
      | node left' right' =>
          obtain ⟨leavesL, leavesR⟩ := leaves_subset_node left right
          obtain ⟨leavesL', leavesR'⟩ := leaves_subset_node left' right'
          obtain ⟨nodesL, nodesR⟩ := combined_subset_node leaf node left right
          obtain ⟨nodesL', nodesR'⟩ := combined_subset_node leaf node left' right'
          rcases readings.nodes _ List.mem_cons_self _ List.mem_cons_self same with straight | crossed
          · obtain ⟨lefts, rights⟩ := Prod.mk.inj straight
            exact .straight (first (readings.mono leavesL leavesL' nodesL nodesL') lefts)
              (second (readings.mono leavesR leavesR' nodesR nodesR') rights)
          · obtain ⟨lefts, rights⟩ := Prod.mk.inj crossed
            exact .crossed (first (readings.mono leavesL leavesR' nodesL nodesR') lefts)
              (second (readings.mono leavesR leavesL' nodesR nodesL') rights)

/-- The tree over a list of leaves. -/
def over? (values : List L) : Option (Tree L) :=
  root? (levels Tree.node values.length (values.map Tree.leaf))

theorem leaves_pairUp (level : List (Tree L)) :
    (pairUp Tree.node level).flatMap leaves = level.flatMap leaves := by
  induction level using pairUp.induct with
  | case1 a b rest ih => simp only [pairUp, List.flatMap_cons, ih, leaves, List.append_assoc]
  | case2 | case3 => rfl

theorem leaves_root {fuel : Nat} {level : List (Tree L)} (enough : level.length ≤ fuel) {root : Tree L}
    (found : root? (levels Tree.node fuel level) = some root) : root.leaves = level.flatMap leaves := by
  induction fuel generalizing level with
  | zero =>
      rw [List.length_eq_zero_iff.mp (Nat.le_zero.mp enough)] at found
      cases found
  | succ fuel ih =>
      unfold levels at found
      split at found
      · have shorter : (pairUp Tree.node level).length ≤ fuel := by
          rw [length_pairUp]
          omega
        rw [root?, List.getLast?_cons_of_ne_nil (levels_ne_nil fuel _)] at found
        rw [ih shorter found, leaves_pairUp]
      · rename_i single
        match level, single, found with
        | [only], _, found =>
            cases found
            exact (List.append_nil _).symm
        | a :: b :: rest, single, _ => exact absurd (by simp) single

/-- What the tree over a list has for leaves, in their order. -/
theorem leaves_over {values : List L} {root : Tree L} (found : over? values = some root) :
    root.leaves = values := by
  rw [leaves_root (by simp) found, List.flatMap_map]
  exact List.flatMap_singleton' values

/-- Hashing level by level finds the digest of the tree. -/
theorem root?_levels (leaf : L → D) (combine : D → D → D) (values : List L) :
    root? (levels combine values.length (values.map leaf)) = (over? values).map (digest leaf combine) := by
  rw [over?, ← root?_levels_map (fun _ _ => rfl), List.map_map]
  rfl

/-- What the nodes of a tree combine was combined on some level. -/
theorem combined_pairUp {combine : D → D → D} {level : List (Tree L)} {parent : Tree L} {pair : D × D}
    (member : parent ∈ pairUp Tree.node level) (inside : pair ∈ parent.combined leaf combine) :
    (∃ child ∈ level, pair ∈ child.combined leaf combine) ∨
      pair ∈ (pairs level).map (Prod.map (digest leaf combine) (digest leaf combine)) := by
  rcases mem_pairUp member with stored | ⟨⟨left, right⟩, together, rfl⟩
  · exact Or.inl ⟨parent, stored, inside⟩
  obtain ⟨first, second⟩ := mem_of_mem_pairs together
  rcases List.mem_cons.mp inside with rfl | inside
  · exact Or.inr (List.mem_map.mpr ⟨(left, right), together, rfl⟩)
  · rcases List.mem_append.mp inside with inside | inside
    · exact Or.inl ⟨left, first, inside⟩
    · exact Or.inl ⟨right, second, inside⟩

theorem combined_root {combine : D → D → D} {fuel : Nat} {level : List (Tree L)} {root : Tree L} {pair : D × D}
    (found : root? (levels Tree.node fuel level) = some root) (inside : pair ∈ root.combined leaf combine) :
    (∃ child ∈ level, pair ∈ child.combined leaf combine) ∨
      pair ∈ (levels combine fuel (level.map (digest leaf combine))).flatMap pairs := by
  induction fuel generalizing level with
  | zero => exact Or.inl ⟨root, by simpa [levels] using root?_mem found, inside⟩
  | succ fuel ih =>
      unfold levels at found ⊢
      rw [List.length_map]
      split at found
      · rename_i several
        rw [if_pos several, List.flatMap_cons, @pairUp_map _ Tree.node _ (digest leaf combine) combine fun _ _ => rfl,
          pairs_map]
        rw [root?, List.getLast?_cons_of_ne_nil (levels_ne_nil fuel _)] at found
        rcases ih found with ⟨parent, member, inside⟩ | later
        · rcases combined_pairUp member inside with below | here
          · exact Or.inl below
          · exact Or.inr (List.mem_append_left _ here)
        · exact Or.inr (List.mem_append_right _ later)
      · exact Or.inl ⟨root, by simpa using root?_mem found, inside⟩

theorem combined_over {combine : D → D → D} {values : List L} {root : Tree L} {pair : D × D}
    (found : over? values = some root) (inside : pair ∈ root.combined leaf combine) :
    pair ∈ (levels combine values.length (values.map leaf)).flatMap pairs := by
  rcases combined_root found inside with ⟨child, member, below⟩ | level
  · obtain ⟨value, _, rfl⟩ := List.mem_map.mp member
    cases below
  · rwa [List.map_map] at level

end Tree

end Argentum.Merkle
