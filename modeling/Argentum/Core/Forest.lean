import Mathlib.Logic.Relation
import Mathlib.Data.List.Forall2
import Mathlib.Data.List.Nodup
import Mathlib.Data.List.Perm.Subperm
import Mathlib.Data.List.Chain

/-! Finite forests given by the parent each node names. A node may name a parent that is
not there. Where no node is above itself, climbing to the top and unfolding everything
below a node both end, within as many steps as there are nodes. -/
namespace Argentum.Forest
open Relation
universe u v

/-- A tree with any number of branches at a node. -/
inductive Rose (α : Type u) where
  | node (value : α) (children : List (Rose α))

namespace Rose
variable {α : Type u} {β : Type v}

def value : Rose α → α
  | .node value _ => value

mutual

def values : Rose α → List α
  | .node value children => value :: valuesAll children
termination_by structural tree => tree

def valuesAll : List (Rose α) → List α
  | [] => []
  | tree :: rest => tree.values ++ valuesAll rest
termination_by structural trees => trees

end

mutual

/-- Every value but the root's, behind the value it hangs under. -/
def edges : Rose α → List (α × α)
  | .node value children => children.map (fun child => (value, child.value)) ++ edgesAll children
termination_by structural tree => tree

def edgesAll : List (Rose α) → List (α × α)
  | [] => []
  | tree :: rest => tree.edges ++ edgesAll rest
termination_by structural trees => trees

end

mutual

def map (f : α → β) : Rose α → Rose β
  | .node value children => .node (f value) (mapAll f children)
termination_by structural tree => tree

def mapAll (f : α → β) : List (Rose α) → List (Rose β)
  | [] => []
  | tree :: rest => tree.map f :: mapAll f rest
termination_by structural trees => trees

end

mutual

/-- How many values stand on the longest path down from the root. -/
def height : Rose α → Nat
  | .node _ children => heightAll children + 1
termination_by structural tree => tree

def heightAll : List (Rose α) → Nat
  | [] => 0
  | tree :: rest => max tree.height (heightAll rest)
termination_by structural trees => trees

end

theorem heightAll_le_iff {trees : List (Rose α)} {n : Nat} : heightAll trees ≤ n ↔ ∀ tree ∈ trees, tree.height ≤ n := by
  induction trees with
  | nil => simp [heightAll]
  | cons tree rest ih => rw [heightAll, Nat.max_le, ih, List.forall_mem_cons]

theorem valuesAll_eq (trees : List (Rose α)) : valuesAll trees = trees.flatMap values := by
  induction trees with
  | nil => rfl
  | cons tree rest ih => rw [valuesAll, ih, List.flatMap_cons]

theorem edgesAll_eq (trees : List (Rose α)) : edgesAll trees = trees.flatMap edges := by
  induction trees with
  | nil => rfl
  | cons tree rest ih => rw [edgesAll, ih, List.flatMap_cons]

theorem mapAll_eq (f : α → β) (trees : List (Rose α)) : mapAll f trees = trees.map (map f) := by
  induction trees with
  | nil => rfl
  | cons tree rest ih => rw [mapAll, ih, List.map_cons]

end Rose

section
variable {α : Type u} {κ : Type v} (key : α → κ) (up : α → Option κ) (nodes : List α)

/-- `b` is the parent of `a`, and both are there. -/
structure Step (a b : α) : Prop where
  child : a ∈ nodes
  parent : b ∈ nodes
  names : up a = some (key b)

def Acyclic : Prop := ∀ a, ¬ TransGen (Step key up nodes) a a

end

section
variable {α : Type u} {κ : Type v} {key : α → κ} {up : α → Option κ} {nodes : List α} {a b c x : α}

theorem acyclic_nil : Acyclic key up [] := by
  intro a cycle
  obtain ⟨_, step, _⟩ := TransGen.head'_iff.mp cycle
  exact absurd step.child List.not_mem_nil

/-- A new node that no node names, itself included, closes no cycle. -/
theorem Acyclic.append (acyclic : Acyclic key up nodes) (fresh : ∀ a ∈ nodes, up a ≠ some (key x))
    (apart : up x ≠ some (key x)) : Acyclic key up (nodes ++ [x]) := by
  have target : ∀ {a b}, Step key up (nodes ++ [x]) a b → b ∈ nodes := by
    intro a b step
    rcases List.mem_append.mp step.parent with member | last
    · exact member
    obtain rfl := List.mem_singleton.mp last
    rcases List.mem_append.mp step.child with member | own
    · exact absurd step.names (fresh a member)
    · obtain rfl := List.mem_singleton.mp own
      exact absurd step.names apart
  have old : ∀ {a b}, TransGen (Step key up (nodes ++ [x])) a b → a ∈ nodes →
      TransGen (Step key up nodes) a b ∧ b ∈ nodes := by
    intro a b climb inside
    induction climb with
    | single step => exact ⟨.single ⟨inside, target step, step.names⟩, target step⟩
    | tail _ step ih => exact ⟨ih.1.tail ⟨ih.2, target step, step.names⟩, target step⟩
  intro a cycle
  obtain ⟨_, _, last⟩ := TransGen.tail'_iff.mp cycle
  exact acyclic a (old cycle (target last)).1

/-- Nodes each of which is above the next or below it are as many as there are nodes at most. -/
theorem Acyclic.length_le (acyclic : Acyclic key up nodes) {path : List α} (chain : path.IsChain (Step key up nodes))
    (inside : ∀ a ∈ path, a ∈ nodes) : path.length ≤ nodes.length := by
  have apart : path.Pairwise (TransGen (Step key up nodes)) :=
    List.isChain_iff_pairwise.mp (chain.imp fun _ _ step => .single step)
  have distinct : path.Nodup := apart.imp (fun {a b} climb => by
    rintro rfl
    exact acyclic a climb)
  exact (List.subperm_of_subset distinct inside).length_le

theorem step_unique (unique : (nodes.map key).Nodup) : Relator.RightUnique (Step key up nodes) := by
  intro a b c first second
  have same : key b = key c := Option.some.inj (first.names.symm.trans second.names)
  exact List.inj_on_of_nodup_map unique first.parent second.parent same

end

section
variable {α : Type u} {κ : Type v}

/-- The nodes that name this one, in order. -/
def childrenOf [DecidableEq κ] (key : α → κ) (up : α → Option κ) (nodes : List α) (x : α) : List α :=
  nodes.filter fun child => up child = some (key x)

/-- Everything below a node, for as long as the fuel lasts. -/
def unfold (children : α → List α) : Nat → α → Option (Rose α)
  | 0, _ => none
  | fuel + 1, x => do
      let trees ← (children x).mapM (unfold children fuel)
      return .node x trees

/-- The tree of all nodes below `x`, each once and under its own parent. -/
structure Spans (key : α → κ) (up : α → Option κ) (nodes : List α) (x : α) (tree : Rose α) : Prop where
  root : tree.value = x
  mem : ∀ y, y ∈ tree.values ↔ ReflTransGen (Step key up nodes) y x
  once : tree.values.Nodup
  edge : ∀ edge ∈ tree.edges, Step key up nodes edge.2 edge.1

variable {key : α → κ} {up : α → Option κ} {nodes : List α} {x y : α} {β : Type v}

theorem exists_mapM {f : α → Option β} {P : α → β → Prop} {xs : List α} (each : ∀ x ∈ xs, ∃ y, f x = some y ∧ P x y) :
    ∃ ys, xs.mapM f = some ys ∧ List.Forall₂ P xs ys := by
  induction xs with
  | nil => exact ⟨[], rfl, .nil⟩
  | cons x rest ih =>
      obtain ⟨⟨y, made, holds⟩, later⟩ := List.forall_mem_cons.mp each
      obtain ⟨ys, mapped, all⟩ := ih later
      exact ⟨y :: ys, by simp [made, mapped], .cons holds all⟩

theorem exists_left {R : α → β → Prop} {xs : List α} {ys : List β} (related : List.Forall₂ R xs ys) {y : β}
    (member : y ∈ ys) : ∃ x ∈ xs, R x y := by
  induction related with
  | nil => contradiction
  | @cons x _ xs _ first _ ih =>
      rcases List.mem_cons.mp member with rfl | later
      · exact ⟨x, List.mem_cons_self, first⟩
      · obtain ⟨x, found, holds⟩ := ih later
        exact ⟨x, List.mem_cons_of_mem _ found, holds⟩

theorem mapM_eq_some_iff {f : α → Option β} {xs : List α} {ys : List β} :
    xs.mapM f = some ys ↔ List.Forall₂ (fun x y => f x = some y) xs ys := by
  induction xs generalizing ys with
  | nil => simp [eq_comm]
  | cons x rest ih =>
      simp only [List.mapM_cons, List.forall₂_cons_left_iff, ← ih, Option.bind_eq_bind, Option.bind_eq_some_iff,
        Option.pure_def, Option.some.injEq]
      constructor
      · rintro ⟨y, made, ys, mapped, rfl⟩
        exact ⟨y, ys, made, mapped, rfl⟩
      · rintro ⟨y, ys, made, mapped, rfl⟩
        exact ⟨y, made, ys, mapped, rfl⟩

/-- What is unfolded is as high as the fuel at most, and more fuel unfolds the same. -/
theorem unfold_eq_some_iff {children : α → List α} {fuel more : Nat} {x : α} {tree : Rose α}
    (unfolded : unfold children fuel x = some tree) : unfold children more x = some tree ↔ tree.height ≤ more := by
  induction fuel generalizing more x tree with
  | zero => cases unfolded
  | succ fuel ih =>
      obtain ⟨trees, mapped, made⟩ := Option.bind_eq_some_iff.mp unfolded
      obtain rfl := Option.some.inj made
      have each := mapM_eq_some_iff.mp mapped
      have below : ∀ {n}, List.Forall₂ (fun c tree => unfold children n c = some tree) (children x) trees ↔
          ∀ tree ∈ trees, tree.height ≤ n := by
        intro n
        clear mapped unfolded made
        generalize children x = below at each
        induction each with
        | nil => simp
        | cons first _ rest => rw [List.forall₂_cons, rest, ih first, List.forall_mem_cons]
      cases more with
      | zero => exact iff_of_false (fun none => by cases none) (by simp [Rose.height])
      | succ more =>
          rw [Rose.height, Nat.succ_le_succ_iff, Rose.heightAll_le_iff, ← below, ← mapM_eq_some_iff, unfold]
          cases (children x).mapM (unfold children more) <;> simp

/-- What ends with some fuel ends with any that is as much as the tree is high. -/
theorem unfold_eq {children : α → List α} {fuel : Nat} {x : α} {tree : Rose α}
    (unfolded : unfold children fuel x = some tree) (more : Nat) :
    unfold children more x = if tree.height ≤ more then some tree else none := by
  have high := @unfold_eq_some_iff _ _ _ more _ _ unfolded
  split
  · rename_i enough
    exact high.mpr enough
  · rename_i little
    refine Option.eq_none_iff_forall_ne_some.mpr fun other made => little ?_
    -- with the fuel of both the two trees are one
    have first := (unfold_eq_some_iff unfolded).mpr
      (((unfold_eq_some_iff unfolded).mp unfolded).trans (Nat.le_max_left fuel more))
    have second := (unfold_eq_some_iff made).mpr
      (((unfold_eq_some_iff made).mp made).trans (Nat.le_max_right fuel more))
    obtain rfl := Option.some.inj (second.symm.trans first)
    exact high.mp made

/-- A node unfolds no further than a child of it does. -/
theorem unfold_eq_none {children : α → List α} {fuel : Nat} {x c : α} (child : c ∈ children x)
    (none : unfold children fuel c = none) : unfold children (fuel + 1) x = Option.none := by
  rw [Option.eq_none_iff_forall_ne_some]
  intro tree unfolded
  obtain ⟨trees, mapped, _⟩ := Option.bind_eq_some_iff.mp unfolded
  obtain ⟨below, _, made⟩ := exists_left (List.Forall₂.flip (mapM_eq_some_iff.mp mapped)) child
  rw [none] at made
  cases made

theorem mapM_map {γ : Type v} (f : α → Option β) (g : β → γ) (xs : List α) :
    xs.mapM (fun x => (f x).map g) = (xs.mapM f).map (List.map g) := by
  induction xs with
  | nil => rfl
  | cons x rest ih =>
      cases made : f x with
      | none => simp [made]
      | some y => cases mapped : rest.mapM f <;> simp [made, ih, mapped]

/-- Two children of one node have nothing below them in common. -/
theorem disjoint_below (unique : (nodes.map key).Nodup) (acyclic : Acyclic key up nodes) {c d : α}
    (first : Step key up nodes c x) (second : Step key up nodes d x) (apart : c ≠ d)
    (below : ReflTransGen (Step key up nodes) y c) : ¬ ReflTransGen (Step key up nodes) y d := by
  have no : ∀ {c d}, Step key up nodes c x → Step key up nodes d x → c ≠ d →
      ¬ ReflTransGen (Step key up nodes) c d := by
    intro c d first second apart climb
    rcases ReflTransGen.cases_head climb with rfl | ⟨z, step, climb⟩
    · exact apart rfl
    · obtain rfl := step_unique unique step first
      exact acyclic z (TransGen.tail' climb second)
  intro belowToo
  rcases ReflTransGen.total_of_right_unique (step_unique unique) below belowToo with climb | climb
  · exact no first second apart climb
  · exact no second first apart.symm climb

theorem mem_flatMap_values {children : List α} {trees : List (Rose α)}
    (spans : List.Forall₂ (Spans key up nodes) children trees) :
    y ∈ trees.flatMap Rose.values ↔ ∃ c ∈ children, ReflTransGen (Step key up nodes) y c := by
  induction spans with
  | nil => simp
  | cons first _ ih => simp [List.flatMap_cons, ih, first.mem]

theorem nodup_flatMap_values (unique : (nodes.map key).Nodup) (acyclic : Acyclic key up nodes) {children : List α}
    {trees : List (Rose α)} (spans : List.Forall₂ (Spans key up nodes) children trees) (distinct : children.Nodup)
    (siblings : ∀ c ∈ children, Step key up nodes c x) : (trees.flatMap Rose.values).Nodup := by
  induction spans with
  | nil => exact List.nodup_nil
  | @cons c _ _ _ first others ih =>
      obtain ⟨absent, distinct⟩ := List.nodup_cons.mp distinct
      obtain ⟨step, siblings⟩ := List.forall_mem_cons.mp siblings
      rw [List.flatMap_cons]
      refine List.Nodup.append first.once (ih distinct siblings) fun y inFirst inOthers => ?_
      obtain ⟨d, member, belowToo⟩ := (mem_flatMap_values others).mp inOthers
      have apart : c ≠ d := by
        rintro rfl
        exact absent member
      exact disjoint_below unique acyclic step (siblings d member) apart ((first.mem y).mp inFirst) belowToo

variable [DecidableEq κ]

theorem mem_childrenOf (inside : x ∈ nodes) : y ∈ childrenOf key up nodes x ↔ Step key up nodes y x := by
  simp only [childrenOf, List.mem_filter, decide_eq_true_eq]
  constructor
  · rintro ⟨child, names⟩
    exact ⟨child, inside, names⟩
  · intro step
    exact ⟨step.child, step.names⟩

/-- The trees of all children make the tree of their parent. -/
theorem Spans.node (unique : (nodes.map key).Nodup) (acyclic : Acyclic key up nodes) (inside : x ∈ nodes)
    {trees : List (Rose α)} (spans : List.Forall₂ (Spans key up nodes) (childrenOf key up nodes x) trees) :
    Spans key up nodes x (.node x trees) := by
  have steps : ∀ c ∈ childrenOf key up nodes x, Step key up nodes c x := fun c => (mem_childrenOf inside).mp
  have distinct : (childrenOf key up nodes x).Nodup := (List.Nodup.of_map key unique).filter _
  have values : (Rose.node x trees).values = x :: trees.flatMap Rose.values := by
    rw [Rose.values, Rose.valuesAll_eq]
  refine ⟨rfl, fun y => ?_, ?_, ?_⟩
  · rw [values, List.mem_cons, mem_flatMap_values spans, ReflTransGen.cases_tail_iff, eq_comm]
    refine or_congr_right (exists_congr fun c => ?_)
    rw [mem_childrenOf inside, and_comm]
  · rw [values]
    refine List.nodup_cons.mpr ⟨fun again => ?_, nodup_flatMap_values unique acyclic spans distinct steps⟩
    obtain ⟨c, member, climb⟩ := (mem_flatMap_values spans).mp again
    exact acyclic x (TransGen.tail' climb (steps c member))
  · intro edge member
    rw [Rose.edges, Rose.edgesAll_eq, List.mem_append] at member
    rcases member with member | member
    · obtain ⟨tree, found, rfl⟩ := List.mem_map.mp member
      obtain ⟨c, child, span⟩ := exists_left spans found
      simpa only [span.root] using steps c child
    · obtain ⟨tree, found, member⟩ := List.mem_flatMap.mp member
      obtain ⟨_, _, span⟩ := exists_left spans found
      exact span.edge edge member

/-- There is fuel enough for the nodes not yet on the path from the root. -/
theorem exists_unfold (unique : (nodes.map key).Nodup) (acyclic : Acyclic key up nodes) {fuel : Nat} {path : List α}
    (chain : (x :: path).IsChain (Step key up nodes)) (inside : ∀ a ∈ x :: path, a ∈ nodes)
    (enough : nodes.length ≤ fuel + path.length) :
    ∃ tree, unfold (childrenOf key up nodes) fuel x = some tree ∧ Spans key up nodes x tree := by
  induction fuel generalizing x path with
  | zero =>
      have bound := acyclic.length_le chain inside
      rw [List.length_cons] at bound
      omega
  | succ fuel ih =>
      have here : x ∈ nodes := inside x List.mem_cons_self
      have branches : ∀ c ∈ childrenOf key up nodes x,
          ∃ tree, unfold (childrenOf key up nodes) fuel c = some tree ∧ Spans key up nodes c tree := by
        intro c member
        have step := (mem_childrenOf here).mp member
        refine ih (List.isChain_cons_cons.mpr ⟨step, chain⟩) (List.forall_mem_cons.mpr ⟨step.child, inside⟩) ?_
        rw [List.length_cons]
        omega
      obtain ⟨trees, mapped, spans⟩ := exists_mapM branches
      refine ⟨.node x trees, ?_, .node unique acyclic here spans⟩
      rw [unfold, mapped]
      rfl

end

section
variable {α : Type u} {κ : Type v}

/-- Up to the node without a parent, for as long as the fuel lasts. -/
def climb (parent : α → Option α) : Nat → α → Option α
  | 0, _ => none
  | fuel + 1, x =>
      match parent x with
      | none => some x
      | some above => climb parent fuel above

/-- `top` is the topmost node above `x`. -/
structure Topmost (key : α → κ) (up : α → Option κ) (nodes : List α) (x top : α) : Prop where
  inside : top ∈ nodes
  above : ReflTransGen (Step key up nodes) x top
  last : ∀ y, ¬ Step key up nodes top y

variable {key : α → κ} {up : α → Option κ} {nodes : List α} {x y top : α} {parent : α → Option α}

theorem Topmost.unique (unique : (nodes.map key).Nodup) (first : Topmost key up nodes x top)
    (second : Topmost key up nodes x y) : top = y := by
  rcases ReflTransGen.total_of_right_unique (step_unique unique) first.above second.above with climb | climb
  · rcases ReflTransGen.cases_head climb with same | ⟨_, step, _⟩
    · exact same
    · exact absurd step (first.last _)
  · rcases ReflTransGen.cases_head climb with same | ⟨_, step, _⟩
    · exact same.symm
    · exact absurd step (second.last _)

/-- There is fuel enough for the nodes not yet on the path from below. -/
theorem exists_climb (acyclic : Acyclic key up nodes)
    (reads : ∀ a ∈ nodes, ∀ b, parent a = some b ↔ Step key up nodes a b) {fuel : Nat} {path : List α}
    (chain : (x :: path).IsChain (flip (Step key up nodes))) (inside : ∀ a ∈ x :: path, a ∈ nodes)
    (enough : nodes.length ≤ fuel + path.length) :
    ∃ top, climb parent fuel x = some top ∧ Topmost key up nodes x top := by
  induction fuel generalizing x path with
  | zero =>
      have bound := acyclic.length_le (List.isChain_reverse.mpr chain) fun a member =>
        inside a (List.mem_reverse.mp member)
      rw [List.length_reverse, List.length_cons] at bound
      omega
  | succ fuel ih =>
      have here : x ∈ nodes := inside x List.mem_cons_self
      rw [climb]
      split
      · rename_i root
        refine ⟨x, rfl, here, .refl, fun y step => ?_⟩
        rw [(reads x here y).mpr step] at root
        contradiction
      · rename_i above found
        have step := (reads x here above).mp found
        obtain ⟨top, climbed, topmost⟩ := ih (List.isChain_cons_cons.mpr ⟨step, chain⟩)
          (List.forall_mem_cons.mpr ⟨step.parent, inside⟩) (by
            rw [List.length_cons]
            omega)
        exact ⟨top, climbed, topmost.inside, .head step topmost.above, topmost.last⟩

end

end Argentum.Forest
