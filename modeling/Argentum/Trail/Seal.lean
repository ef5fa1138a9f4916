import Argentum.Trail.Log
import Mathlib.Data.List.Perm.Basic

/-! What a seal commits to: the digests of its checkpoints in the order of their
agents, one checkpoint an agent. The order they are given in does not matter. -/
namespace Argentum.Trail
open Text Sha256 Jcs

instance : Std.Total byAgent := ⟨fun a b => le_total a.1 b.1⟩

instance : IsTrans (Str × Json) byAgent := ⟨fun _ _ _ => le_trans⟩

theorem sealKey_ok {cp : Json} {keyed : Str × Json} (key : sealKey cp = .ok keyed) :
    keyed.2 = cp ∧ cp.item Key.agentId = .ok (.str keyed.1) := by
  obtain ⟨agentId, named, key⟩ := bind_ok key
  split at key
  · obtain rfl := Except.ok.inj key
    exact ⟨rfl, named⟩
  · contradiction

/-- A successful seal, step by step. -/
structure Seals [Interpreter] (checkpoints : List Json) (ordered : List (Str × Json)) (period : Sealed) : Prop where
  keyed : ∃ keyed, mapOk sealKey checkpoints = .ok keyed ∧ keyed.insertionSort byAgent = ordered
  distinct : (ordered.map Prod.fst).Nodup
  onePeriod : ∃ ends, mapOk (fun c => c.2.item Key.periodEnd) ordered = .ok ends ∧
    Trail.onePeriod ends = .ok ()
  digests : mapOk (fun c => checkpointDigest c.2) ordered = .ok period.digests
  tree : buildMerkleTree period.digests = .ok period.tree
  root : period.root = period.tree.root

theorem sealPeriod_eq_ok_iff [Interpreter] {checkpoints : List Json} {period : Sealed} :
    sealPeriod checkpoints = .ok period ↔ ∃ ordered, Seals checkpoints ordered period := by
  constructor
  · intro sealing
    obtain ⟨keyed, keys, sealing⟩ := bind_ok sealing
    dsimp only at sealing
    split at sealing
    on_goal 2 => contradiction
    rename_i distinct
    obtain ⟨ends, found, sealing⟩ := bind_ok sealing
    obtain ⟨_, one, sealing⟩ := bind_ok sealing
    obtain ⟨digests, hashed, sealing⟩ := bind_ok sealing
    obtain ⟨tree, built, sealing⟩ := bind_ok sealing
    obtain rfl := Except.ok.inj sealing
    exact ⟨_, ⟨keyed, keys, rfl⟩, distinct, ⟨ends, found, one⟩, hashed, built, rfl⟩
  · rintro ⟨_, ⟨keyed, keys, rfl⟩, distinct, ⟨ends, found, one⟩, hashed, built, root⟩
    obtain ⟨sealedRoot, tree, digests⟩ := period
    simp only at hashed built root
    simp only [sealPeriod, keys, bind, Except.bind, distinct, if_true, found, one, hashed, built]
    rw [root]
    rfl

section
variable [Interpreter] {checkpoints others : List Json} {ordered : List (Str × Json)} {period : Sealed} {cp : Json}

theorem Seals.mem (seals : Seals checkpoints ordered period) :
    (∀ cp ∈ checkpoints, ∃ agentId, (agentId, cp) ∈ ordered) ∧
      ∀ item ∈ ordered, item.2 ∈ checkpoints ∧ item.2.item Key.agentId = .ok (.str item.1) := by
  obtain ⟨keyed, keys, rfl⟩ := seals.keyed
  obtain ⟨forth, back⟩ := mapOk_mem keys
  refine ⟨fun cp member => ?_, fun item member => ?_⟩
  · obtain ⟨⟨agentId, stored⟩, found, key⟩ := forth cp member
    obtain ⟨same, _⟩ := sealKey_ok key
    subst same
    exact ⟨agentId, (List.mem_insertionSort _).mpr found⟩
  · obtain ⟨cp, found, key⟩ := back item ((List.mem_insertionSort _).mp member)
    obtain ⟨rfl, named⟩ := sealKey_ok key
    exact ⟨found, named⟩

/-- One checkpoint an agent. -/
theorem Seals.unique (seals : Seals checkpoints ordered period) {agentId : Str} {first second : Json}
    (stored : (agentId, first) ∈ ordered) (storedToo : (agentId, second) ∈ ordered) : first = second := by
  have same := List.inj_on_of_nodup_map seals.distinct stored storedToo rfl
  exact (Prod.mk.inj same).2

/-- The digest of every sealed checkpoint is a leaf, and every leaf is one. -/
theorem Seals.leaf (seals : Seals checkpoints ordered period) :
    (∀ item ∈ ordered, ∃ digest ∈ period.digests, checkpointDigest item.2 = .ok digest) ∧
      ∀ digest ∈ period.digests, ∃ item ∈ ordered, checkpointDigest item.2 = .ok digest :=
  mapOk_mem seals.digests

omit [Interpreter] in
theorem mapOk_perm {α β : Type} {f : α → Except PyError β} {xs ys : List α} {zs : List β}
    (mapped : mapOk f xs = .ok zs) (perm : ys.Perm xs) : ∃ ws, mapOk f ys = .ok ws ∧ ws.Perm zs := by
  obtain ⟨ws, related, permuted⟩ := List.perm_comp_forall₂ perm (mapOk_eq_ok_iff.mp mapped)
  exact ⟨ws, mapOk_eq_ok_iff.mpr related, permuted⟩

/-- A seal does not depend on the order of the checkpoints it is given. -/
theorem sealPeriod_perm (sealing : sealPeriod checkpoints = .ok period) (perm : others.Perm checkpoints) :
    sealPeriod others = .ok period := by
  obtain ⟨ordered, seals⟩ := sealPeriod_eq_ok_iff.mp sealing
  obtain ⟨keyed, keys, sorted⟩ := seals.keyed
  obtain ⟨keyed', keys', permuted⟩ := mapOk_perm keys perm
  refine sealPeriod_eq_ok_iff.mpr ⟨ordered, ⟨keyed', keys', ?_⟩, seals.distinct, seals.onePeriod,
    seals.digests, seals.tree, seals.root⟩
  have perms : (keyed'.insertionSort byAgent).Perm ordered := by
    rw [← sorted]
    exact (List.perm_insertionSort _ _).trans (permuted.trans (List.perm_insertionSort _ _).symm)
  refine List.Perm.eq_of_pairwise ?_ (List.pairwise_insertionSort byAgent _) ?_ perms
  · intro a b first second below above
    exact List.inj_on_of_nodup_map seals.distinct (perms.mem_iff.mp first) second (le_antisymm below above)
  · rw [← sorted]
    exact List.pairwise_insertionSort byAgent _

end

end Argentum.Trail
