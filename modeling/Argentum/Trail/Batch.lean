import Argentum.Trail.Merkle
import Mathlib.Data.List.Nodup

/-! What the root of a batch says of it, `docs/spec/batch-anchor.md`. Every member has a
proof. Leaves and nodes are hashed apart and a node's children are hashed in byte
order, so the root determines the tree of the batch up to the sides of its nodes: the
members with their multiplicities, and their order as far as it is not an exchange of
two such sides. -/
namespace Argentum.Trail
open Text Sha256

/-- A v1 `action_ref`: 64 lowercase hexadecimal digits. -/
def ActionRef (ref : Str) : Prop := ref.length = 64 ∧ ∀ c ∈ ref, ∃ n, c = hexDigit n

theorem exists_hexOf {digits : Str} {n : Nat} (length : digits.length = 2 * n)
    (hex : ∀ c ∈ digits, ∃ n, c = hexDigit n) : ∃ bytes : Bytes, bytes.length = n ∧ digits = hexOf bytes := by
  induction n generalizing digits with
  | zero => exact ⟨[], rfl, List.length_eq_zero_iff.mp length⟩
  | succ n ih =>
      match digits, length, hex with
      | c :: d :: rest, length, hex =>
          obtain ⟨high, rfl⟩ := hex c (by simp)
          obtain ⟨low, rfl⟩ := hex d (by simp)
          obtain ⟨bytes, counted, rfl⟩ := @ih rest (by simp only [List.length_cons] at length; omega)
            fun c member => hex c (by simp [member])
          refine ⟨byte (16 * high.val + low.val) :: bytes, by simp [counted], ?_⟩
          have value : (byte (16 * high.val + low.val)).val = 16 * high.val + low.val := val_byte (by omega)
          rw [hexOf]
          congr 1
          · congr 1
            apply Fin.ext
            simp only [value]
            omega
          · congr 2
            apply Fin.ext
            simp only [value]
            omega

theorem ActionRef.hex {ref : Str} (valid : ActionRef ref) : ∃ bytes : Bytes, bytes.length = 32 ∧ ref = hexOf bytes :=
  exists_hexOf valid.1 valid.2

theorem actionRef_hexOf {bytes : Bytes} (length : bytes.length = 32) : ActionRef (hexOf bytes) :=
  ⟨by rw [length_hexOf, length], hexOf_digits bytes⟩

/-- A batch of action refs has a tree. -/
theorem buildMerkleTree_actionRefs {refs : List Str} (full : refs ≠ []) (valid : ∀ ref ∈ refs, ActionRef ref) :
    ∃ tree, buildMerkleTree refs = .ok tree :=
  buildMerkleTree_isOk full fun ref member => (valid ref member).hex

/-- `verify_inclusion(ref, get_proof(ref, tree), tree.root)`, for every member of a batch. -/
theorem membersVerify {refs : List Str} (full : refs ≠ []) (valid : ∀ ref ∈ refs, ActionRef ref) :
    ∃ tree, buildMerkleTree refs = .ok tree ∧ ∀ ref ∈ refs, ∃ proof, getProof ref tree = .ok proof ∧
      verifyInclusion ref (.list (proof.map .str)) (.str tree.root) = .ok true := by
  obtain ⟨tree, built⟩ := buildMerkleTree_actionRefs full valid
  exact ⟨tree, built, fun ref member => verifyInclusion_getProof built member⟩

/-- A batch in which one ref comes twice, and the last node is carried up. -/
def repeatedRefs : List Str := ([1, 2, 1].map fun b => hexOf (List.replicate 32 b))

theorem actionRef_repeated : ∀ ref ∈ repeatedRefs, ActionRef ref := by
  intro ref member
  obtain ⟨b, _, rfl⟩ := List.mem_map.mp member
  exact actionRef_hexOf (List.length_replicate ..)

theorem membersVerify_repeated : ∃ tree, buildMerkleTree repeatedRefs = .ok tree ∧
    ∀ ref ∈ repeatedRefs, ∃ proof, getProof ref tree = .ok proof ∧
      verifyInclusion ref (.list (proof.map .str)) (.str tree.root) = .ok true :=
  membersVerify (List.cons_ne_nil _ _) actionRef_repeated

section
variable {L : Type*} {f : L → Bytes} {xs ys : List L} {S T : Merkle.Tree L} {tree tree' : MerkleTree}

/-- `tree` was built by hashing the tree `S` over the batch `xs`, whose members decode by `f`. -/
structure HashedFrom (f : L → Bytes) (xs : List L) (S : Merkle.Tree L) (tree : MerkleTree) : Prop where
  shape : Merkle.Tree.over? xs = some S
  root : tree.root = hexOf (S.digest (leafHash ∘ f) nodeHash)
  leaves : ∀ x ∈ S.leaves, leafPreimage (f x) ∈ tree.hashed
  nodes : ∀ p ∈ S.combined (leafHash ∘ f) nodeHash, nodePreimage p.1 p.2 ∈ tree.hashed

theorem exists_hashedFrom {refs : List Str} (built : buildMerkleTree refs = .ok tree)
    (decodes : refs.map fromhex = xs.map (some ∘ f)) : ∃ S, HashedFrom f xs S tree := by
  obtain ⟨decoded, accepted, stored, levels⟩ := buildMerkleTree_ok built
  obtain ⟨_, _, mapped⟩ := decodeRefs_eq_some accepted
  have same : decoded = xs.map f := by
    rw [mapped, ← List.map_map] at decodes
    exact List.map_injective_iff.mpr (Option.some_injective _) decodes
  have leveled : tree.levels = Merkle.levels nodeHash xs.length (xs.map (leafHash ∘ f)) := by
    rw [levels, levelsOf, same, List.length_map, List.map_map]
  have known : Merkle.root? tree.levels = (Merkle.Tree.over? xs).map (Merkle.Tree.digest (leafHash ∘ f) nodeHash) := by
    rw [leveled, Merkle.Tree.root?_levels]
  have rooted := (Option.some_get tree.rooted).trans known
  obtain ⟨S, shape, digest⟩ := Option.map_eq_some_iff.mp rooted.symm
  refine ⟨S, shape, by rw [MerkleTree.root, digest], fun x member => ?_, fun p member => ?_⟩
  · apply leafPreimage_hashed built accepted
    rw [same]
    rw [Merkle.Tree.leaves_over shape] at member
    exact List.mem_map_of_mem member
  · have inside := Merkle.Tree.combined_over shape member
    rw [← leveled] at inside
    exact List.mem_append_right _ (List.mem_map.mpr ⟨p, inside, rfl⟩)

theorem length_digest (S : Merkle.Tree L) : (S.digest (leafHash ∘ f) nodeHash).length = 32 := by
  cases S with
  | leaf value => exact length_sha256 _
  | node left right => exact length_sha256 _

theorem length_combined {p : Bytes × Bytes} (member : p ∈ S.combined (leafHash ∘ f) nodeHash) :
    p.1.length = 32 ∧ p.2.length = 32 := by
  induction S with
  | leaf value => cases member
  | node left right first second =>
      rcases List.mem_cons.mp member with rfl | member
      · exact ⟨length_digest left, length_digest right⟩
      · rcases List.mem_append.mp member with member | member
        · exact first member
        · exact second member

/-- Without a collision, equal roots come from one tree but for the sides of its nodes. -/
theorem HashedFrom.mirrors (first : HashedFrom f xs S tree) (second : HashedFrom f ys T tree')
    (injective : ∀ x ∈ xs, ∀ y ∈ ys, f x = f y → x = y) (free : ¬ Collides (tree.hashed ++ tree'.hashed))
    (same : tree.root = tree'.root) : S.Mirrors T := by
  have equal : ∀ x ∈ tree.hashed, ∀ y ∈ tree'.hashed, sha256 x = sha256 y → x = y :=
    fun x here y there => eq_of_not_collides free (List.mem_append_left _ here) (List.mem_append_right _ there)
  have readings : Merkle.Tree.Readings (leafHash ∘ f) nodeHash S T := by
    constructor
    · intro x here y there hashes
      have preimages := equal _ (first.leaves x here) _ (second.leaves y there) hashes
      rw [Merkle.Tree.leaves_over first.shape] at here
      rw [Merkle.Tree.leaves_over second.shape] at there
      exact injective x here y there (List.tail_eq_of_cons_eq preimages)
    · intro x here p there hashes
      have preimages := equal _ (first.leaves x here) _ (second.nodes p there) hashes
      exact absurd (List.head_eq_of_cons_eq preimages) (by decide)
    · intro p here y there hashes
      have preimages := equal _ (first.nodes p here) _ (second.leaves y there) hashes
      exact absurd (List.head_eq_of_cons_eq preimages) (by decide)
    · intro p here q there hashes
      have preimages := equal _ (first.nodes p here) _ (second.nodes q there) hashes
      obtain ⟨lefts, rights⟩ := length_combined there
      rcases nodePreimage_sides preimages (length_combined here).1 lefts rights with
        ⟨left, right⟩ | ⟨left, right⟩
      · exact Or.inl (Prod.ext left right)
      · exact Or.inr (Prod.ext left right)
  apply Merkle.Tree.mirrors_of_digest readings
  rw [first.root, second.root] at same
  exact hexOf_injective same

theorem HashedFrom.root_eq (first : HashedFrom f xs S tree) (second : HashedFrom f ys T tree')
    (mirrors : S.Mirrors T) : tree.root = tree'.root := by
  rw [first.root, second.root, mirrors.digest_eq nodeHash_comm]

end

/-- The tree over `ys` is the tree over `xs` but for the sides of its nodes. -/
def Exchanged (xs ys : List Str) : Prop :=
  ∃ S T, Merkle.Tree.over? xs = some S ∧ Merkle.Tree.over? ys = some T ∧ S.Mirrors T

theorem ActionRef.decodes {refs : List Str} (valid : ∀ ref ∈ refs, ActionRef ref) :
    refs.map fromhex = refs.map (some ∘ fun ref => (fromhex ref).getD []) := by
  apply List.map_congr_left
  intro ref member
  obtain ⟨bytes, _, rfl⟩ := (valid ref member).hex
  simp

theorem Exchanged.root_eq {xs ys : List Str} {tree tree' : MerkleTree} (exchanged : Exchanged xs ys)
    (valid : ∀ ref ∈ xs, ActionRef ref) (valid' : ∀ ref ∈ ys, ActionRef ref)
    (built : buildMerkleTree xs = .ok tree) (built' : buildMerkleTree ys = .ok tree') : tree.root = tree'.root := by
  obtain ⟨S, T, shape, shape', mirrors⟩ := exchanged
  obtain ⟨S', first⟩ := exists_hashedFrom built (ActionRef.decodes valid)
  obtain ⟨T', second⟩ := exists_hashedFrom built' (ActionRef.decodes valid')
  cases shape.symm.trans first.shape
  cases shape'.symm.trans second.shape
  exact first.root_eq second mirrors

/-- Two refs, and the same two the other way round. -/
def pairRefs : Bool → List Str
  | false => [hexOf (List.replicate 32 1), hexOf (List.replicate 32 2)]
  | true => [hexOf (List.replicate 32 2), hexOf (List.replicate 32 1)]

theorem actionRef_pair (swapped : Bool) : ∀ ref ∈ pairRefs swapped, ActionRef ref := by
  have each : ∀ b : Byte, ActionRef (hexOf (List.replicate 32 b)) := fun b =>
    actionRef_hexOf (List.length_replicate ..)
  cases swapped <;> simp only [pairRefs, List.forall_mem_cons, List.not_mem_nil, each, true_and] <;> simp

theorem exchanged_pair : Exchanged (pairRefs false) (pairRefs true) :=
  ⟨.node (.leaf _) (.leaf _), .node (.leaf _) (.leaf _), rfl, rfl, .crossed (.leaf _) (.leaf _)⟩

theorem root_pair : ∃ tree tree', buildMerkleTree (pairRefs false) = .ok tree ∧
    buildMerkleTree (pairRefs true) = .ok tree' ∧ tree.root = tree'.root := by
  obtain ⟨tree, built⟩ := buildMerkleTree_actionRefs (List.cons_ne_nil _ _) (actionRef_pair false)
  obtain ⟨tree', built'⟩ := buildMerkleTree_actionRefs (List.cons_ne_nil _ _) (actionRef_pair true)
  exact ⟨tree, tree', built, built',
    exchanged_pair.root_eq (actionRef_pair false) (actionRef_pair true) built built'⟩

/-- A batch root commits to the digests of the batch, with their multiplicities. -/
theorem rootCommits {xs ys : List Str} {tree tree' : MerkleTree} (built : buildMerkleTree xs = .ok tree)
    (built' : buildMerkleTree ys = .ok tree') (same : tree.root = tree'.root) :
    (xs.length = ys.length ∧ (xs.map fromhex).Perm (ys.map fromhex)) ∨
      Collides (tree.hashed ++ tree'.hashed) := by
  by_cases free : Collides (tree.hashed ++ tree'.hashed)
  · exact Or.inr free
  obtain ⟨decoded, accepted, _, _⟩ := buildMerkleTree_ok built
  obtain ⟨decoded', accepted', _, _⟩ := buildMerkleTree_ok built'
  obtain ⟨_, _, mapped⟩ := decodeRefs_eq_some accepted
  obtain ⟨_, _, mapped'⟩ := decodeRefs_eq_some accepted'
  obtain ⟨S, first⟩ := @exists_hashedFrom _ id decoded _ _ built mapped
  obtain ⟨T, second⟩ := @exists_hashedFrom _ id decoded' _ _ built' mapped'
  have perm := (first.mirrors second (fun _ _ _ _ => id) free same).leaves_perm
  rw [Merkle.Tree.leaves_over first.shape, Merkle.Tree.leaves_over second.shape] at perm
  have members : (xs.map fromhex).Perm (ys.map fromhex) := by
    rw [mapped, mapped']
    exact perm.map some
  exact Or.inl ⟨by simpa using members.length_eq, members⟩

/-- Two lists with one root, that of a pair and that of the pair swapped. -/
theorem rootCommits_pair : ∃ tree tree', buildMerkleTree (pairRefs false) = .ok tree ∧
    buildMerkleTree (pairRefs true) = .ok tree' ∧
    (((pairRefs false).length = (pairRefs true).length ∧
        ((pairRefs false).map fromhex).Perm ((pairRefs true).map fromhex)) ∨
      Collides (tree.hashed ++ tree'.hashed)) := by
  obtain ⟨tree, tree', built, built', same⟩ := root_pair
  exact ⟨tree, tree', built, built', rootCommits built built' same⟩

/-- A reordered batch has another root, unless it only exchanges sides of nodes, and
then it has the same one. -/
theorem rootDependsOnOrder {xs ys : List Str} (full : xs ≠ []) (valid : ∀ ref ∈ xs, ActionRef ref)
    (reordered : ys.Perm xs) : ∃ tree tree', buildMerkleTree xs = .ok tree ∧ buildMerkleTree ys = .ok tree' ∧
      (Exchanged xs ys → tree.root = tree'.root) ∧
      (¬ Exchanged xs ys → tree.root ≠ tree'.root ∨ Collides (tree.hashed ++ tree'.hashed)) := by
  have valid' : ∀ ref ∈ ys, ActionRef ref := fun ref member => valid ref (reordered.mem_iff.mp member)
  have full' : ys ≠ [] := fun none => full (List.nil_perm.mp (none ▸ reordered))
  obtain ⟨tree, built⟩ := buildMerkleTree_actionRefs full valid
  obtain ⟨tree', built'⟩ := buildMerkleTree_actionRefs full' valid'
  obtain ⟨S, first⟩ := exists_hashedFrom built (ActionRef.decodes valid)
  obtain ⟨T, second⟩ := exists_hashedFrom built' (ActionRef.decodes valid')
  refine ⟨tree, tree', built, built', fun exchanged => exchanged.root_eq valid valid' built built', fun apart => ?_⟩
  by_cases free : Collides (tree.hashed ++ tree'.hashed)
  · exact Or.inr free
  refine Or.inl fun same => apart ⟨S, T, first.shape, second.shape, first.mirrors second ?_ free same⟩
  intro x here y there decoded
  obtain ⟨bytes, _, rfl⟩ := (valid x here).hex
  obtain ⟨bytes', _, rfl⟩ := (valid' y there).hex
  have bytesEq : bytes = bytes' := by simpa using decoded
  rw [bytesEq]

/-- Three refs in reverse. -/
theorem rootDependsOnOrder_reversed : ∃ tree tree',
    buildMerkleTree (threeDigests.map hexOf) = .ok tree ∧
    buildMerkleTree (threeDigests.map hexOf).reverse = .ok tree' ∧
    (Exchanged (threeDigests.map hexOf) (threeDigests.map hexOf).reverse → tree.root = tree'.root) ∧
    (¬ Exchanged (threeDigests.map hexOf) (threeDigests.map hexOf).reverse →
      tree.root ≠ tree'.root ∨ Collides (tree.hashed ++ tree'.hashed)) := by
  refine rootDependsOnOrder (by decide) (fun ref member => ?_) (List.reverse_perm _)
  obtain ⟨bytes, given, rfl⟩ := List.mem_map.mp member
  have length : ∀ bytes ∈ threeDigests, bytes.length = 32 := by decide
  exact actionRef_hexOf (length bytes given)

/-- The strings that hashing a pair, either way round, takes. -/
def pairStrings : List Bytes :=
  [leafPreimage (List.replicate 32 1), leafPreimage (List.replicate 32 2),
    nodePreimage (leafHash (List.replicate 32 1)) (leafHash (List.replicate 32 2))]

theorem not_collides_pair : ¬ Collides pairStrings := by
  have apart : (pairStrings.map sha256).Nodup := by decide +kernel
  rintro ⟨x, first, y, second, differ, same⟩
  exact differ (List.inj_on_of_nodup_map apart first second same)

theorem hashed_pair {swapped : Bool} {tree : MerkleTree} (built : buildMerkleTree (pairRefs swapped) = .ok tree) :
    ∀ x ∈ tree.hashed, x ∈ pairStrings := by
  cases swapped with
  | false =>
      cases built
      intro x member
      exact member
  | true =>
      cases built
      have strings : ∀ x ∈ [leafPreimage (List.replicate 32 2), leafPreimage (List.replicate 32 1),
          nodePreimage (leafHash (List.replicate 32 2)) (leafHash (List.replicate 32 1))], x ∈ pairStrings := by
        rw [nodePreimage_comm]
        simp [pairStrings]
      exact strings

/-- The two refs of a pair are hashed in byte order: swapped they have the same root. -/
theorem not_rootDependsOnOrder_pair : ¬ ∀ (xs ys : List Str) (tree tree' : MerkleTree), xs.Nodup →
    (∀ ref ∈ xs, ActionRef ref) → ys.Perm xs → ys ≠ xs → buildMerkleTree xs = .ok tree →
    buildMerkleTree ys = .ok tree' → tree.root ≠ tree'.root ∨ Collides (tree.hashed ++ tree'.hashed) := by
  intro depends
  obtain ⟨tree, tree', built, built', same⟩ := root_pair
  rcases depends _ _ tree tree' (by decide) (actionRef_pair false) (.swap _ _ _) (by decide) built built' with
    differ | collides
  · exact differ same
  · refine not_collides_pair (collides.mono fun x member => ?_)
    rcases List.mem_append.mp member with first | second
    · exact hashed_pair built x first
    · exact hashed_pair built' x second

end Argentum.Trail
