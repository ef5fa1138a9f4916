import Argentum.Core.Json
import Argentum.Core.Merkle
import Argentum.Core.Sha256

/-! Batches of digests under one root, `merkle.py`: leaves are hashed under the
prefix 0 and nodes, their two children sorted, under the prefix 1. A member's
proof recomputes the root. A proof that recomputes the root belongs to a member,
or the strings hashed by the tree and by the verifier hold a collision. -/
namespace Argentum.Trail
open Text Sha256

/-- Two of the strings differ and have the same SHA-256 digest. -/
def Collides (strings : List Bytes) : Prop :=
  ∃ x ∈ strings, ∃ y ∈ strings, x ≠ y ∧ sha256 x = sha256 y

theorem Collides.mono {strings more : List Bytes} (collides : Collides strings)
    (within : ∀ x ∈ strings, x ∈ more) : Collides more := by
  obtain ⟨x, first, y, second, differ, same⟩ := collides
  exact ⟨x, within x first, y, within y second, differ, same⟩

theorem eq_of_not_collides {strings : List Bytes} (free : ¬ Collides strings) {x y : Bytes}
    (first : x ∈ strings) (second : y ∈ strings) (same : sha256 x = sha256 y) : x = y := by
  by_contra differ
  exact free ⟨x, first, y, second, differ, same⟩

def leafPreimage (ref : Bytes) : Bytes := 0 :: ref

/-- The two children in byte order, as `sorted((left, right))` puts them. -/
def nodePreimage (left right : Bytes) : Bytes :=
  1 :: if right < left then right ++ left else left ++ right

def leafHash (ref : Bytes) : Bytes := sha256 (leafPreimage ref)

def nodeHash (left right : Bytes) : Bytes := sha256 (nodePreimage left right)

structure MerkleTree where
  actionRefs : List Str
  levels : List (List Bytes)
  rooted : (Merkle.root? levels).isSome

def MerkleTree.root (tree : MerkleTree) : Str := hexOf ((Merkle.root? tree.levels).get tree.rooted)

/-- The bytes of every ref, when each is 64 characters of hexadecimal text. -/
def decodeRefs : List Str → Option (List Bytes)
  | [] => some []
  | ref :: rest =>
      if ref.length = 64 then do
        let bytes ← fromhex ref
        let others ← decodeRefs rest
        return bytes :: others
      else none

/-- All levels over the leaf hashes. -/
def levelsOf (decoded : List Bytes) : List (List Bytes) :=
  Merkle.levels nodeHash decoded.length (decoded.map leafHash)

theorem levelsOf_rooted {decoded : List Bytes} (full : decoded ≠ []) :
    (Merkle.root? (levelsOf decoded)).isSome :=
  Option.isSome_iff_exists.mpr (Merkle.root?_isSome (by simp) (by simpa using full))

def buildMerkleTree (actionRefs : List Str) : Except PyError MerkleTree :=
  match decodeRefs actionRefs with
  | some decoded =>
      if full : decoded = [] then .error .valueError
      else .ok ⟨actionRefs, levelsOf decoded, levelsOf_rooted full⟩
  | none => .error .valueError

def getProof (actionRef : Str) (tree : MerkleTree) : Except PyError (List Str) :=
  match tree.actionRefs.idxOf? actionRef with
  | some index => .ok ((Merkle.siblings tree.levels.dropLast index).map hexOf)
  | none => .error .valueError

/-- The values a `for` loop over `value` takes: a string's characters, a
dictionary's keys; no other value than these and a list can be iterated. -/
def iterate : Json → Except PyError (List Json)
  | .list items => .ok items
  | .str s => .ok (s.map fun c => .str [c])
  | .dict items => .ok (items.map fun item => .str item.1)
  | _ => .error .typeError

/-- `bytes.fromhex(value)`. -/
def bytesFromhex : Json → Except PyError Bytes
  | .str s => match fromhex s with
      | some bytes => .ok bytes
      | none => .error .valueError
  | _ => .error .typeError

def proofBytes (proof : Json) : Except PyError (List Bytes) := do mapOk bytesFromhex (← iterate proof)

def verifyInclusion (actionRef : Str) (proof root : Json) : Except PyError Bool :=
  if actionRef.length ≠ 64 then .ok false
  else
    match fromhex actionRef with
    | none => .ok false
    | some bytes =>
        match proofBytes proof with
        | .error .valueError => .ok false
        | .error raised => .error raised
        | .ok siblings => .ok (Json.eq (.str (hexOf (siblings.foldl nodeHash (leafHash bytes)))) root)

/-- The strings `build_merkle_tree` hashes. -/
def MerkleTree.hashed (tree : MerkleTree) : List Bytes :=
  (tree.actionRefs.filterMap fromhex).map leafPreimage ++
    (tree.levels.flatMap Merkle.pairs).map fun pair => nodePreimage pair.1 pair.2

/-- The strings `verify_inclusion` hashes. -/
def inclusionHashed (actionRef : Str) (proof : Json) : List Bytes :=
  match fromhex actionRef, proofBytes proof with
  | some bytes, .ok siblings =>
      leafPreimage bytes :: (Merkle.steps nodeHash (leafHash bytes) siblings).map
        fun pair => nodePreimage pair.1 pair.2
  | _, _ => []

theorem nodePreimage_comm (left right : Bytes) : nodePreimage left right = nodePreimage right left := by
  unfold nodePreimage
  rcases lt_trichotomy left right with less | rfl | greater
  · rw [if_neg less.asymm, if_pos less]
  · rfl
  · rw [if_pos greater, if_neg greater.asymm]

theorem nodeHash_comm (left right : Bytes) : nodeHash left right = nodeHash right left := by
  rw [nodeHash, nodePreimage_comm, nodeHash]

/-- Children of one length are read back from the node, up to their order. -/
theorem nodePreimage_sides {left right a b : Bytes} (same : nodePreimage left right = nodePreimage a b)
    (lengthLeft : left.length = 32) (lengthA : a.length = 32) (lengthB : b.length = 32) :
    (left = a ∧ right = b) ∨ (left = b ∧ right = a) := by
  have lengths := congrArg List.length same
  have lengthRight : right.length = 32 := by
    unfold nodePreimage at lengths
    split at lengths <;> split at lengths <;> simp at lengths <;> omega
  unfold nodePreimage at same
  split at same <;> split at same
  · obtain ⟨rights, lefts⟩ := List.append_inj (List.tail_eq_of_cons_eq same) (by omega)
    exact Or.inl ⟨lefts, rights⟩
  · obtain ⟨rights, lefts⟩ := List.append_inj (List.tail_eq_of_cons_eq same) (by omega)
    exact Or.inr ⟨lefts, rights⟩
  · obtain ⟨lefts, rights⟩ := List.append_inj (List.tail_eq_of_cons_eq same) (by omega)
    exact Or.inr ⟨lefts, rights⟩
  · obtain ⟨lefts, rights⟩ := List.append_inj (List.tail_eq_of_cons_eq same) (by omega)
    exact Or.inl ⟨lefts, rights⟩

theorem decodeRefs_eq_some {refs : List Str} {decoded : List Bytes} (accepted : decodeRefs refs = some decoded) :
    refs.filterMap fromhex = decoded ∧ (∀ ref ∈ refs, ref.length = 64) ∧ refs.map fromhex = decoded.map some := by
  induction refs generalizing decoded with
  | nil =>
      cases accepted
      simp
  | cons ref rest ih =>
      unfold decodeRefs at accepted
      split at accepted
      · rename_i long
        simp only [Option.bind_eq_bind, Option.bind_eq_some_iff] at accepted
        obtain ⟨bytes, first, others, later, joined⟩ := accepted
        obtain rfl := Option.some.inj joined
        obtain ⟨filtered, lengths, mapped⟩ := ih later
        refine ⟨by rw [List.filterMap_cons, first, filtered], ?_, by simp [first, mapped]⟩
        exact List.forall_mem_cons.mpr ⟨long, lengths⟩
      · contradiction

theorem buildMerkleTree_ok {refs : List Str} {tree : MerkleTree} (built : buildMerkleTree refs = .ok tree) :
    ∃ decoded, decodeRefs refs = some decoded ∧ tree.actionRefs = refs ∧ tree.levels = levelsOf decoded := by
  unfold buildMerkleTree at built
  split at built
  · rename_i decoded accepted
    split at built
    · contradiction
    · cases built
      exact ⟨decoded, accepted, rfl, rfl⟩
  · contradiction

/-- A batch of 32-byte digests is accepted. -/
theorem buildMerkleTree_isOk {digests : List Str} (full : digests ≠ [])
    (hex : ∀ digest ∈ digests, ∃ bytes : Bytes, bytes.length = 32 ∧ digest = hexOf bytes) :
    ∃ tree, buildMerkleTree digests = .ok tree := by
  have decodes : ∃ decoded, decodeRefs digests = some decoded ∧ (digests ≠ [] → decoded ≠ []) := by
    clear full
    induction digests with
    | nil => exact ⟨[], rfl, by simp⟩
    | cons digest rest ih =>
        obtain ⟨decoded, accepted, _⟩ := ih fun d member => hex d (List.mem_cons_of_mem _ member)
        obtain ⟨bytes, length, rfl⟩ := hex digest List.mem_cons_self
        refine ⟨bytes :: decoded, ?_, by simp⟩
        simp [decodeRefs, length, accepted]
  obtain ⟨decoded, accepted, nonempty⟩ := decodes
  unfold buildMerkleTree
  rw [accepted]
  simp only [dif_neg (nonempty full)]
  exact ⟨_, rfl⟩

theorem proofBytes_hex (siblings : List Bytes) :
    proofBytes (.list ((siblings.map hexOf).map .str)) = .ok siblings := by
  rw [List.map_map]
  apply mapOk_eq_ok_iff.mpr
  rw [List.forall₂_map_left_iff, List.forall₂_same]
  intro sibling _
  simp [bytesFromhex]

/-- Every member of a batch has a proof, and it verifies under the root. -/
theorem verifyInclusion_getProof {refs : List Str} {tree : MerkleTree} {ref : Str}
    (built : buildMerkleTree refs = .ok tree) (member : ref ∈ refs) :
    ∃ proof, getProof ref tree = .ok proof ∧
      verifyInclusion ref (.list (proof.map .str)) (.str tree.root) = .ok true := by
  obtain ⟨decoded, accepted, stored, levels⟩ := buildMerkleTree_ok built
  obtain ⟨filtered, lengths, mapped⟩ := decodeRefs_eq_some accepted
  obtain ⟨index, found⟩ := Option.isSome_iff_exists.mp
    (show (refs.idxOf? ref).isSome by rwa [List.isSome_idxOf?])
  have there : refs[index]? = some ref := by
    obtain ⟨inside, same, _⟩ := List.idxOf?_eq_some_iff.mp found
    rw [List.getElem?_eq_getElem inside, same]
  have read : (decoded.map some)[index]? = some (fromhex ref) := by
    rw [← mapped, List.getElem?_map, there]
    rfl
  rw [List.getElem?_map, Option.map_eq_some_iff] at read
  obtain ⟨bytes, leaf, decodedRef⟩ := read
  have hashed : (decoded.map leafHash)[index]? = some (leafHash bytes) := by
    rw [List.getElem?_map, leaf]
    rfl
  have root := @Merkle.foldl_siblings Bytes nodeHash nodeHash_comm decoded.length _ (by simp) _ _ hashed
  refine ⟨(Merkle.siblings tree.levels.dropLast index).map hexOf, ?_, ?_⟩
  · rw [getProof, stored, found]
  · have same : tree.root =
        hexOf ((Merkle.siblings tree.levels.dropLast index).foldl nodeHash (leafHash bytes)) := by
      have given := Option.some_get tree.rooted
      rw [MerkleTree.root]
      congr 1
      apply Option.some.inj
      rw [given, levels]
      exact root
    rw [verifyInclusion, if_neg (by simp [lengths ref member]), ← decodedRef]
    simp only [proofBytes_hex, ← same]
    simp

theorem length_node {decoded : List Bytes} {x : Bytes} (node : x ∈ (levelsOf decoded).flatten) :
    x.length = 32 := by
  rcases Merkle.mem_levels node with leaf | ⟨pair, _, rfl⟩
  · obtain ⟨bytes, _, rfl⟩ := List.mem_map.mp leaf
    exact length_sha256 _
  · exact length_sha256 _

theorem verifyInclusion_ok {ref : Str} {proof root : Json} (verified : verifyInclusion ref proof root = .ok true) :
    ∃ bytes siblings, fromhex ref = some bytes ∧ proofBytes proof = .ok siblings ∧
      root = .str (hexOf (siblings.foldl nodeHash (leafHash bytes))) := by
  unfold verifyInclusion at verified
  split at verified
  · cases verified
  split at verified
  · cases verified
  rename_i bytes decoded
  split at verified
  · cases verified
  · cases verified
  · rename_i siblings read
    exact ⟨bytes, siblings, decoded, read, Json.str_eq.mp (Except.ok.inj verified)⟩

theorem inclusionHashed_of_ok {ref : Str} {proof : Json} {bytes : Bytes} {siblings : List Bytes}
    (decoded : fromhex ref = some bytes) (read : proofBytes proof = .ok siblings) :
    inclusionHashed ref proof = leafPreimage bytes ::
      (Merkle.steps nodeHash (leafHash bytes) siblings).map fun pair => nodePreimage pair.1 pair.2 := by
  rw [inclusionHashed, decoded, read]

/-- Building hashed every leaf of the tree. -/
theorem leafPreimage_hashed {refs : List Str} {tree : MerkleTree} {decoded : List Bytes}
    (built : buildMerkleTree refs = .ok tree) (accepted : decodeRefs refs = some decoded)
    {leaf : Bytes} (given : leaf ∈ decoded) : leafPreimage leaf ∈ tree.hashed := by
  obtain ⟨_, again, stored, _⟩ := buildMerkleTree_ok built
  cases accepted.symm.trans again
  obtain ⟨filtered, _, _⟩ := decodeRefs_eq_some accepted
  rw [MerkleTree.hashed, stored, filtered]
  exact List.mem_append_left _ (List.mem_map_of_mem given)

/-- Every node of the tree is the digest of a string that building hashed, a leaf's or a
node's. -/
theorem mem_levelsOf {tree : MerkleTree} {decoded : List Bytes} (levels : tree.levels = levelsOf decoded)
    {x : Bytes} (member : x ∈ (levelsOf decoded).flatten) :
    (∃ leaf ∈ decoded, x = sha256 (leafPreimage leaf)) ∨
      ∃ a b, a ∈ (levelsOf decoded).flatten ∧ b ∈ (levelsOf decoded).flatten ∧
        nodePreimage a b ∈ tree.hashed ∧ x = sha256 (nodePreimage a b) := by
  rcases Merkle.mem_levels member with hashed | ⟨pair, combined, same⟩
  · obtain ⟨leaf, given, rfl⟩ := List.mem_map.mp hashed
    exact Or.inl ⟨leaf, given, rfl⟩
  · obtain ⟨left, right⟩ := Merkle.mem_flatten_of_pairs combined
    refine Or.inr ⟨pair.1, pair.2, left, right, ?_, same⟩
    rw [MerkleTree.hashed, levels]
    exact List.mem_append_right _ (List.mem_map.mpr ⟨pair, combined, rfl⟩)

/-- A path that recomputes the root of a batch starts at a member of the batch. -/
theorem verifyInclusion_sound {refs : List Str} {tree : MerkleTree} {ref : Str} {proof : Json}
    (built : buildMerkleTree refs = .ok tree)
    (verified : verifyInclusion ref proof (.str tree.root) = .ok true)
    (free : ¬ Collides (tree.hashed ++ inclusionHashed ref proof)) :
    ∃ leaf ∈ refs, fromhex leaf = fromhex ref := by
  obtain ⟨decoded, accepted, _, levels⟩ := buildMerkleTree_ok built
  obtain ⟨_, _, mapped⟩ := decodeRefs_eq_some accepted
  obtain ⟨bytes, siblings, refBytes, read, rooted⟩ := verifyInclusion_ok verified
  have hashed := inclusionHashed_of_ok refBytes read
  have equal : ∀ x ∈ tree.hashed, ∀ y ∈ inclusionHashed ref proof, sha256 x = sha256 y → x = y :=
    fun x first y second => eq_of_not_collides free (List.mem_append_left _ first)
      (List.mem_append_right _ second)
  -- a node above the ref that is in the tree was made there of the pair it is made of here
  have start : leafHash bytes ∈ (levelsOf decoded).flatten := by
    apply @Merkle.start_inside Bytes nodeHash _ _ siblings
    · intro pair step inside
      have known : nodePreimage pair.1 pair.2 ∈ inclusionHashed ref proof := by
        rw [hashed]
        exact List.mem_cons_of_mem _ (List.mem_map.mpr ⟨pair, step, rfl⟩)
      have length : pair.1.length = 32 := by
        rcases Merkle.fst_steps step with first | ⟨a, b, later⟩
        · rw [first]
          exact length_sha256 _
        · rw [later]
          exact length_sha256 _
      rcases mem_levelsOf levels inside with ⟨leaf, given, same⟩ | ⟨a, b, left, right, node, same⟩
      · have clash := equal _ (leafPreimage_hashed built accepted given) _ known same.symm
        simp [leafPreimage, nodePreimage] at clash
      · have pairs := equal _ node _ known same.symm
        rcases nodePreimage_sides pairs.symm length (length_node left) (length_node right) with
          ⟨first, _⟩ | ⟨second, _⟩
        · rwa [first]
        · rwa [second]
    · have given := Option.some_get tree.rooted
      have last : (Merkle.root? tree.levels).get tree.rooted =
          siblings.foldl nodeHash (leafHash bytes) := hexOf_injective (Json.str.inj rooted)
      rw [last, levels] at given
      exact Merkle.root?_mem given.symm
  have known : leafPreimage bytes ∈ inclusionHashed ref proof := by
    rw [hashed]
    exact List.mem_cons_self
  rcases mem_levelsOf levels start with ⟨leaf, given, same⟩ | ⟨a, b, _, _, node, same⟩
  · have bytesEq : leaf = bytes :=
      List.tail_eq_of_cons_eq (equal _ (leafPreimage_hashed built accepted given) _ known same.symm)
    have member : some leaf ∈ refs.map fromhex := by
      rw [mapped]
      exact List.mem_map_of_mem given
    obtain ⟨member, inside, read⟩ := List.mem_map.mp member
    exact ⟨member, inside, by rw [read, refBytes, bytesEq]⟩
  · have clash := equal _ node _ known same.symm
    simp [leafPreimage, nodePreimage] at clash

/-- What verifies under the root of a batch is a member of the batch, whatever the
ref and the proof are: a node's digest, two digests joined, siblings of any length. -/
theorem inclusion_sound {refs : List Str} {tree : MerkleTree} {ref : Str} {proof : Json}
    (built : buildMerkleTree refs = .ok tree)
    (verified : verifyInclusion ref proof (.str tree.root) = .ok true) :
    (∃ leaf ∈ tree.actionRefs, ∃ bytes, fromhex leaf = some bytes ∧ fromhex ref = some bytes) ∨
      Collides (tree.hashed ++ inclusionHashed ref proof) := by
  by_cases free : Collides (tree.hashed ++ inclusionHashed ref proof)
  · exact Or.inr free
  left
  obtain ⟨_, _, stored, _⟩ := buildMerkleTree_ok built
  obtain ⟨bytes, _, decoded, _⟩ := verifyInclusion_ok verified
  obtain ⟨leaf, member, same⟩ := verifyInclusion_sound built verified free
  exact ⟨leaf, by rwa [stored], bytes, by rw [same, decoded], decoded⟩

/-- Three digests; the third is carried up unhashed. -/
def threeDigests : List Bytes := [List.replicate 32 1, List.replicate 32 2, List.replicate 32 3]

/-- The carried digest, verified with its proof. -/
theorem inclusion_sound_carried : ∃ (tree : MerkleTree) (proof : List Str),
    buildMerkleTree (threeDigests.map hexOf) = .ok tree ∧
    verifyInclusion (hexOf (List.replicate 32 3)) (.list (proof.map .str)) (.str tree.root) = .ok true ∧
    ((∃ leaf ∈ tree.actionRefs, ∃ bytes, fromhex leaf = some bytes ∧
        fromhex (hexOf (List.replicate 32 3)) = some bytes) ∨
      Collides (tree.hashed ++ inclusionHashed (hexOf (List.replicate 32 3)) (.list (proof.map .str)))) := by
  obtain ⟨tree, built⟩ := @buildMerkleTree_isOk (threeDigests.map hexOf) (by simp [threeDigests])
    (fun digest member => by
      obtain ⟨bytes, given, rfl⟩ := List.mem_map.mp member
      have length : ∀ bytes ∈ threeDigests, bytes.length = 32 := by decide
      exact ⟨bytes, length bytes given, rfl⟩)
  have member : hexOf (List.replicate 32 3) ∈ threeDigests.map hexOf :=
    List.mem_map_of_mem (by simp [threeDigests])
  obtain ⟨proof, _, verified⟩ := verifyInclusion_getProof built member
  exact ⟨tree, proof, built, verified, inclusion_sound built verified⟩

end Argentum.Trail
