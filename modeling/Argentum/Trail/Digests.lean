import Argentum.Trail.Log

/-! What counts as a digest. `action_ref_version` has a grammar for it; the tree of a batch
and the trail head go by `bytes.fromhex`, which takes upper case and skips white space. They
agree on a text unless it is one of the 64 characters that only `bytes.fromhex` reads. -/
namespace Argentum.Trail
open Text

inductive ActionRefVersion where
  | v1 | v2
  deriving DecidableEq

/-- `[0-9a-f]` -/
def isLowerHex (c : CodePoint) : Bool := (48 ≤ c.val && c.val ≤ 57) || (97 ≤ c.val && c.val ≤ 102)

/-- `[0-9a-f]{64}`, the whole text. -/
def isDigest (s : Str) : Bool := s.length = 64 && s.all isLowerHex

def actionRefVersion (actionRef : Str) : Except PyError ActionRefVersion :=
  if (ofString "v2:").isPrefixOf actionRef && isDigest (actionRef.drop 3) then .ok .v2
  else if isDigest actionRef then .ok .v1
  else .error .valueError

/-- The validators accept the text as `action_ref_version` does, which accepts digests. -/
structure ValidatorsAgree (s : Str) : Prop where
  version : actionRefVersion s = .ok .v1 ↔ isDigest s = true
  build : (∃ tree, buildMerkleTree [s] = .ok tree) ↔ actionRefVersion s = .ok .v1
  verify : (∃ proof root, verifyInclusion s proof root = .ok true) ↔ actionRefVersion s = .ok .v1
  head : isHex64 (.str s) = true ↔ actionRefVersion s = .ok .v1

section
variable {s : Str} {c : CodePoint}

theorem isDigest_iff : isDigest s = true ↔ s.length = 64 ∧ s.all isLowerHex = true := by
  rw [isDigest, Bool.and_eq_true, decide_eq_true_eq]

/-- A second version is longer than a first one. -/
theorem actionRefVersion_v1_iff : actionRefVersion s = .ok .v1 ↔ isDigest s = true := by
  rw [actionRefVersion]
  split
  · rename_i tagged
    rw [Bool.and_eq_true, isDigest_iff, List.length_drop] at tagged
    refine iff_of_false (fun first => by cases first) fun digest => ?_
    have length := (isDigest_iff.mp digest).1
    omega
  · split
    · rename_i digest
      exact iff_of_true rfl digest
    · rename_i digest
      exact iff_of_false (fun first => by cases first) digest

theorem digitValue?_of_lowerHex (hex : isLowerHex c = true) :
    isSpace c = false ∧ (∃ digit, digitValue? c = some digit) ∧ lower c = c := by
  simp only [isLowerHex, Bool.or_eq_true, Bool.and_eq_true, decide_eq_true_eq] at hex
  refine ⟨?_, ?_, ?_⟩
  · simp only [isSpace, Bool.or_eq_false_iff, Bool.and_eq_false_iff, decide_eq_false_iff_not, beq_eq_false_iff_ne]
    omega
  · unfold digitValue?
    split_ifs <;> first | exact ⟨_, rfl⟩ | omega
  · rw [lower, if_neg (by omega)]

theorem map_lower_of_lowerHex (hex : s.all isLowerHex = true) : s.map lower = s := by
  refine (List.map_congr_left fun c member => ?_).trans (List.map_id _)
  exact (digitValue?_of_lowerHex (List.all_eq_true.mp hex c member)).2.2

/-- Digits in pairs are read. -/
theorem fromhex_of_lowerHex : ∀ {s : Str} (pairs : Nat), s.length = 2 * pairs → s.all isLowerHex = true →
    ∃ bytes, fromhex s = some bytes
  | [], _, _, _ => ⟨[], rfl⟩
  | [_], _, length, _ => by
      rw [List.length_singleton] at length
      omega
  | c :: d :: rest, pairs, length, hex => by
      simp only [List.all_cons, Bool.and_eq_true] at hex
      obtain ⟨first, second, hex⟩ := hex
      simp only [List.length_cons] at length
      obtain ⟨bytes, read⟩ := fromhex_of_lowerHex (pairs - 1) (by omega) hex
      obtain ⟨plain, ⟨high, left⟩, _⟩ := digitValue?_of_lowerHex first
      obtain ⟨_, ⟨low, right⟩, _⟩ := digitValue?_of_lowerHex second
      exact ⟨byte (16 * high.val + low.val) :: bytes, by simp [fromhex, plain, left, right, read]⟩

theorem fromhex_of_isDigest (digest : isDigest s = true) : ∃ bytes, fromhex s = some bytes := by
  obtain ⟨length, hex⟩ := isDigest_iff.mp digest
  exact fromhex_of_lowerHex 32 length hex

/-- 64 characters that `bytes.fromhex` reads. -/
def ReadsAsDigest (s : Str) : Prop := s.length = 64 ∧ ∃ bytes, fromhex s = some bytes

theorem buildMerkleTree_singleton_iff : (∃ tree, buildMerkleTree [s] = .ok tree) ↔ ReadsAsDigest s := by
  constructor
  · rintro ⟨tree, built⟩
    obtain ⟨decoded, accepted, _⟩ := buildMerkleTree_ok built
    obtain ⟨_, lengths, mapped⟩ := decodeRefs_eq_some accepted
    refine ⟨lengths s List.mem_cons_self, ?_⟩
    match decoded, mapped with
    | bytes :: _, mapped => exact ⟨bytes, (List.cons.inj mapped).1⟩
  · rintro ⟨length, bytes, read⟩
    have accepted : decodeRefs [s] = some [bytes] := by simp [decodeRefs, length, read]
    rw [buildMerkleTree, accepted]
    exact ⟨_, rfl⟩

theorem verifyInclusion_some_iff : (∃ proof root, verifyInclusion s proof root = .ok true) ↔ ReadsAsDigest s := by
  constructor
  · rintro ⟨proof, root, verified⟩
    obtain ⟨bytes, _, read, _⟩ := verifyInclusion_ok verified
    refine ⟨?_, bytes, read⟩
    by_contra short
    rw [verifyInclusion, if_pos short] at verified
    cases verified
  · rintro ⟨length, bytes, read⟩
    refine ⟨.list [], .str (hexOf (leafHash bytes)), ?_⟩
    rw [verifyInclusion, if_neg (not_not.mpr length), read]
    exact congrArg Except.ok (Json.str_eq.mpr rfl)

theorem isHex64_iff : isHex64 (.str s) = true ↔ ReadsAsDigest s ∧ s = s.map lower := by
  rw [isHex64, Bool.and_eq_true, Bool.and_eq_true, decide_eq_true_eq, decide_eq_true_eq, Option.isSome_iff_exists]
  rfl

/-- A tree is built over what can be read. -/
theorem not_validatorsAgree_of_readable (readable : ReadsAsDigest s) (other : isDigest s = false) :
    ¬ ValidatorsAgree s := by
  rintro ⟨version, build, _, _⟩
  have digest := version.mp (build.mp (buildMerkleTree_singleton_iff.mpr readable))
  rw [other] at digest
  cases digest

end

/-- The validators agree on a text unless it has 64 characters that `bytes.fromhex` reads
and is no digest. -/
theorem validatorsAgree_iff (s : Str) : ValidatorsAgree s ↔
    ¬ (s.length = 64 ∧ (∃ bytes, fromhex s = some bytes) ∧ ¬ s.all isLowerHex) := by
  constructor
  · rintro agree ⟨length, read, other⟩
    refine not_validatorsAgree_of_readable ⟨length, read⟩ (Bool.eq_false_iff.mpr fun digest => ?_) agree
    exact other (isDigest_iff.mp digest).2
  · intro closed
    have readable : ReadsAsDigest s ↔ isDigest s = true := by
      refine ⟨fun ⟨length, read⟩ => isDigest_iff.mpr ⟨length, ?_⟩, fun digest =>
        ⟨(isDigest_iff.mp digest).1, fromhex_of_isDigest digest⟩⟩
      by_contra other
      exact closed ⟨length, read, other⟩
    refine ⟨actionRefVersion_v1_iff, ?_, ?_, ?_⟩
    · rw [buildMerkleTree_singleton_iff, readable, actionRefVersion_v1_iff]
    · rw [verifyInclusion_some_iff, readable, actionRefVersion_v1_iff]
    · rw [isHex64_iff, readable, actionRefVersion_v1_iff]
      exact and_iff_left_of_imp fun digest => (map_lower_of_lowerHex (isDigest_iff.mp digest).2).symm

/-- Upper case builds a tree, and white space among the 64 characters passes as a head as well. -/
theorem not_validatorsAgree_upper : ¬ ValidatorsAgree (List.replicate 64 65) ∧
    ¬ ValidatorsAgree (32 :: 32 :: List.replicate 62 97) ∧
      isHex64 (.str (32 :: 32 :: List.replicate 62 97)) = true := by
  have upper : (fromhex (List.replicate 64 65)).isSome = true := by decide +kernel
  have spaced : (fromhex (32 :: 32 :: List.replicate 62 97)).isSome = true := by decide +kernel
  refine ⟨not_validatorsAgree_of_readable ⟨rfl, Option.isSome_iff_exists.mp upper⟩ (by decide),
    not_validatorsAgree_of_readable ⟨rfl, Option.isSome_iff_exists.mp spaced⟩ (by decide), by decide +kernel⟩

end Argentum.Trail
