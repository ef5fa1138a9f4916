import Argentum.Conformance.Delegation
import Argentum.Trail.SortKeys

/-! What the verifier of delegation chains hashes and what the specification hashes. The
specification has canonical JSON, the verifier `json.dumps` with sorted keys; the bytes are
the same where the artifact, and the fields that each hop signs, are written alike and are
nested too deep for both or for none. -/
namespace Argentum.Delegation
open Text Dumps Jcs Sha256

/-- `SHA-256(JCS(chain_artifact))` -/
def delegationChainRef [Interpreter] (chainArtifact : Json) : Except PyError Str := do
  return hexOf (sha256 (← jcsBytes chainArtifact))

/-- What the specification has a hop sign the canonical bytes of. -/
def signedFields (chainId hop : Json) : Except PyError Json := do
  let delegator ← hop.item (ofString "delegator")
  let delegatee ← hop.item (ofString "delegatee")
  let scope ← hop.item (ofString "scope")
  let delegationRef ← hop.item (ofString "delegation_ref")
  return .dict [(ofString "chain_id", chainId), (ofString "delegator", delegator),
    (ofString "delegatee", delegatee), (ofString "scope", scope), (ofString "delegation_ref", delegationRef)]

/-- `delegation_chain_ref` as the verifier computes it. -/
def chainRefWithin [Interpreter] (chain : Json) : Except PyError Str := do sha256hex (← jcsWithin chain)

/-- The bytes of `hop_signing_preimage`. -/
def hopMessageWithin [Interpreter] (chainId hop : Json) : Except PyError Bytes := do
  encodeUtf8 (← jcsWithin (← signedFields chainId hop))

/-- A hop of the artifact, and the fields it signs. -/
structure Signs (chain chainId hop fields : Json) : Prop where
  identified : chain.item (ofString "chain_id") = .ok chainId
  listed : ∃ hops, chain.item (ofString "hops") = .ok (.list hops) ∧ hop ∈ hops
  signed : signedFields chainId hop = .ok fields

/-- The verifier hashes what the specification does, of the artifact and of each hop. -/
structure HashesAlike [Interpreter] (chain : Json) : Prop where
  artifact : (do encodeUtf8 (← jcsWithin chain)) = jcsBytes chain
  reference : chainRefWithin chain = delegationChainRef chain
  preimage : ∀ chainId hop fields, Signs chain chainId hop fields → hopMessageWithin chainId hop = jcsBytes fields

/-- The stack lasts for both sides or for neither, and where it lasts the value is written alike
at every depth, or has no bytes for a lone surrogate in it. -/
def Matching [Interpreter] (value : Json) : Prop :=
  (Interpreter.dumps.Admits value ↔ Shallow value) ∧ (Shallow value → ¬ Encodable value ∨ Agreeing value)

section
variable {chain chainId hop fields : Json}

theorem jcsProfile_item {value found : Json} {key : Str} (profile : JcsProfile value)
    (read : value.item key = .ok found) : JcsProfile found := by
  obtain ⟨items, rfl, there⟩ := Json.item_ok read
  cases profile with
  | dict unique each => exact each _ ((lookup_eq_some_iff_mem unique).mp there)

theorem jcsProfile_signedFields (profile : JcsProfile chainId) (profile' : JcsProfile hop)
    (signed : signedFields chainId hop = .ok fields) : JcsProfile fields := by
  obtain ⟨delegator, first, signed⟩ := bind_ok signed
  obtain ⟨delegatee, second, signed⟩ := bind_ok signed
  obtain ⟨scope, third, signed⟩ := bind_ok signed
  obtain ⟨delegationRef, fourth, signed⟩ := bind_ok signed
  rw [← Except.ok.inj signed]
  refine .dict (by simp only [List.map_cons, List.map_nil]; decide) (List.forall_mem_cons.mpr ⟨profile, ?_⟩)
  refine List.forall_mem_cons.mpr ⟨jcsProfile_item profile' first, ?_⟩
  refine List.forall_mem_cons.mpr ⟨jcsProfile_item profile' second, ?_⟩
  refine List.forall_mem_cons.mpr ⟨jcsProfile_item profile' third, ?_⟩
  exact List.forall_mem_singleton.mpr (jcsProfile_item profile' fourth)

theorem Signs.jcsProfile (signs : Signs chain chainId hop fields) (profile : JcsProfile chain) : JcsProfile fields := by
  obtain ⟨identified, ⟨hops, listed, member⟩, signed⟩ := signs
  have listed' := jcsProfile_item profile listed
  cases listed' with
  | list each => exact jcsProfile_signedFields (jcsProfile_item profile identified) (each hop member) signed

/-- The verifier's bytes of a value are the specification's iff it is matching. -/
theorem encodeUtf8_jcsWithin_iff [Interpreter] {value : Json} (profile : JcsProfile value) :
    (do encodeUtf8 (← jcsWithin value)) = jcsBytes value ↔ Matching value := by
  rw [jcsBytes_eq profile, jcsWithin, Matching]
  have raises : ∀ {text : Str}, encodeUtf8 text ≠ .error .recursionError := by
    intro text raised
    rw [encodeUtf8] at raised
    split at raised <;> cases raised
  by_cases admits : Interpreter.dumps.Admits value
  · by_cases shallow : Shallow value
    · simp only [admits, shallow, if_true, ok_bind, forall_true_left, true_and]
      exact encodeUtf8_sortKeys_iff profile
    · simp only [admits, shallow, if_true, if_false, ok_bind]
      exact iff_of_false raises (by simp)
  · by_cases shallow : Shallow value
    · simp only [admits, shallow, if_true, if_false]
      exact iff_of_false (fun same => raises same.symm) (by simp)
    · simp only [admits, shallow, if_false, false_implies, and_true]
      exact iff_of_true rfl trivial

/-- The verifier hashes what the specification does iff the artifact, and what each hop
signs, is matching. -/
theorem hashesAlike_iff [Interpreter] (profile : JcsProfile chain) :
    HashesAlike chain ↔ Matching chain ∧ ∀ chainId hop fields, Signs chain chainId hop fields → Matching fields := by
  have artifact := encodeUtf8_jcsWithin_iff profile
  have preimage : ∀ {chainId hop fields}, Signs chain chainId hop fields →
      (hopMessageWithin chainId hop = jcsBytes fields ↔ Matching fields) := by
    intro chainId hop fields signs
    rw [hopMessageWithin, signs.signed, ok_bind]
    exact encodeUtf8_jcsWithin_iff (signs.jcsProfile profile)
  constructor
  · rintro ⟨same, _, each⟩
    exact ⟨artifact.mp same, fun chainId hop fields signs => (preimage signs).mp (each chainId hop fields signs)⟩
  · rintro ⟨matching, each⟩
    have same := artifact.mpr matching
    refine ⟨same, ?_, fun chainId hop fields signs => (preimage signs).mpr (each chainId hop fields signs)⟩
    rw [chainRefWithin, delegationChainRef, ← same]
    cases jcsWithin chain <;> rfl

end

/-- A chain of one hop with a field that the specification does not name. -/
def limitedChain (limits : Json) : Json := .dict [(ofString "chain_id", .str (ofString "chain_b1f4a2d7c9e3")),
  (ofString "hops", .list [onlyHop]),
  (ofString "leaf_action_ref", .str (ofString "93b1132f3a3120a6306963f05a09b9928a08105040595d541ec2264007fd8bcd")),
  (ofString "limits", limits), (ofString "root_delegator", .str (ofString "giskard-self")),
  (ofString "scope", .str (ofString "mycelium:payment")),
  (ofString "version", .str (ofString "delegation-chain-ref-v1"))]

theorem jcsProfile_onlyHop : JcsProfile onlyHop := by
  refine .dict (by decide) fun item member => ?_
  obtain ⟨field, _, rfl⟩ := List.mem_map.mp member
  exact .str _

theorem encodable_onlyHop : Encodable onlyHop := by
  refine encodable_dict_iff.mpr (List.forall_mem_map.mpr ?_)
  intro field member
  have ascii : ∀ field ∈ [("delegatee", "soma-agent"), ("delegator", "giskard-self"),
      ("delegation_ref", "fc49ff73ebd629bd3440455115a4ce09e69219f2374f6b0c7a2713a52a579b7e"),
      ("scope", "mycelium:payment")], ((ofString field.1 ++ ofString field.2).all fun c => c.val < 128) = true := by
    decide
  have both := scalar_append_iff.mp (scalar_ascii (ascii field member))
  exact ⟨both.1, .str both.2⟩

section
variable {limits : Json}

theorem jcsProfile_limitedChain (profile : JcsProfile limits) : JcsProfile (limitedChain limits) := by
  refine .dict (by simp only [List.map_cons, List.map_nil]; decide) ?_
  simp only [List.forall_mem_cons, List.not_mem_nil, false_implies, implies_true, and_true]
  exact ⟨.str _, .list (List.forall_mem_singleton.mpr jcsProfile_onlyHop), .str _, profile, .str _, .str _, .str _⟩

theorem encodable_limitedChain (encodable : Encodable limits) : Encodable (limitedChain limits) := by
  refine (encodable_dict_iff_of_ascii rfl).mpr ?_
  simp only [List.forall_mem_cons, List.not_mem_nil, false_implies, implies_true, and_true]
  have hops := encodable_list_iff.mpr (List.forall_mem_singleton.mpr encodable_onlyHop)
  exact ⟨.str (scalar_ascii rfl), hops, .str (scalar_ascii rfl), encodable, .str (scalar_ascii rfl),
    .str (scalar_ascii rfl), .str (scalar_ascii rfl)⟩

theorem not_hashesAlike_limited [Interpreter] (profile : JcsProfile limits) (encodable : Encodable limits)
    (shallow : Shallow (limitedChain limits)) (differing : ¬ Agreeing limits) : ¬ HashesAlike (limitedChain limits) := by
  rintro ⟨artifact, _, _⟩
  rcases ((encodeUtf8_jcsWithin_iff (jcsProfile_limitedChain profile)).mp artifact).2 shallow with absent | agreeing
  · exact absent (encodable_limitedChain encodable)
  · refine differing ((agreeing_dict_iff.mp agreeing).2 (ofString "limits", limits) ?_)
    simp

end

section
open Cpython

theorem hashesAlike_iff_limited : HashesAlike (limitedChain (.bool true)) ↔ Matching (limitedChain (.bool true)) ∧
    ∀ chainId hop fields, Signs (limitedChain (.bool true)) chainId hop fields → Matching fields :=
  hashesAlike_iff (jcsProfile_limitedChain (.bool true))

theorem isRepr_one : IsRepr one := by
  have value : one.decimal = 1 := by norm_num [FloatRepr.decimal, FloatRepr.natOf, one]
  refine .placed [1] 1 ⟨⟨by decide, by decide, by decide⟩, ?_⟩ (by rw [value]; decide +kernel) (by decide)
  rw [value]
  norm_num [FloatRepr.natOf]

/-- `1.0` is `1` to the specification, and U+1F600 stands before U+FF46; and the stack lasts for
400 lists in each other where `json.dumps` writes them alone. -/
theorem not_hashesAlike_odd :
    (JcsProfile (limitedChain (.float (.finite false one))) ∧
      ¬ HashesAlike (limitedChain (.float (.finite false one)))) ∧
    (JcsProfile (limitedChain (.dict [([0x1F600], .int 1), ([0xFF46], .int 2)])) ∧
      ¬ HashesAlike (limitedChain (.dict [([0x1F600], .int 1), ([0xFF46], .int 2)]))) ∧
    JcsProfile (limitedChain (nested 400)) ∧ ¬ HashesAlike (limitedChain (nested 400)) := by
  have float : JcsProfile (.float (.finite false one)) := .float false isRepr_one
  have keys : JcsProfile (.dict [([0x1F600], .int 1), ([0xFF46], .int 2)]) := by
    refine .dict (by decide) ?_
    simp only [List.forall_mem_cons, List.not_mem_nil, false_implies, implies_true, and_true]
    exact ⟨.int (by decide), .int (by decide)⟩
  have deep : JcsProfile (limitedChain (nested 400)) := jcsProfile_limitedChain (JcsProfile.nested 400)
  refine ⟨⟨jcsProfile_limitedChain float, not_hashesAlike_limited float (.float false one) (by decide) ?_⟩,
    ⟨jcsProfile_limitedChain keys, not_hashesAlike_limited keys (encodable_dict_iff.mpr ?_) (by decide) ?_⟩,
    deep, fun alike => ?_⟩
  · intro agreeing
    cases agreeing with
    | float _ alike => norm_num [WrittenAlike, FloatRepr.decimal, FloatRepr.natOf, one] at alike
  · simp only [List.forall_mem_cons, List.not_mem_nil, false_implies, implies_true, and_true]
    exact ⟨⟨List.forall_mem_singleton.mpr (Or.inr (by decide)), .int (by decide)⟩,
      List.forall_mem_singleton.mpr (Or.inr (by decide)), .int (by decide)⟩
  · intro agreeing
    exact absurd ((agreeing_dict_iff.mp agreeing).1 _ List.mem_cons_self _ (List.mem_cons_of_mem _ List.mem_cons_self))
      (by decide)
  · have matching := (encodeUtf8_jcsWithin_iff deep).mp alike.artifact
    exact absurd (matching.1.mp (by decide +kernel)) (by decide +kernel)

end

end Argentum.Delegation
