import Argentum.Conformance.JoinSoundness

/-! Rewritten actions. One check asks the decision to name the action that was proposed and
another the one that was dispatched, so no decision covers a rewrite. -/
namespace Argentum.ExecutionJoin
open Text Profiles

/-- A record of a rewrite that was decided on, as the specification has it: all that is
given recomputes, the decision permits the rewritten action, and nothing is declared false. -/
structure AuthorizedRewrite (isSupported : Json → Except Raised Bool) (vector : Vector) (preimages : Fields)
    (effective : Str) : Prop where
  given : vector.preimages = some preimages
  dispatched : field vector.envelope Key.effectiveActionRef = .str effective
  rewritten : field vector.envelope Key.actionRef ≠ .str effective
  recomputed : ∀ entry ∈ preimages, entry.1 ≠ Key.postCommitObservation →
    Recomputes vector.envelope entry.1 entry.2
  observed : field preimages Key.postCommitObservation ≠ .null →
    hasKeys observationFields (field preimages Key.postCommitObservation) = .ok true ∧
      observationRefOk vector.envelope (field preimages Key.postCommitObservation) = true
  decided : Names (field preimages Key.decisionId) Key.actionRef (.str effective)
  permitted : Names (field preimages Key.decisionId) Key.outcome (text "permit")
  profiled : ∃ profileId, (field preimages Key.decisionId).item Key.canonicalizationProfileId = .ok profileId ∧
    isSupported profileId = .ok true
  inForce : policyOk (field preimages Key.decisionId) = .ok true
  resulted : field preimages Key.resultId ≠ .null →
    Names (field preimages Key.resultId) Key.attemptId (field vector.envelope Key.attemptId)
  proved : field preimages Key.proofRef ≠ .null →
    Names (field preimages Key.proofRef) Key.attemptId (field vector.envelope Key.attemptId)
  undeclared : ∀ item ∈ vector.checks, item.2 ≠ .bool false

section
variable {isSupported : Json → Except Raised Bool} {vector : Vector} {envelope declared preimages : Fields}
  {refs : List (Str × RefCheck)} {effective : Str} {decisionPre resultPre observation : Json}

/-- A decision with a supported profile passes the gate. -/
theorem unsupportedProfile_of_item {profileId : Json}
    (read : decisionPre.item Key.canonicalizationProfileId = .ok profileId)
    (supported : isSupported profileId = .ok true) :
    unsupportedProfile isSupported decisionPre = .ok none := by
  obtain ⟨items, rfl, found⟩ := Json.item_ok read
  rw [unsupportedProfile, found]
  exact bind_ok_iff.mpr ⟨true, supported, rfl⟩

/-- A decision that does not name the envelope's action breaks the chain. -/
theorem computedFalse_of_unchained {canonical late : List (Check × Bool)} {malformed : Bool}
    (given : decisionPre ≠ .null) (unchained : ¬ Names decisionPre Key.actionRef (field envelope Key.actionRef)) :
    Failure.computedFalse .chainIntegrity ∈
      (Results.report ⟨canonical ++ chainIntegrity envelope malformed decisionPre resultPre,
        late⟩ declared).failures := by
  have broken : (Check.chainIntegrity, false) ∈ chainIntegrity envelope malformed decisionPre resultPre := by
    have unnamed : (decisionPre.get Key.actionRef).eq (field envelope Key.actionRef) = false :=
      eq_false_of_ne_true unchained
    rw [chainIntegrity, Json.isNull_false_iff.mpr given, unnamed]
    simp
  rw [Results.report, Report.of]
  apply List.mem_append_left
  apply List.mem_append_left
  exact List.mem_flatMap.mpr ⟨_, List.mem_append_right _ broken, List.mem_append_left _ (List.mem_singleton.mpr rfl)⟩

theorem conforms_false_of_mem {failure : Failure} {failures : List Failure} {computed : List (Check × Option Bool)}
    (member : failure ∈ failures) : (Report.of failures computed).conforms = false :=
  List.isEmpty_eq_false_iff.mpr (List.ne_nil_of_mem member)

/-- The decision names the rewritten action, and so not the one that was proposed. -/
theorem AuthorizedRewrite.unchained (rewrite : AuthorizedRewrite isSupported vector preimages effective) :
    ¬ Names (field preimages Key.decisionId) Key.actionRef (field vector.envelope Key.actionRef) := by
  have names := rewrite.decided
  rw [Names, Json.eq_str] at names
  rw [Names, names, Json.str_eq]
  exact rewrite.rewritten

theorem AuthorizedRewrite.decision_ne_null (rewrite : AuthorizedRewrite isSupported vector preimages effective) :
    field preimages Key.decisionId ≠ .null := by
  obtain ⟨profileId, read, _⟩ := rewrite.profiled
  obtain ⟨items, decision, _⟩ := Json.item_ok read
  rw [decision]
  exact Json.noConfusion

/-- No authorized rewrite is accepted: its chain is reported as broken. -/
theorem AuthorizedRewrite.chainBroken (rewrite : AuthorizedRewrite isSupported vector preimages effective) :
    ∃ report, verifyVector isSupported vector = .ok report ∧ report.conforms = false ∧
      Failure.computedFalse .chainIntegrity ∈ report.failures := by
  obtain ⟨profileId, read, supported⟩ := rewrite.profiled
  have gate := unsupportedProfile_of_item read supported
  obtain ⟨refs, checked, ok⟩ := checkRefs_ok_iff.mpr rewrite.recomputed
  obtain ⟨effect, _, bound⟩ := effectiveCallBinding_returns rewrite.inForce vector.envelope (canonicalOk refs)
    (malformedDecision refs)
  obtain ⟨observed, _, consistent⟩ := postCommitConsistency_returns (fun there => (rewrite.observed there).1)
    vector.envelope (field preimages Key.resultId)
  have verified := verifyPreimages_of_results gate
    (bind_ok_iff.mpr ⟨refs, checked, bind_ok_iff.mpr ⟨effect, bound, bind_ok_iff.mpr ⟨observed, consistent, rfl⟩⟩⟩)
  refine ⟨_, (verifyVector_of_given rewrite.given).trans verified, ?_, ?_⟩
  · exact conforms_false_of_mem (computedFalse_of_unchained rewrite.decision_ne_null rewrite.unchained)
  · exact computedFalse_of_unchained rewrite.decision_ne_null rewrite.unchained

end

/-- The profile that the registry has under its first alias. -/
def aliasedProfile : Json := text "f018a62879ab01f21e8fe5e9e7486dadba0b795e9358b32fd24d38d2c1f1f07d"

/-- The answers of a registry that has this profile only. -/
def supportsAliased (profileId : Json) : Except Raised Bool := .ok (profileId.eq aliasedProfile)

/-- The decision on the rewritten action. -/
def rewriteDecision : Json :=
  stamped [(Key.actionRef, refOf (actionOf "b")), (Key.outcome, text "permit"), (ofString "policy_id", text "p"),
    (Key.canonicalizationProfileId, aliasedProfile)]

/-- The action on one input was proposed and the one on another dispatched, after a decision on it. -/
def rewriteRecord : Vector :=
  let result := stamped [(Key.attemptId, text "t"), (Key.outcome, text "completed"), (Key.outputHash, text "o")]
  { envelope := [(Key.actionRef, refOf (actionOf "a")), (Key.effectiveActionRef, refOf (actionOf "b")),
      (Key.decisionId, refOf rewriteDecision), (Key.attemptId, text "t"), (Key.resultId, refOf result)]
    preimages := some [(Key.actionRef, actionOf "a"), (Key.effectiveActionRef, actionOf "b"),
      (Key.decisionId, rewriteDecision), (Key.resultId, result)]
    checks := []
    failureMode := .null }

theorem authorizedRewrite_rewriteRecord : AuthorizedRewrite supportsAliased rewriteRecord
    (rewriteRecord.preimages.getD []) ((recompute (actionOf "b")).getD []) where
  given := rfl
  dispatched := Json.eq_str.mp (by decide +kernel)
  rewritten := mt Json.eq_str.mpr (by decide +kernel)
  recomputed := checkRefs_ok_iff.mp ⟨[(Key.actionRef, .matched), (Key.effectiveActionRef, .matched),
    (Key.decisionId, .matched), (Key.resultId, .matched)], by decide +kernel, rfl⟩
  observed := fun given => absurd rfl given
  decided := by
    unfold Names
    decide +kernel
  permitted := rfl
  profiled := ⟨aliasedProfile, rfl, congrArg Except.ok (Json.eq_str.mpr rfl)⟩
  inForce := rfl
  resulted := fun _ => rfl
  proved := fun given => absurd rfl given
  undeclared := fun item member => absurd member List.not_mem_nil

theorem chainBroken_rewriteRecord :
    ∃ report, verifyVector supportsAliased rewriteRecord = .ok report ∧ report.conforms = false ∧
      Failure.computedFalse .chainIntegrity ∈ report.failures :=
  authorizedRewrite_rewriteRecord.chainBroken

/-- The specification's way to rewrite an action is refused. -/
theorem not_accepts_rewriteRecord :
    ¬ (∀ preimages effective, AuthorizedRewrite supportsAliased rewriteRecord preimages effective →
      accepts supportsAliased rewriteRecord = true) := by
  intro accepted
  have rewrite := authorizedRewrite_rewriteRecord
  obtain ⟨report, verified, conforms⟩ := accepts_iff.mp (accepted _ _ rewrite)
  rw [verifyVector_of_given rewrite.given] at verified
  have admissible := conforms_iff.mp ⟨report, verified, conforms⟩
  exact rewrite.unchained (admissible.decided rewrite.decision_ne_null)

end Argentum.ExecutionJoin
