import Argentum.Conformance.Profiles

/-! The verifier of execution joins. It recomputes the references whose preimages are given,
compares what the preimages name with the envelope, and reports what it computed next to
what the vector declares. A preimage may be any JSON value, and one that is not an object
raises where its fields are read. -/
namespace Argentum.ExecutionJoin
open Text Jcs Sha256 Profiles

abbrev Fields := List (Str × Json)

/-- `fields.get(key)` -/
def field (fields : Fields) (key : Str) : Json := (fields.lookup key).getD .null

namespace Key

def actionRef : Str := ofString "action_ref"
def effectiveActionRef : Str := ofString "effective_action_ref"
def decisionId : Str := ofString "decision_id"
def attemptId : Str := ofString "attempt_id"
def resultId : Str := ofString "result_id"
def proofRef : Str := ofString "proof_ref"
def postCommitObservation : Str := ofString "post_commit_observation"
def postCommitRef : Str := ofString "post_commit_ref"
def canonicalizationProfileId : Str := ofString "canonicalization_profile_id"
def outcome : Str := ofString "outcome"
def policyExpiresMs : Str := ofString "policy_expires_ms"
def tsMs : Str := ofString "ts_ms"
def observedHash : Str := ofString "observed_hash"
def outputHash : Str := ofString "output_hash"
def version : Str := ofString "version"

end Key

/-- `REQUIRED_FIELDS` -/
def requiredFields : List (Str × List Str) :=
  let action := [ofString "actor_id", ofString "input_hash", ofString "scope", Key.tsMs, Key.version]
  [(Key.actionRef, action),
    (Key.effectiveActionRef, action),
    (Key.decisionId, [Key.actionRef, Key.outcome, ofString "policy_id", Key.tsMs, Key.version]),
    (Key.attemptId, [Key.actionRef, ofString "attempt_seq", ofString "executor_id", Key.tsMs, Key.version]),
    (Key.resultId, [Key.attemptId, Key.outcome, Key.outputHash, Key.tsMs, Key.version]),
    (Key.proofRef, [Key.attemptId, ofString "evidence_type", ofString "external_ref", Key.tsMs, Key.version]),
    (Key.postCommitObservation, [Key.resultId, Key.observedHash, ofString "observed_at_ms", ofString "observer_id",
      Key.version])]

/-- A vector: the envelope, the preimages that are given, what is declared of the checks,
and the failure that is expected. -/
structure Vector where
  envelope : Fields
  preimages : Option Fields
  checks : Fields
  failureMode : Json

/-- `recompute`: none where the encoder refuses with a `ValueError`, as it does on a stack that lasts.
A `RecursionError` would not be caught. -/
def recompute (preimage : Json) : Option Str :=
  match boundlessBytes preimage with
  | .ok bytes => some (hexOf (sha256 bytes))
  | .error _ => none

inductive Check where
  | canonicalEnvelope | chainIntegrity | noDuplicateAttempt | resultUniqueness | proofBinding
  | effectiveCallBinding | postCommitConsistency
  deriving DecidableEq

def Check.key : Check → Str
  | .canonicalEnvelope => ofString "canonical_envelope"
  | .chainIntegrity => ofString "chain_integrity"
  | .noDuplicateAttempt => ofString "no_duplicate_attempt"
  | .resultUniqueness => ofString "result_uniqueness"
  | .proofBinding => ofString "proof_binding"
  | .effectiveCallBinding => ofString "effective_call_binding"
  | .postCommitConsistency => ofString "post_commit_consistency"

/-- A failure, with the values its message shows. -/
inductive Failure where
  | verifierOffline
  | unsupportedCanonicalProfile (profileId : Json)
  | computedFalse (check : Check)
  | fixtureMismatch (check : Check) (computed : Bool) (declared : Json)
  | declaredFalse (check : Check)

/-- What the verifier returns: a check that was left open is computed as none. -/
structure Report where
  conforms : Bool
  failures : List Failure
  computed : List (Check × Option Bool)

def Report.of (failures : List Failure) (computed : List (Check × Option Bool)) : Report :=
  { conforms := failures.isEmpty, failures, computed }

/-- `_check`: the failures of a result. -/
def check (declared : Fields) (result : Check × Bool) : List Failure :=
  (if result.2 then [] else [.computedFalse result.1]) ++
    match declared.lookup result.1.key with
    | none => []
    | some value =>
        if value.isNull || value.eq (.bool result.2) then [] else [.fixtureMismatch result.1 result.2 value]

/-- The canonicalization profile gate: the id the decision declares, where it is not supported. -/
def unsupportedProfile (isSupported : Json → Except Raised Bool) : Json → Except Raised (Option Json)
  | .null => .ok none
  | .dict items =>
      match items.lookup Key.canonicalizationProfileId with
      | none => .ok none
      | some profileId => do return if ← isSupported profileId then none else some profileId
  -- a member or a part of another value is found by `in`, and cannot be read by name
  | .list items =>
      if items.any fun item => item.eq (.str Key.canonicalizationProfileId) then .error (.py .typeError) else .ok none
  | .str text =>
      if text.tails.any Key.canonicalizationProfileId.isPrefixOf then .error (.py .typeError) else .ok none
  | _ => .error (.py .typeError)

/-- `required.issubset(preimage.keys())` -/
def hasKeys (required : List Str) : Json → Except Raised Bool
  | .dict items => .ok (required.all fun key => (items.lookup key).isSome)
  | _ => .error (.py .attributeError)

/-- What the first invariant finds of one preimage. -/
inductive RefCheck where
  | exempt | malformed | matched | mismatched
  deriving DecidableEq

def RefCheck.ok : RefCheck → Bool
  | .exempt => true
  | .malformed => false
  | .matched => true
  | .mismatched => false

/-- The digest of a preimage is the reference of the envelope. -/
def matchesRef (envelope : Fields) (refName : Str) (preimage : Json) : Bool :=
  match recompute preimage with
  | some digest => (Json.str digest).eq (field envelope refName)
  | none => false

/-- A preimage has the fields that are required of it, if there are any. -/
def completeRef (refName : Str) (preimage : Json) : Except Raised Bool :=
  match requiredFields.lookup refName with
  | some required => hasKeys required preimage
  | none => .ok true

def checkRef (envelope : Fields) (refName : Str) (preimage : Json) : Except Raised RefCheck :=
  if refName = Key.postCommitObservation then .ok .exempt
  else do
    let complete ← completeRef refName preimage
    return if !complete then .malformed else if matchesRef envelope refName preimage then .matched else .mismatched

/-- The loop over the preimages, up to the first that raises. -/
def checkRefs (envelope : Fields) : Fields → Except Raised (List (Str × RefCheck))
  | [] => .ok []
  | (refName, preimage) :: rest => do
      let found ← checkRef envelope refName preimage
      let others ← checkRefs envelope rest
      return (refName, found) :: others

def canonicalOk (refs : List (Str × RefCheck)) : Bool := refs.all fun ref => ref.2.ok

def malformedDecision (refs : List (Str × RefCheck)) : Bool := refs.any fun ref => ref = (Key.decisionId, .malformed)

/-- A preimage that was gone over is an object. -/
def chainIntegrity (envelope : Fields) (malformed : Bool) (decisionPre resultPre : Json) : List (Check × Bool) :=
  if decisionPre.isNull && resultPre.isNull then []
  else
    [(.chainIntegrity,
      (decisionPre.isNull || !malformed && (decisionPre.get Key.actionRef).eq (field envelope Key.actionRef)) &&
        (resultPre.isNull || (resultPre.get Key.attemptId).eq (field envelope Key.attemptId)))]

def proofBinding (envelope : Fields) (proofPre : Json) : List (Check × Bool) :=
  if proofPre.isNull || (field envelope Key.proofRef).isNull then []
  else [(.proofBinding, (proofPre.get Key.attemptId).eq (field envelope Key.attemptId))]

/-- A number is less than another; NaN is neither less nor greater. -/
def lessNumber (value other : Json) : Except Raised Bool :=
  match other with
  | .bool _ | .int _ | .float _ =>
      .ok (match value.number?, other.number? with
        | some x, some y => x < y
        | _, _ => false)
  | _ => .error (.py .typeError)

mutual

/-- `value < other`: numbers, texts and lists have an order. -/
def less : Json → Json → Except Raised Bool
  | .list xs, other => match other with
      | .list ys => lessAll xs ys
      | _ => .error (.py .typeError)
  | .str s, other => match other with
      | .str t => .ok (s < t)
      | _ => .error (.py .typeError)
  | .bool b, other => lessNumber (.bool b) other
  | .int n, other => lessNumber (.int n) other
  | .float x, other => lessNumber (.float x) other
  | .null, _ => .error (.py .typeError)
  | .dict _, _ => .error (.py .typeError)
termination_by structural value => value

/-- The first members that differ decide. -/
def lessAll : List Json → List Json → Except Raised Bool
  | [], others => .ok !others.isEmpty
  | item :: rest, others => match others with
      | other :: others => if item.same other then lessAll rest others else less item other
      | [] => .ok false
termination_by structural items => items

end

/-- The decision's policy was in force at the decision's time. -/
def policyOk (decisionPre : Json) : Except Raised Bool :=
  if decisionPre.has Key.policyExpiresMs then do
    return !(← less (decisionPre.get Key.policyExpiresMs) (decisionPre.getD Key.tsMs (.int 0)))
  else .ok true

/-- The reference that was dispatched. -/
def targetRef (envelope : Fields) : Json := (field envelope Key.effectiveActionRef).or (field envelope Key.actionRef)

def decisionCovers (envelope : Fields) (malformed : Bool) (decisionPre : Json) : Bool :=
  !decisionPre.isNull && !malformed && (decisionPre.get Key.actionRef).eq (targetRef envelope) &&
    (decisionPre.get Key.outcome).eq (.str (ofString "permit"))

def effectiveCallBinding (envelope : Fields) (canonical malformed : Bool) (decisionPre : Json) :
    Except Raised (List (Check × Bool)) :=
  if decisionPre.isNull && (field envelope Key.effectiveActionRef).isNull then .ok []
  else do
    let policy ← policyOk decisionPre
    return [(.effectiveCallBinding, canonical && decisionCovers envelope malformed decisionPre && policy)]

def observationFields : List Str := (requiredFields.lookup Key.postCommitObservation).getD []

/-- The observation is the one of the envelope: a digest that is none equals one that is absent. -/
def observationRefOk (envelope : Fields) (observation : Json) : Bool :=
  match recompute observation with
  | some digest => (Json.str digest).eq (field envelope Key.postCommitRef)
  | none => (field envelope Key.postCommitRef).isNull

def postCommitConsistency (envelope : Fields) (observation resultPre : Json) : Except Raised (List (Check × Bool)) :=
  if observation.isNull then .ok []
  else do
    let complete ← hasKeys observationFields observation
    return [(.postCommitConsistency,
      complete && observationRefOk envelope observation &&
        (observation.get Key.resultId).eq (field envelope Key.resultId) &&
        (!resultPre.isNull && (observation.get Key.observedHash).eq (resultPre.get Key.outputHash)))]

/-- What is declared of the two checks that need a registry of other records. -/
def declaredFailures (declared : Fields) : List Failure :=
  [Check.noDuplicateAttempt, .resultUniqueness].flatMap fun key =>
    match declared.lookup key.key with
    | some (.bool false) => [.declaredFalse key]
    | _ => []

/-- The results before the declared checks, and those after them. -/
structure Results where
  early : List (Check × Bool)
  late : List (Check × Bool)

def Results.report (results : Results) (declared : Fields) : Report :=
  .of (results.early.flatMap (check declared) ++ declaredFailures declared ++ results.late.flatMap (check declared))
    ((results.early ++ results.late).map fun result => (result.1, some result.2))

/-- The seven invariants, past the gate. -/
def results (envelope preimages : Fields) : Except Raised Results := do
  let decisionPre := field preimages Key.decisionId
  let resultPre := field preimages Key.resultId
  let refs ← checkRefs envelope preimages
  let effective ← effectiveCallBinding envelope (canonicalOk refs) (malformedDecision refs) decisionPre
  let observed ← postCommitConsistency envelope (field preimages Key.postCommitObservation) resultPre
  let canonical := if preimages.isEmpty then [] else [(.canonicalEnvelope, canonicalOk refs)]
  return ⟨canonical ++ chainIntegrity envelope (malformedDecision refs) decisionPre resultPre,
    proofBinding envelope (field preimages Key.proofRef) ++ effective ++ observed⟩

def verifyPreimages (isSupported : Json → Except Raised Bool) (vector : Vector) (preimages : Fields) :
    Except Raised Report := do
  match ← unsupportedProfile isSupported (field preimages Key.decisionId) with
  | some profileId =>
      return .of [.unsupportedCanonicalProfile profileId]
        [(.canonicalEnvelope, none), (.chainIntegrity, none), (.effectiveCallBinding, none)]
  | none => return (← results vector.envelope preimages).report vector.checks

/-- `verify_vector`, with the profile registry's `is_supported`. -/
def verifyVector (isSupported : Json → Except Raised Bool) (vector : Vector) : Except Raised Report :=
  match vector.preimages with
  | some preimages => verifyPreimages isSupported vector preimages
  | none =>
      if vector.failureMode.eq (.str (ofString "VERIFIER_OFFLINE")) then
        .ok (.of [.verifierOffline] [(.canonicalEnvelope, none), (.chainIntegrity, none), (.noDuplicateAttempt, none),
          (.resultUniqueness, none), (.proofBinding, none)])
      else verifyPreimages isSupported vector []

end Argentum.ExecutionJoin
