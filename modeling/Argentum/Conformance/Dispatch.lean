import Argentum.Conformance.PostCommit
import Argentum.Trail.Log

/-! The mapping of a dispatch to a join. The approved action and the dispatched one are written
as two preimages, a tool and a target as one scope, and the verifier compares their hashes. -/
namespace Argentum.ExecutionJoin
open Text Jcs Sha256 Profiles

structure ApprovedAction where
  tool : Str
  target : Str
  payloadSha256 : Str
  approvedAt : Str

structure DispatchedAction where
  tool : Str
  target : Str

/-- What is read of a record, with the first of its delegations. -/
structure DispatchRecord where
  grantee : Json
  grantId : Str
  approvedAction : ApprovedAction
  dispatch : DispatchedAction

/-- `iso_to_ms`. `millis` is `int(time.timestamp() * 1000)`, by the machine's zone where the
time has none. -/
def isoToMs (fromisoformat : Trail.FromIsoFormat) (millis : Trail.DateTime → Except PyError Int) (iso : Str) :
    Except PyError Int :=
  match fromisoformat (iso.flatMap fun c => if c = ofChar 'Z' then ofString "+00:00" else [c]) with
  | some time => millis time
  | none => .error .valueError

/-- `ref`, on a stack that lasts. -/
def ref (preimage : Json) : Except PyError Str := do return hexOf (sha256 (← boundlessBytes preimage))

def scopeOf (tool target : Str) : Str := tool ++ ofChar ':' :: target

def joinVersion : Json := .str (ofString "execution-join-ref-v1")

/-- The preimage of an action, approved or dispatched. -/
def actionPreimage (grantee : Json) (tool target inputHash : Str) (tsMs : Int) : Json :=
  .dict [(ofString "actor_id", grantee), (ofString "input_hash", .str inputHash),
    (ofString "scope", .str (scopeOf tool target)), (Key.tsMs, .int tsMs), (Key.version, joinVersion)]

def decisionPreimage (actionRef grantId : Str) (tsMs : Int) : Json :=
  .dict [(Key.actionRef, .str actionRef), (Key.outcome, .str (ofString "permit")),
    (ofString "policy_id", .str (ofString "delegation:" ++ grantId)), (Key.tsMs, .int tsMs), (Key.version, joinVersion)]

def joinVector (action effective decision : Json) (actionRef effectiveRef decisionId : Str) : Vector where
  envelope := [(Key.actionRef, .str actionRef), (Key.effectiveActionRef, .str effectiveRef),
    (Key.decisionId, .str decisionId)]
  preimages := some [(Key.actionRef, action), (Key.effectiveActionRef, effective), (Key.decisionId, decision)]
  checks := []
  failureMode := .null

def DispatchRecord.approvedPreimage (record : DispatchRecord) (tsMs : Int) : Json :=
  actionPreimage record.grantee record.approvedAction.tool record.approvedAction.target
    record.approvedAction.payloadSha256 tsMs

def DispatchRecord.effectivePreimage (record : DispatchRecord) (dispatchedBytes : Bytes) (tsMs : Int) : Json :=
  actionPreimage record.grantee record.dispatch.tool record.dispatch.target (hexOf (sha256 dispatchedBytes)) tsMs

/-- `build_vector` -/
def buildVector (fromisoformat : Trail.FromIsoFormat) (millis : Trail.DateTime → Except PyError Int)
    (record : DispatchRecord) (dispatchedBytes : Bytes) : Except PyError Vector := do
  let sharedTsMs ← isoToMs fromisoformat millis record.approvedAction.approvedAt
  let action := record.approvedPreimage sharedTsMs
  let effective := record.effectivePreimage dispatchedBytes sharedTsMs
  let actionRef ← ref action
  let effectiveRef ← ref effective
  let decision := decisionPreimage actionRef record.grantId sharedTsMs
  let decisionId ← ref decision
  return joinVector action effective decision actionRef effectiveRef decisionId

/-- The dispatched tool, target and payload are the approved ones. -/
def Unchanged (record : DispatchRecord) (dispatchedBytes : Bytes) : Prop :=
  record.dispatch.tool = record.approvedAction.tool ∧ record.dispatch.target = record.approvedAction.target ∧
    hexOf (sha256 dispatchedBytes) = record.approvedAction.payloadSha256

/-- The bytes that are hashed for the two actions. -/
def hashedActions (record : DispatchRecord) (dispatchedBytes : Bytes) (tsMs : Int) : List Bytes :=
  [record.approvedPreimage tsMs, record.effectivePreimage dispatchedBytes tsMs].filterMap fun preimage =>
    (boundlessBytes preimage).toOption

section
variable (isSupported : Json → Except Raised Bool) (fromisoformat : Trail.FromIsoFormat)
  (millis : Trail.DateTime → Except PyError Int) (record : DispatchRecord) (dispatchedBytes : Bytes)

/-- The mapped record is verified, and the sixth check holds exactly where the dispatch is the
approved action, but for a collision of the two hashes. -/
def Detects : Prop :=
  ∃ tsMs vector report bound, isoToMs fromisoformat millis record.approvedAction.approvedAt = .ok tsMs ∧
    buildVector fromisoformat millis record dispatchedBytes = .ok vector ∧
    verifyVector isSupported vector = .ok report ∧
    report.computed.lookup .effectiveCallBinding = some (some bound) ∧
    ((bound = true ↔ Unchanged record dispatchedBytes) ∨ Trail.Collides (hashedActions record dispatchedBytes tsMs))

/-- The record can be written: its time is read, its integers are exact in a double and its
texts have no surrogate. -/
structure Writable : Prop where
  timed : ∃ tsMs, isoToMs fromisoformat millis record.approvedAction.approvedAt = .ok tsMs ∧ Encodable (.int tsMs)
  grantee : Encodable record.grantee
  grantId : Scalar record.grantId
  payload : Scalar record.approvedAction.payloadSha256
  tool : Scalar record.approvedAction.tool
  target : Scalar record.approvedAction.target
  dispatchedTool : Scalar record.dispatch.tool
  dispatchedTarget : Scalar record.dispatch.target

/-- Where the payload is the approved one, another tool or target makes another scope. -/
def ScopeTold : Prop :=
  hexOf (sha256 dispatchedBytes) = record.approvedAction.payloadSha256 →
    scopeOf record.dispatch.tool record.dispatch.target =
      scopeOf record.approvedAction.tool record.approvedAction.target →
    record.dispatch.tool = record.approvedAction.tool ∧ record.dispatch.target = record.approvedAction.target

end

section
variable {isSupported : Json → Except Raised Bool} {fromisoformat : Trail.FromIsoFormat}
  {millis : Trail.DateTime → Except PyError Int} {record : DispatchRecord} {dispatchedBytes : Bytes}
  {preimage grantee grantee' : Json} {digest tool target inputHash tool' target' inputHash' actionRef grantId : Str}
  {tsMs : Int}

theorem ref_eq_ok_iff : ref preimage = .ok digest ↔
    ∃ bytes, boundlessBytes preimage = .ok bytes ∧ digest = hexOf (sha256 bytes) := by
  unfold ref
  constructor
  · intro hashed
    obtain ⟨bytes, encoded, hashed⟩ := bind_ok hashed
    cases hashed
    exact ⟨bytes, encoded, rfl⟩
  · rintro ⟨bytes, encoded, rfl⟩
    exact bind_ok_iff.mpr ⟨bytes, encoded, rfl⟩

theorem ref_isOk_iff : (∃ digest, ref preimage = .ok digest) ↔ Encodable preimage := by
  simp only [← boundlessBytes_isOk_iff, ref_eq_ok_iff]
  exact ⟨fun ⟨_, bytes, encoded, _⟩ => ⟨bytes, encoded⟩, fun ⟨bytes, encoded⟩ => ⟨_, bytes, encoded, rfl⟩⟩

theorem recompute_of_ref (hashed : ref preimage = .ok digest) : recompute preimage = some digest := by
  obtain ⟨bytes, encoded, rfl⟩ := ref_eq_ok_iff.mp hashed
  rw [recompute, encoded]

theorem scalar_scopeOf_iff : Scalar (scopeOf tool target) ↔ Scalar tool ∧ Scalar target := by
  rw [scopeOf, scalar_append_iff, scalar_cons_iff (by decide)]

theorem encodable_joinVersion : Encodable joinVersion := .str (scalar_ascii (by decide))

theorem encodable_actionPreimage_iff : Encodable (actionPreimage grantee tool target inputHash tsMs) ↔
    Encodable grantee ∧ Scalar inputHash ∧ Scalar tool ∧ Scalar target ∧ Encodable (.int tsMs) := by
  rw [actionPreimage, encodable_dict_iff_of_ascii rfl]
  simp only [List.forall_mem_cons, List.not_mem_nil, false_implies, implies_true, and_true, encodable_str_iff,
    scalar_scopeOf_iff, encodable_joinVersion]
  tauto

theorem encodable_decisionPreimage_iff : Encodable (decisionPreimage actionRef grantId tsMs) ↔
    Scalar actionRef ∧ Scalar grantId ∧ Encodable (.int tsMs) := by
  have permit : Scalar (ofString "permit") := scalar_ascii (by decide)
  have delegation : Scalar (ofString "delegation:") := scalar_ascii (by decide)
  rw [decisionPreimage, encodable_dict_iff_of_ascii rfl]
  simp only [List.forall_mem_cons, List.not_mem_nil, false_implies, implies_true, and_true, encodable_str_iff,
    scalar_append_iff, encodable_joinVersion, permit, delegation, true_and]

/-- Preimages that are written alike have the same scope and the same payload. -/
theorem actionPreimage_inj {bytes : Bytes}
    (encoded : boundlessBytes (actionPreimage grantee tool target inputHash tsMs) = .ok bytes)
    (also : boundlessBytes (actionPreimage grantee tool' target' inputHash' tsMs) = .ok bytes) :
    scopeOf tool target = scopeOf tool' target' ∧ inputHash = inputHash' := by
  have same := canonical_of_boundlessBytes encoded also
  constructor
  · have scopes := canonical_lookup same (ofString "scope")
    have read := Option.some.inj (show some (canonical (.str (scopeOf tool target))) =
      some (canonical (.str (scopeOf tool' target'))) from scopes)
    exact Json.str.inj (canonical_eq_str.mp read)
  · have hashes := canonical_lookup same (ofString "input_hash")
    have read := Option.some.inj
      (show some (canonical (.str inputHash)) = some (canonical (.str inputHash')) from hashes)
    exact Json.str.inj (canonical_eq_str.mp read)

/-- A preimage that is complete and hashes to the envelope's reference is matched. -/
theorem checkRef_matched {envelope : Fields} {refName : Str} (reference : refName ≠ Key.postCommitObservation)
    (complete : completeRef refName preimage = .ok true) (hashed : recompute preimage = some digest)
    (named : field envelope refName = .str digest) : checkRef envelope refName preimage = .ok .matched := by
  rw [checkRef, if_neg reference, complete]
  have same : matchesRef envelope refName preimage = true := matchesRef_iff.mpr ⟨digest, hashed, named⟩
  rw [bind_ok_iff]
  exact ⟨true, rfl, by rw [same]; rfl⟩

/-- The verifier compares the two references. -/
theorem verify_joinVector {effectiveRef decisionId : Str}
    (hashed : recompute (actionPreimage grantee tool target inputHash tsMs) = some actionRef)
    (dispatched : recompute (actionPreimage grantee' tool' target' inputHash' tsMs) = some effectiveRef)
    (decided : recompute (decisionPreimage actionRef grantId tsMs) = some decisionId) :
    ∃ report, verifyVector isSupported (joinVector (actionPreimage grantee tool target inputHash tsMs)
        (actionPreimage grantee' tool' target' inputHash' tsMs) (decisionPreimage actionRef grantId tsMs) actionRef
        effectiveRef decisionId) = .ok report ∧
      report.computed.lookup .effectiveCallBinding = some (some (decide (actionRef = effectiveRef))) := by
  have target : targetRef [(Key.actionRef, .str actionRef), (Key.effectiveActionRef, .str effectiveRef),
      (Key.decisionId, .str decisionId)] = .str effectiveRef := if_pos (decide_eq_true (digest_ne_nil dispatched))
  have covers : decisionCovers [(Key.actionRef, .str actionRef), (Key.effectiveActionRef, .str effectiveRef),
      (Key.decisionId, .str decisionId)] false (decisionPreimage actionRef grantId tsMs) =
        decide (actionRef = effectiveRef) := by
    have named : (decisionPreimage actionRef grantId tsMs).get Key.actionRef = .str actionRef := rfl
    have permitted : (decisionPreimage actionRef grantId tsMs).get Key.outcome = .str (ofString "permit") := rfl
    rw [decisionCovers, target, named, permitted, Bool.eq_iff_iff, Bool.and_eq_true, Json.str_eq, decide_eq_true_eq,
      eq_self_iff_true, and_true]
    exact Json.str_eq.trans ⟨fun same => (Json.str.inj same).symm, fun same => congrArg Json.str same.symm⟩
  refine ⟨_, verifyPreimages_of_results rfl (@results_of_unobserved _ _ [(Key.actionRef, .matched),
    (Key.effectiveActionRef, .matched), (Key.decisionId, .matched)] _ ?_ rfl rfl), ?_⟩
  · exact checkRefs_cons_ok (checkRef_matched (by decide) rfl hashed rfl)
      (checkRefs_cons_ok (checkRef_matched (by decide) rfl dispatched rfl)
        (checkRefs_cons_ok (checkRef_matched (by decide) rfl decided rfl) rfl))
  · rw [← covers]
    exact congrArg (fun bound => some (some bound)) (Bool.and_true _)

/-- A record that can be written is mapped, with the references of its two actions. -/
theorem buildVector_of_writable (writable : Writable fromisoformat millis record)
    (isSupported : Json → Except Raised Bool) (dispatchedBytes : Bytes) :
    ∃ tsMs vector actionRef effectiveRef, isoToMs fromisoformat millis record.approvedAction.approvedAt = .ok tsMs ∧
      buildVector fromisoformat millis record dispatchedBytes = .ok vector ∧
      ref (record.approvedPreimage tsMs) = .ok actionRef ∧
      ref (record.effectivePreimage dispatchedBytes tsMs) = .ok effectiveRef ∧
      ∃ report, verifyVector isSupported vector = .ok report ∧
        report.computed.lookup .effectiveCallBinding = some (some (decide (actionRef = effectiveRef))) := by
  obtain ⟨⟨tsMs, timed, exact⟩, grantee, grantId, payload, tool, target, dispatchedTool, dispatchedTarget⟩ := writable
  obtain ⟨actionRef, hashed⟩ := ref_isOk_iff.mpr
    (encodable_actionPreimage_iff.mpr ⟨grantee, payload, tool, target, exact⟩)
  obtain ⟨effectiveRef, dispatched⟩ := ref_isOk_iff.mpr
    (encodable_actionPreimage_iff.mpr ⟨grantee, scalar_hexOf, dispatchedTool, dispatchedTarget, exact⟩)
  have scalar : Scalar actionRef := by
    obtain ⟨bytes, _, rfl⟩ := ref_eq_ok_iff.mp hashed
    exact scalar_hexOf
  obtain ⟨decisionId, decided⟩ := ref_isOk_iff.mpr (encodable_decisionPreimage_iff.mpr ⟨scalar, grantId, exact⟩)
  refine ⟨tsMs, _, actionRef, effectiveRef, timed, ?_, hashed, dispatched,
    verify_joinVector (recompute_of_ref hashed) (recompute_of_ref dispatched) (recompute_of_ref decided)⟩
  exact bind_ok_iff.mpr ⟨tsMs, timed, bind_ok_iff.mpr ⟨actionRef, hashed, bind_ok_iff.mpr ⟨effectiveRef, dispatched,
    bind_ok_iff.mpr ⟨decisionId, decided, rfl⟩⟩⟩⟩

theorem writable_of_buildVector {vector : Vector}
    (built : buildVector fromisoformat millis record dispatchedBytes = .ok vector) :
    Writable fromisoformat millis record := by
  obtain ⟨tsMs, timed, built⟩ := bind_ok built
  obtain ⟨actionRef, hashed, built⟩ := bind_ok built
  obtain ⟨effectiveRef, dispatched, built⟩ := bind_ok built
  obtain ⟨decisionId, decided, _⟩ := bind_ok built
  obtain ⟨grantee, payload, tool, target, exact⟩ := encodable_actionPreimage_iff.mp (ref_isOk_iff.mp ⟨_, hashed⟩)
  obtain ⟨_, _, dispatchedTool, dispatchedTarget, _⟩ :=
    encodable_actionPreimage_iff.mp (ref_isOk_iff.mp ⟨_, dispatched⟩)
  obtain ⟨_, grantId, _⟩ := encodable_decisionPreimage_iff.mp (ref_isOk_iff.mp ⟨_, decided⟩)
  exact ⟨⟨tsMs, timed, exact⟩, grantee, grantId, payload, tool, target, dispatchedTool, dispatchedTarget⟩

theorem effectivePreimage_eq (payload : hexOf (sha256 dispatchedBytes) = record.approvedAction.payloadSha256)
    (scopes : scopeOf record.dispatch.tool record.dispatch.target =
      scopeOf record.approvedAction.tool record.approvedAction.target) :
    record.effectivePreimage dispatchedBytes tsMs = record.approvedPreimage tsMs := by
  rw [DispatchRecord.effectivePreimage, DispatchRecord.approvedPreimage, actionPreimage, actionPreimage,
    payload, scopes]

/-- The references are equal where the payloads and the scopes are, or two preimages collide. -/
theorem ref_eq_iff {effectiveRef : Str} (hashed : ref (record.approvedPreimage tsMs) = .ok actionRef)
    (dispatched : ref (record.effectivePreimage dispatchedBytes tsMs) = .ok effectiveRef) :
    (actionRef = effectiveRef ↔
      hexOf (sha256 dispatchedBytes) = record.approvedAction.payloadSha256 ∧
        scopeOf record.dispatch.tool record.dispatch.target =
          scopeOf record.approvedAction.tool record.approvedAction.target) ∨
      Trail.Collides (hashedActions record dispatchedBytes tsMs) := by
  by_cases collides : Trail.Collides (hashedActions record dispatchedBytes tsMs)
  · exact Or.inr collides
  refine Or.inl ⟨fun same => ?_, fun ⟨payload, scopes⟩ => ?_⟩
  · obtain ⟨bytes, encoded, rfl⟩ := ref_eq_ok_iff.mp hashed
    obtain ⟨bytes', encoded', rfl⟩ := ref_eq_ok_iff.mp dispatched
    have strings : hashedActions record dispatchedBytes tsMs = [bytes, bytes'] := by
      simp [hashedActions, encoded, encoded', Except.toOption]
    rw [strings] at collides
    obtain rfl := Trail.eq_of_not_collides collides (by simp) (by simp) (hexOf_injective same)
    obtain ⟨scopes, payload⟩ := actionPreimage_inj encoded encoded'
    exact ⟨payload.symm, scopes.symm⟩
  · rw [effectivePreimage_eq payload scopes, hashed] at dispatched
    exact Except.ok.inj dispatched

/-- Equal preimages do not collide. -/
theorem not_collides_of_eq (same : record.effectivePreimage dispatchedBytes tsMs = record.approvedPreimage tsMs) :
    ¬ Trail.Collides (hashedActions record dispatchedBytes tsMs) := by
  rintro ⟨x, first, y, second, differ, _⟩
  rw [hashedActions, same] at first second
  cases encoded : (boundlessBytes (record.approvedPreimage tsMs)).toOption with
  | none => simp [encoded] at first
  | some bytes =>
      simp only [List.filterMap_cons, encoded, List.filterMap_nil, List.mem_cons, List.not_mem_nil, or_false, or_self]
        at first second
      exact differ (first.trans second.symm)

/-- What is mapped with equal payloads and scopes is said to be covered. -/
theorem bound_of_scopes {vector : Vector} {report : Report} {bound : Bool}
    (built : buildVector fromisoformat millis record dispatchedBytes = .ok vector)
    (verified : verifyVector isSupported vector = .ok report)
    (computed : report.computed.lookup .effectiveCallBinding = some (some bound))
    (payload : hexOf (sha256 dispatchedBytes) = record.approvedAction.payloadSha256)
    (scopes : scopeOf record.dispatch.tool record.dispatch.target =
      scopeOf record.approvedAction.tool record.approvedAction.target) : bound = true := by
  obtain ⟨tsMs, vector', actionRef, effectiveRef, _, built', hashed, dispatched, report', verified', computed'⟩ :=
    buildVector_of_writable (writable_of_buildVector built) isSupported dispatchedBytes
  obtain rfl := Except.ok.inj (built.symm.trans built')
  obtain rfl := Except.ok.inj (verified.symm.trans verified')
  rw [effectivePreimage_eq payload scopes, hashed] at dispatched
  obtain rfl := Option.some.inj (Option.some.inj (computed.symm.trans computed'))
  exact decide_eq_true (Except.ok.inj dispatched)

/-- The mapping detects the changed dispatches exactly where the record can be written and
its scopes are told apart. -/
theorem detects_iff (isSupported : Json → Except Raised Bool) (fromisoformat : Trail.FromIsoFormat)
    (millis : Trail.DateTime → Except PyError Int) (record : DispatchRecord) (dispatchedBytes : Bytes) :
    Detects isSupported fromisoformat millis record dispatchedBytes ↔
      Writable fromisoformat millis record ∧ ScopeTold record dispatchedBytes := by
  constructor
  · rintro ⟨tsMs, vector, report, bound, timed, built, verified, computed, told⟩
    refine ⟨writable_of_buildVector built, fun payload scopes => ?_⟩
    have exact := told.resolve_right (not_collides_of_eq (effectivePreimage_eq payload scopes))
    have unchanged := exact.mp (bound_of_scopes built verified computed payload scopes)
    exact ⟨unchanged.1, unchanged.2.1⟩
  · rintro ⟨writable, told⟩
    obtain ⟨tsMs, vector, actionRef, effectiveRef, timed, built, hashed, dispatched, report, verified, computed⟩ :=
      buildVector_of_writable writable isSupported dispatchedBytes
    refine ⟨tsMs, vector, report, _, timed, built, verified, computed,
      (ref_eq_iff hashed dispatched).imp_left fun same => ?_⟩
    rw [decide_eq_true_eq, same]
    constructor
    · rintro ⟨payload, scopes⟩
      obtain ⟨tool, target⟩ := told payload scopes
      exact ⟨tool, target, payload⟩
    · rintro ⟨tool, target, payload⟩
      exact ⟨payload, by rw [tool, target]⟩

end

/-- The zero of the clock, read as the library reads it. -/
def readEpoch : Trail.FromIsoFormat := fun text =>
  if text = ofString "1970-01-01T00:00:00+00:00" then some ⟨0, true⟩ else none

/-- The milliseconds of a time that carries its offset. -/
def readMillis (time : Trail.DateTime) : Except PyError Int := .ok (time.micros / 1000)

/-- The tool and the target of the approval are cut at another colon when they are dispatched. -/
def shiftedScope : DispatchRecord where
  grantee := text "agent"
  grantId := ofString "g"
  approvedAction := ⟨ofString "files:read", ofString "notes", hexOf (sha256 []), ofString "1970-01-01T00:00:00Z"⟩
  dispatch := ⟨ofString "files", ofString "read:notes"⟩

theorem not_detects_shiftedScope : ¬ Detects (fun _ => .ok true) readEpoch readMillis shiftedScope [] := by
  rintro ⟨tsMs, vector, report, bound, timed, built, verified, computed, told⟩
  have exact := told.resolve_right (not_collides_of_eq (effectivePreimage_eq rfl rfl))
  have unchanged := exact.mp (bound_of_scopes built verified computed rfl rfl)
  have same : shiftedScope.dispatch.tool = shiftedScope.approvedAction.tool := unchanged.1
  revert same
  decide

end Argentum.ExecutionJoin
