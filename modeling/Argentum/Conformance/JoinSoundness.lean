import Argentum.Conformance.ExecutionJoin

/-! What an accepted join is. A vector conforms exactly where every reference recomputes and
the links the verifier compares hold. Two links of the specification are not among them: a
decision may name no profile, and an attempt may name any action. -/
namespace Argentum.ExecutionJoin
open Text Jcs Sha256 Profiles

/-- A preimage names a reference in one of its fields. -/
def Names (preimage : Json) (key : Str) (ref : Json) : Prop := (preimage.get key).eq ref = true

/-- Nothing else is declared of a check than that it holds. -/
def Undisputed (declared : Fields) (key : Check) : Prop :=
  ∀ value, declared.lookup key.key = some value → value = .null ∨ value.eq (.bool true) = true

def Unreported (declared : Fields) : Prop :=
  ∀ key ∈ [Check.noDuplicateAttempt, .resultUniqueness], declared.lookup key.key ≠ some (.bool false)

/-- A preimage has its fields and hashes to the envelope's reference. -/
structure Recomputes (envelope : Fields) (refName : Str) (preimage : Json) : Prop where
  complete : completeRef refName preimage = .ok true
  hashed : ∃ digest, recompute preimage = some digest ∧ field envelope refName = .str digest

/-- The decision allows the dispatched action, under a policy in force. -/
structure Covers (envelope : Fields) (decisionPre : Json) : Prop where
  given : decisionPre ≠ .null
  names : Names decisionPre Key.actionRef (targetRef envelope)
  permits : Names decisionPre Key.outcome (.str (ofString "permit"))
  inForce : policyOk decisionPre = .ok true

/-- The observation is the one of the envelope, of this result and of what it put out. -/
structure Observes (envelope : Fields) (observation resultPre : Json) : Prop where
  complete : hasKeys observationFields observation = .ok true
  hashed : observationRefOk envelope observation = true
  names : Names observation Key.resultId (field envelope Key.resultId)
  given : resultPre ≠ .null
  output : Names observation Key.observedHash (resultPre.get Key.outputHash)

/-- What the verifier asks of a vector with these preimages. -/
structure Admissible (isSupported : Json → Except Raised Bool) (vector : Vector) (preimages : Fields) : Prop where
  supported : unsupportedProfile isSupported (field preimages Key.decisionId) = .ok none
  canonical : preimages ≠ [] → (∀ entry ∈ preimages, entry.1 ≠ Key.postCommitObservation →
    Recomputes vector.envelope entry.1 entry.2) ∧ Undisputed vector.checks .canonicalEnvelope
  decided : field preimages Key.decisionId ≠ .null →
    Names (field preimages Key.decisionId) Key.actionRef (field vector.envelope Key.actionRef)
  resulted : field preimages Key.resultId ≠ .null →
    Names (field preimages Key.resultId) Key.attemptId (field vector.envelope Key.attemptId)
  chained : field preimages Key.decisionId ≠ .null ∨ field preimages Key.resultId ≠ .null →
    Undisputed vector.checks .chainIntegrity
  proved : field preimages Key.proofRef ≠ .null → field vector.envelope Key.proofRef ≠ .null →
    Names (field preimages Key.proofRef) Key.attemptId (field vector.envelope Key.attemptId) ∧
      Undisputed vector.checks .proofBinding
  covered : field preimages Key.decisionId ≠ .null ∨ field vector.envelope Key.effectiveActionRef ≠ .null →
    Covers vector.envelope (field preimages Key.decisionId) ∧ Undisputed vector.checks .effectiveCallBinding
  observed : field preimages Key.postCommitObservation ≠ .null →
    Observes vector.envelope (field preimages Key.postCommitObservation) (field preimages Key.resultId) ∧
      Undisputed vector.checks .postCommitConsistency
  unreported : Unreported vector.checks

section
variable {envelope declared preimages : Fields} {refName : Str} {preimage decisionPre resultPre : Json}
  {refs : List (Str × RefCheck)}

/-- Every result of a list holds and is undisputed. -/
def Pass (declared : Fields) (found : List (Check × Bool)) : Prop :=
  ∀ result ∈ found, result.2 = true ∧ Undisputed declared result.1

theorem pass_singleton {key : Check} {ok : Bool} : Pass declared [(key, ok)] ↔ ok = true ∧ Undisputed declared key :=
  List.forall_mem_singleton

theorem pass_append {found others : List (Check × Bool)} :
    Pass declared (found ++ others) ↔ Pass declared found ∧ Pass declared others := List.forall_mem_append

theorem check_eq_nil_iff {result : Check × Bool} :
    check declared result = [] ↔ result.2 = true ∧ Undisputed declared result.1 := by
  obtain ⟨key, ok⟩ := result
  rw [check, List.append_eq_nil_iff]
  cases ok with
  | false => simp
  | true =>
      refine and_congr (iff_of_true rfl rfl) ?_
      unfold Undisputed
      cases declared.lookup key.key with
      | none => exact iff_of_true rfl fun _ found => by cases found
      | some value =>
          simp only [Option.some.injEq, forall_eq', ← Json.isNull_iff, ← Bool.or_eq_true]
          cases value.isNull || value.eq (.bool true) <;> simp

theorem flatMap_check_eq_nil_iff {found : List (Check × Bool)} :
    found.flatMap (check declared) = [] ↔ Pass declared found := by
  rw [List.flatMap_eq_nil_iff]
  exact forall₂_congr fun _ _ => check_eq_nil_iff

theorem declaredFailures_eq_nil_iff : declaredFailures declared = [] ↔ Unreported declared := by
  rw [declaredFailures, List.flatMap_eq_nil_iff]
  refine forall₂_congr fun key _ => ?_
  split
  · rename_i said
    exact iff_of_false (List.cons_ne_nil _ _) fun none => none said
  · rename_i unsaid
    exact iff_of_true rfl unsaid

theorem report_conforms_iff {found : Results} : (found.report declared).conforms = true ↔
    Pass declared found.early ∧ Pass declared found.late ∧ Unreported declared := by
  rw [Results.report, Report.of]
  simp only [List.isEmpty_iff, List.append_eq_nil_iff, flatMap_check_eq_nil_iff, declaredFailures_eq_nil_iff]
  tauto

theorem matchesRef_iff : matchesRef envelope refName preimage = true ↔
    ∃ digest, recompute preimage = some digest ∧ field envelope refName = .str digest := by
  unfold matchesRef
  cases recompute preimage with
  | none => simp
  | some digest => simp

/-- A preimage that is gone over without fault has its fields and its hash. -/
theorem checkRef_ok_iff (reference : refName ≠ Key.postCommitObservation) :
    (∃ found, checkRef envelope refName preimage = .ok found ∧ found.ok = true) ↔
      Recomputes envelope refName preimage := by
  rw [checkRef, if_neg reference]
  constructor
  · rintro ⟨found, checked, ok⟩
    obtain ⟨complete, read, checked⟩ := bind_ok checked
    cases complete with
    | false =>
        cases checked
        cases ok
    | true =>
        refine ⟨read, matchesRef_iff.mp ?_⟩
        by_contra differs
        rw [eq_false_of_ne_true differs] at checked
        cases checked
        cases ok
  · rintro ⟨complete, hashed⟩
    refine ⟨.matched, bind_ok_iff.mpr ⟨true, complete, ?_⟩, rfl⟩
    rw [matchesRef_iff.mpr hashed]
    rfl

theorem checkRefs_ok_iff : (∃ refs, checkRefs envelope preimages = .ok refs ∧ canonicalOk refs = true) ↔
    ∀ entry ∈ preimages, entry.1 ≠ Key.postCommitObservation → Recomputes envelope entry.1 entry.2 := by
  induction preimages with
  | nil => exact iff_of_true ⟨[], rfl, rfl⟩ fun entry member => absurd member List.not_mem_nil
  | cons entry rest ih =>
      obtain ⟨refName, preimage⟩ := entry
      have first : (∃ found, checkRef envelope refName preimage = .ok found ∧ found.ok = true) ↔
          (refName ≠ Key.postCommitObservation → Recomputes envelope refName preimage) := by
        by_cases reference : refName = Key.postCommitObservation
        · refine iff_of_true ⟨.exempt, if_pos reference, rfl⟩ fun other => absurd reference other
        · rw [checkRef_ok_iff reference]
          exact ⟨fun recomputes _ => recomputes, fun recomputes => recomputes reference⟩
      rw [List.forall_mem_cons, ← ih, ← first]
      constructor
      · rintro ⟨refs, checked, ok⟩
        obtain ⟨found, own, checked⟩ := bind_ok checked
        obtain ⟨others, later, checked⟩ := bind_ok checked
        cases checked
        rw [canonicalOk, List.all_cons, Bool.and_eq_true] at ok
        exact ⟨⟨found, own, ok.1⟩, ⟨others, later, ok.2⟩⟩
      · rintro ⟨⟨found, own, ok⟩, ⟨others, later, also⟩⟩
        refine ⟨(refName, found) :: others, bind_ok_iff.mpr ⟨found, own, bind_ok_iff.mpr ⟨others, later, rfl⟩⟩, ?_⟩
        rw [canonicalOk, List.all_cons, Bool.and_eq_true]
        exact ⟨ok, also⟩

theorem malformedDecision_of_ok (ok : canonicalOk refs = true) : malformedDecision refs = false := by
  rw [malformedDecision, List.any_eq_false]
  intro ref member
  rw [decide_eq_true_eq]
  rintro rfl
  have fine := List.all_eq_true.mp ok _ member
  cases fine

theorem pass_canonicalEnvelope_iff {ok : Bool} :
    Pass declared (if preimages.isEmpty then [] else [(.canonicalEnvelope, ok)]) ↔
      (preimages ≠ [] → ok = true ∧ Undisputed declared .canonicalEnvelope) := by
  cases preimages with
  | nil => simp [Pass]
  | cons entry rest => simp [pass_singleton]

theorem canonicalOk_of_full (checked : checkRefs envelope preimages = .ok refs)
    (full : preimages ≠ [] → canonicalOk refs = true) : canonicalOk refs = true := by
  by_cases given : preimages = []
  · subst given
    cases checked
    rfl
  · exact full given

theorem pass_chainIntegrity_iff : Pass declared (chainIntegrity envelope false decisionPre resultPre) ↔
    (decisionPre ≠ .null → Names decisionPre Key.actionRef (field envelope Key.actionRef)) ∧
      (resultPre ≠ .null → Names resultPre Key.attemptId (field envelope Key.attemptId)) ∧
      (decisionPre ≠ .null ∨ resultPre ≠ .null → Undisputed declared .chainIntegrity) := by
  simp only [← Json.isNull_false_iff, chainIntegrity, Names]
  cases decisionPre.isNull <;> cases resultPre.isNull <;> simp [Pass, and_assoc]

theorem pass_proofBinding_iff {proofPre : Json} : Pass declared (proofBinding envelope proofPre) ↔
    (proofPre ≠ .null → field envelope Key.proofRef ≠ .null →
      Names proofPre Key.attemptId (field envelope Key.attemptId) ∧ Undisputed declared .proofBinding) := by
  simp only [← Json.isNull_false_iff, proofBinding, Names]
  cases proofPre.isNull <;> cases (field envelope Key.proofRef).isNull <;> simp [Pass]

theorem decisionCovers_iff : decisionCovers envelope false decisionPre = true ∧ policyOk decisionPre = .ok true ↔
    Covers envelope decisionPre := by
  simp only [decisionCovers, Bool.and_eq_true, Bool.not_false, Bool.not_eq_true', Json.isNull_false_iff, and_true]
  constructor
  · rintro ⟨⟨⟨given, names⟩, permits⟩, inForce⟩
    exact ⟨given, names, permits, inForce⟩
  · rintro ⟨given, names, permits, inForce⟩
    exact ⟨⟨⟨given, names⟩, permits⟩, inForce⟩

theorem pass_effectiveCallBinding_iff :
    (∃ found, effectiveCallBinding envelope true false decisionPre = .ok found ∧ Pass declared found) ↔
      (decisionPre ≠ .null ∨ field envelope Key.effectiveActionRef ≠ .null →
        Covers envelope decisionPre ∧ Undisputed declared .effectiveCallBinding) := by
  unfold effectiveCallBinding
  split
  · rename_i absent
    rw [Bool.and_eq_true, Json.isNull_iff, Json.isNull_iff] at absent
    refine iff_of_true ⟨[], rfl, fun result member => absurd member List.not_mem_nil⟩ ?_
    rintro (given | given)
    · exact absurd absent.1 given
    · exact absurd absent.2 given
  · rename_i given
    have asked : decisionPre ≠ .null ∨ field envelope Key.effectiveActionRef ≠ .null := by
      rw [Bool.and_eq_true, Json.isNull_iff, Json.isNull_iff] at given
      tauto
    constructor
    · rintro ⟨found, checked, passes⟩ _
      obtain ⟨policy, read, checked⟩ := bind_ok checked
      cases checked
      obtain ⟨holds, undisputed⟩ := pass_singleton.mp passes
      rw [Bool.true_and, Bool.and_eq_true] at holds
      exact ⟨decisionCovers_iff.mp ⟨holds.1, by rw [read, holds.2]⟩, undisputed⟩
    · intro passes
      obtain ⟨covers, undisputed⟩ := passes asked
      obtain ⟨covered, inForce⟩ := decisionCovers_iff.mpr covers
      refine ⟨_, bind_ok_iff.mpr ⟨true, inForce, rfl⟩, pass_singleton.mpr ⟨?_, undisputed⟩⟩
      rw [covered]
      rfl

/-- All results are of one check. -/
def Only (key : Check) (found : List (Check × Bool)) : Prop := ∀ result ∈ found, result.1 = key

theorem only_nil {own : Check} : Only own [] := fun _ member => absurd member List.not_mem_nil

theorem only_singleton {own : Check} {ok : Bool} : Only own [(own, ok)] := List.forall_mem_singleton.mpr rfl

theorem effectiveCallBinding_returns {policy : Bool} (inForce : policyOk decisionPre = .ok policy) (envelope : Fields)
    (canonical malformed : Bool) : ∃ found, Only .effectiveCallBinding found ∧
      effectiveCallBinding envelope canonical malformed decisionPre = .ok found := by
  unfold effectiveCallBinding
  split
  · exact ⟨[], only_nil, rfl⟩
  · exact ⟨_, only_singleton, bind_ok_iff.mpr ⟨policy, inForce, rfl⟩⟩

theorem postCommitConsistency_returns {observation : Json} {complete : Bool}
    (observed : observation ≠ .null → hasKeys observationFields observation = .ok complete) (envelope : Fields)
    (resultPre : Json) : ∃ found, Only .postCommitConsistency found ∧
      postCommitConsistency envelope observation resultPre = .ok found := by
  unfold postCommitConsistency
  split
  · exact ⟨[], only_nil, rfl⟩
  · rename_i given
    exact ⟨_, only_singleton, bind_ok_iff.mpr ⟨complete, observed (mt Json.isNull_iff.mpr given), rfl⟩⟩

theorem pass_postCommitConsistency_iff {observation : Json} :
    (∃ found, postCommitConsistency envelope observation resultPre = .ok found ∧ Pass declared found) ↔
      (observation ≠ .null → Observes envelope observation resultPre ∧ Undisputed declared .postCommitConsistency) := by
  unfold postCommitConsistency
  split
  · rename_i absent
    exact iff_of_true ⟨[], rfl, fun result member => absurd member List.not_mem_nil⟩
      fun given => absurd (Json.isNull_iff.mp absent) given
  · rename_i given
    rw [Json.isNull_iff] at given
    constructor
    · rintro ⟨found, checked, passes⟩ _
      obtain ⟨complete, read, checked⟩ := bind_ok checked
      cases checked
      obtain ⟨holds, undisputed⟩ := pass_singleton.mp passes
      simp only [Bool.and_eq_true, Bool.not_eq_true', Json.isNull_false_iff] at holds
      obtain ⟨⟨⟨rfl, hashed⟩, names⟩, result, output⟩ := holds
      exact ⟨⟨read, hashed, names, result, output⟩, undisputed⟩
    · intro passes
      obtain ⟨⟨complete, hashed, names, result, output⟩, undisputed⟩ := passes given
      refine ⟨_, bind_ok_iff.mpr ⟨true, complete, rfl⟩, pass_singleton.mpr ⟨?_, undisputed⟩⟩
      simp only [Bool.and_eq_true, Bool.not_eq_true', Json.isNull_false_iff]
      exact ⟨⟨⟨trivial, hashed⟩, names⟩, result, output⟩

end

section
variable {isSupported : Json → Except Raised Bool} {vector : Vector} {preimages : Fields}

theorem verifyVector_of_given (given : vector.preimages = some preimages) :
    verifyVector isSupported vector = verifyPreimages isSupported vector preimages := by
  rw [verifyVector, given]

/-- Past the gate the invariants decide. -/
theorem verifyPreimages_of_results {found : Results}
    (gate : unsupportedProfile isSupported (field preimages Key.decisionId) = .ok none)
    (computed : results vector.envelope preimages = .ok found) :
    verifyPreimages isSupported vector preimages = .ok (found.report vector.checks) :=
  bind_ok_iff.mpr ⟨none, gate, bind_ok_iff.mpr ⟨found, computed, rfl⟩⟩

/-- A vector conforms exactly where it is admissible. -/
theorem conforms_iff : (∃ report, verifyPreimages isSupported vector preimages = .ok report ∧ report.conforms = true) ↔
    Admissible isSupported vector preimages := by
  constructor
  · rintro ⟨report, verified, conforms⟩
    obtain ⟨halted, gate, verified⟩ := bind_ok verified
    cases halted with
    | some profileId =>
        cases verified
        cases conforms
    | none =>
        obtain ⟨found, computed, verified⟩ := bind_ok verified
        cases verified
        obtain ⟨early, late, unreported⟩ := report_conforms_iff.mp conforms
        obtain ⟨refs, checked, computed⟩ := bind_ok computed
        obtain ⟨effective, bound, computed⟩ := bind_ok computed
        obtain ⟨observed, consistent, computed⟩ := bind_ok computed
        cases computed
        obtain ⟨canonical, chain⟩ := pass_append.mp early
        obtain ⟨proofAndEffective, observation⟩ := pass_append.mp late
        obtain ⟨proof, effect⟩ := pass_append.mp proofAndEffective
        have own := pass_canonicalEnvelope_iff.mp canonical
        have ok := canonicalOk_of_full checked fun full => (own full).1
        rw [malformedDecision_of_ok ok] at chain
        rw [ok, malformedDecision_of_ok ok] at bound
        obtain ⟨decided, resulted, chained⟩ := pass_chainIntegrity_iff.mp chain
        exact ⟨gate, fun full => ⟨checkRefs_ok_iff.mp ⟨refs, checked, ok⟩, (own full).2⟩, decided, resulted, chained,
          pass_proofBinding_iff.mp proof, pass_effectiveCallBinding_iff.mp ⟨effective, bound, effect⟩,
          pass_postCommitConsistency_iff.mp ⟨observed, consistent, observation⟩, unreported⟩
  · rintro ⟨gate, canonical, decided, resulted, chained, proved, covered, observation, unreported⟩
    have recomputed : ∀ entry ∈ preimages, entry.1 ≠ Key.postCommitObservation →
        Recomputes vector.envelope entry.1 entry.2 :=
      fun entry member => (canonical (List.ne_nil_of_mem member)).1 entry member
    obtain ⟨refs, checked, ok⟩ := checkRefs_ok_iff.mpr recomputed
    obtain ⟨effective, bound, effect⟩ := pass_effectiveCallBinding_iff.mpr covered
    obtain ⟨observed, consistent, observes⟩ := pass_postCommitConsistency_iff.mpr observation
    have chain := pass_chainIntegrity_iff.mpr ⟨decided, resulted, chained⟩
    rw [← malformedDecision_of_ok ok] at chain
    rw [← ok, ← malformedDecision_of_ok ok] at bound
    refine ⟨_, verifyPreimages_of_results gate (bind_ok_iff.mpr ⟨refs, checked, bind_ok_iff.mpr ⟨effective, bound,
      bind_ok_iff.mpr ⟨observed, consistent, rfl⟩⟩⟩), ?_⟩
    have own := pass_canonicalEnvelope_iff.mpr fun full => ⟨ok, (canonical full).2⟩
    exact report_conforms_iff.mpr ⟨pass_append.mpr ⟨own, chain⟩,
      pass_append.mpr ⟨pass_append.mpr ⟨pass_proofBinding_iff.mpr proved, effect⟩, observes⟩, unreported⟩

/-- The action that a record says was dispatched. -/
def dispatchedRef (envelope : Fields) : Json :=
  if (field envelope Key.effectiveActionRef).isNull then field envelope Key.actionRef
  else field envelope Key.effectiveActionRef

/-- The preimages of the four links are given. -/
def Supplies (preimages : Fields) : Prop :=
  ∀ refName ∈ [Key.actionRef, Key.decisionId, Key.attemptId, Key.resultId], (preimages.lookup refName).isSome

/-- The outcome is bound to its authorization: the decision, the action, the attempt and
the result. -/
structure Joined (isSupported : Json → Except Raised Bool) (envelope preimages : Fields) : Prop where
  recomputed : ∀ refName ∈ [Key.actionRef, Key.decisionId, Key.attemptId, Key.resultId],
    ∃ digest, recompute (field preimages refName) = some digest ∧ field envelope refName = .str digest
  decided : Names (field preimages Key.decisionId) Key.actionRef (dispatchedRef envelope)
  permitted : Names (field preimages Key.decisionId) Key.outcome (.str (ofString "permit"))
  profiled : ∃ profileId, (field preimages Key.decisionId).item Key.canonicalizationProfileId = .ok profileId ∧
    isSupported profileId = .ok true
  attempted : Names (field preimages Key.attemptId) Key.actionRef (field envelope Key.actionRef) ∨
    Names (field preimages Key.attemptId) Key.actionRef (dispatchedRef envelope)
  resulted : Names (field preimages Key.resultId) Key.attemptId (field envelope Key.attemptId)

/-- The verifier accepts the vector. -/
def accepts (isSupported : Json → Except Raised Bool) (vector : Vector) : Bool :=
  match verifyVector isSupported vector with
  | .ok report => report.conforms
  | .error _ => false

theorem accepts_iff : accepts isSupported vector = true ↔
    ∃ report, verifyVector isSupported vector = .ok report ∧ report.conforms = true := by
  unfold accepts
  cases verifyVector isSupported vector with
  | ok report => simp
  | error raised => simp

/-- A vector that conforms, with the four preimages, is joined. -/
def AcceptedJoined (isSupported : Json → Except Raised Bool) (vector : Vector) : Prop :=
  ∀ preimages, vector.preimages = some preimages → Supplies preimages →
    ∀ report, verifyVector isSupported vector = .ok report → report.conforms = true →
      Joined isSupported vector.envelope preimages

/-- The links that the verifier does not ask for. -/
structure Linked (envelope preimages : Fields) : Prop where
  profiled : (field preimages Key.decisionId).has Key.canonicalizationProfileId = true
  attempted : Names (field preimages Key.attemptId) Key.actionRef (field envelope Key.actionRef)
  dispatched : field envelope Key.effectiveActionRef = .null ∨ (field envelope Key.effectiveActionRef).truthy = true

theorem mem_of_lookup {refName : Str} {preimage : Json} (found : preimages.lookup refName = some preimage) :
    (refName, preimage) ∈ preimages := by
  obtain ⟨before, after, rfl, _⟩ := List.lookup_eq_some_iff.mp found
  exact List.mem_append_right _ List.mem_cons_self

theorem digest_ne_nil {preimage : Json} {digest : Str} (hashed : recompute preimage = some digest) : digest ≠ [] := by
  unfold recompute at hashed
  split at hashed
  · rename_i bytes _
    obtain rfl := Option.some.inj hashed
    apply List.ne_nil_of_length_pos
    rw [length_hexOf, length_sha256]
    decide
  · cases hashed

theorem dict_of_hasKeys {refName : Str} {required : List Str} {preimage : Json}
    (listed : requiredFields.lookup refName = some required) (complete : completeRef refName preimage = .ok true) :
    ∃ items, preimage = .dict items := by
  rw [completeRef, listed] at complete
  cases preimage with
  | dict items => exact ⟨items, rfl⟩
  | null | bool | int | float | str | list => cases complete

/-- What the verifier asks of a given preimage. -/
theorem Admissible.recomputes (admissible : Admissible isSupported vector preimages) {refName : Str}
    (given : (preimages.lookup refName).isSome) (reference : refName ≠ Key.postCommitObservation) :
    Recomputes vector.envelope refName (field preimages refName) := by
  obtain ⟨preimage, found⟩ := Option.isSome_iff_exists.mp given
  have member := mem_of_lookup found
  rw [field, found]
  exact (admissible.canonical (List.ne_nil_of_mem member)).1 _ member reference

/-- The decision of an admissible vector permits an action, which the envelope names and was dispatched. -/
structure Authorized (envelope : Fields) (decisionPre : Json) (digest : Str) : Prop where
  proposed : field envelope Key.actionRef = .str digest
  nonempty : digest ≠ []
  given : ∃ items, decisionPre = .dict items
  decided : decisionPre.get Key.actionRef = .str digest
  target : targetRef envelope = .str digest
  permits : Names decisionPre Key.outcome (.str (ofString "permit"))

theorem Admissible.authorized (admissible : Admissible isSupported vector preimages) (supplies : Supplies preimages) :
    ∃ digest, Authorized vector.envelope (field preimages Key.decisionId) digest := by
  obtain ⟨digest, hashed, proposed⟩ := (admissible.recomputes (supplies Key.actionRef (by decide)) (by decide)).hashed
  obtain ⟨items, decision⟩ := dict_of_hasKeys rfl
    (admissible.recomputes (supplies Key.decisionId (by decide)) (by decide)).complete
  have given : field preimages Key.decisionId ≠ .null := by
    rw [decision]
    exact Json.noConfusion
  have decided : (field preimages Key.decisionId).get Key.actionRef = .str digest := by
    have names := admissible.decided given
    rw [Names, proposed] at names
    exact Json.eq_str.mp names
  obtain ⟨_, names, permits, _⟩ := (admissible.covered (Or.inl given)).1
  rw [Names, decided, Json.str_eq] at names
  exact ⟨digest, proposed, digest_ne_nil hashed, ⟨items, decision⟩, decided, names, permits⟩

/-- What was dispatched is what was decided on where no empty reference is said to be dispatched. -/
theorem Authorized.dispatchedRef_iff {envelope : Fields} {decisionPre : Json} {digest : Str}
    (authorized : Authorized envelope decisionPre digest) : dispatchedRef envelope = .str digest ↔
      field envelope Key.effectiveActionRef = .null ∨ (field envelope Key.effectiveActionRef).truthy = true := by
  have target := authorized.target
  unfold dispatchedRef
  by_cases absent : (field envelope Key.effectiveActionRef).isNull = true
  · rw [if_pos absent]
    exact iff_of_true authorized.proposed (Or.inl (Json.isNull_iff.mp absent))
  · rw [if_neg absent]
    constructor
    · intro dispatched
      rw [dispatched]
      exact Or.inr (decide_eq_true authorized.nonempty)
    · rintro (null | given)
      · exact absurd (Json.isNull_iff.mpr null) absent
      · rwa [targetRef, Json.or, if_pos given] at target

/-- A decision that passes the gate and names a profile names a supported one. -/
theorem supported_of_has {items : List (Str × Json)}
    (gate : unsupportedProfile isSupported (.dict items) = .ok none)
    (profiled : (Json.dict items).has Key.canonicalizationProfileId = true) :
    ∃ profileId, (Json.dict items).item Key.canonicalizationProfileId = .ok profileId ∧
      isSupported profileId = .ok true := by
  obtain ⟨profileId, found⟩ := Option.isSome_iff_exists.mp profiled
  rw [unsupportedProfile, found] at gate
  obtain ⟨answer, asked, outcome⟩ := bind_ok gate
  cases answer with
  | false => cases outcome
  | true => exact ⟨profileId, by rw [Json.item, found], asked⟩

/-- An admissible vector with the four preimages is joined exactly where the two links hold
that were not asked for, and no empty reference is said to be dispatched. -/
theorem Admissible.joined_iff (admissible : Admissible isSupported vector preimages) (supplies : Supplies preimages) :
    Joined isSupported vector.envelope preimages ↔ Linked vector.envelope preimages := by
  obtain ⟨digest, authorized⟩ := admissible.authorized supplies
  constructor
  · intro joined
    -- the decision names one action, which is the one that was dispatched
    have dispatched : dispatchedRef vector.envelope = .str digest := by
      have names := joined.decided
      rwa [Names, authorized.decided, Json.str_eq] at names
    refine ⟨?_, ?_, authorized.dispatchedRef_iff.mp dispatched⟩
    · obtain ⟨profileId, read, _⟩ := joined.profiled
      obtain ⟨own, same, found⟩ := Json.item_ok read
      rw [same, Json.has, found]
      rfl
    · rcases joined.attempted with named | named
      · exact named
      · rwa [dispatched, ← authorized.proposed] at named
  · intro linked
    have dispatched := authorized.dispatchedRef_iff.mpr linked.dispatched
    have recomputes : ∀ refName ∈ [Key.actionRef, Key.decisionId, Key.attemptId, Key.resultId],
        Recomputes vector.envelope refName (field preimages refName) := by
      intro refName member
      apply admissible.recomputes (supplies refName member)
      revert refName
      decide
    refine ⟨fun refName member => (recomputes refName member).hashed, ?_, authorized.permits, ?_,
      Or.inl linked.attempted, ?_⟩
    · rw [Names, authorized.decided, dispatched]
      exact Json.str_eq.mpr rfl
    · obtain ⟨items, decision⟩ := authorized.given
      have profiled := linked.profiled
      have gate := admissible.supported
      rw [decision] at profiled gate ⊢
      exact supported_of_has gate profiled
    · obtain ⟨items, result⟩ := dict_of_hasKeys rfl (recomputes Key.resultId (by decide)).complete
      apply admissible.resulted
      rw [result]
      exact Json.noConfusion

/-- Accepted vectors are joined exactly where those the verifier has nothing against carry
the links it does not ask for. -/
theorem acceptedJoined_iff (isSupported : Json → Except Raised Bool) (vector : Vector) :
    AcceptedJoined isSupported vector ↔ ∀ preimages, vector.preimages = some preimages → Supplies preimages →
      Admissible isSupported vector preimages → Linked vector.envelope preimages := by
  constructor
  · intro joined preimages given supplies admissible
    obtain ⟨report, accepted, conforms⟩ := conforms_iff.mpr admissible
    rw [← verifyVector_of_given given] at accepted
    exact (admissible.joined_iff supplies).mp (joined preimages given supplies report accepted conforms)
  · intro linked preimages given supplies report accepted conforms
    rw [verifyVector_of_given given] at accepted
    have admissible := conforms_iff.mp ⟨report, accepted, conforms⟩
    exact (admissible.joined_iff supplies).mpr (linked preimages given supplies admissible)

end

/-- The reference of a preimage, where it has one. -/
def refOf (preimage : Json) : Json := ((recompute preimage).map Json.str).getD .null

/-- The fields every preimage has here. -/
def stamped (own : Fields) : Json :=
  .dict (own ++ [(Key.tsMs, .int 1), (Key.version, .str (ofString "execution-join-ref-v1"))])

def text (literal : String) : Json := .str (ofString literal)

def actionOf (input : String) : Json :=
  stamped [(ofString "actor_id", text "agent"), (ofString "input_hash", text input), (ofString "scope", text "pay")]

/-- A decision on one action that names no profile, and an attempt of another one. -/
def foreignAttempt : Vector :=
  let decision := stamped [(Key.actionRef, refOf (actionOf "a")), (Key.outcome, text "permit"),
    (ofString "policy_id", text "p")]
  let attempt := stamped [(Key.actionRef, refOf (actionOf "b")), (ofString "attempt_seq", .int 1),
    (ofString "executor_id", text "agent")]
  let result := stamped [(Key.attemptId, refOf attempt), (Key.outcome, text "completed"), (Key.outputHash, text "o")]
  { envelope := [(Key.actionRef, refOf (actionOf "a")), (Key.decisionId, refOf decision),
      (Key.attemptId, refOf attempt),
      (Key.resultId, refOf result)]
    preimages := some [(Key.actionRef, actionOf "a"), (Key.decisionId, decision), (Key.attemptId, attempt),
      (Key.resultId, result)]
    checks := []
    failureMode := .null }

theorem not_acceptedJoined_foreign : ¬ AcceptedJoined (fun _ => .ok true) foreignAttempt := by
  intro joined
  have supplies : Supplies (foreignAttempt.preimages.getD []) := by
    unfold Supplies
    decide +kernel
  obtain ⟨report, accepted, conforms⟩ := accepts_iff.mp
    (show accepts (fun _ => .ok true) foreignAttempt = true by decide +kernel)
  obtain ⟨profileId, read, _⟩ := (joined _ rfl supplies report accepted conforms).profiled
  cases read

end Argentum.ExecutionJoin
