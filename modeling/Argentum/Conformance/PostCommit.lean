import Argentum.Conformance.JoinSoundness

/-! A later observation beside the original record. The vector with its observation and the
one without it are verified by the same steps, and part where a step looks at all the
preimages at once. -/
namespace Argentum.ExecutionJoin
open Text Profiles

def without (fields : Fields) (key : Str) : Fields := fields.filter fun item => item.1 ≠ key

/-- The vector without its observation and without the reference to it. -/
def Vector.withoutObservation (vector : Vector) : Vector :=
  { vector with
    envelope := without vector.envelope Key.postCommitRef
    preimages := vector.preimages.map fun preimages => without preimages Key.postCommitObservation }

/-- The check that a failure is about. -/
def Failure.check? : Failure → Option Check
  | .verifierOffline => none
  | .unsupportedCanonicalProfile _ => none
  | .computedFalse key => some key
  | .fixtureMismatch key _ _ => some key
  | .declaredFalse key => some key

/-- The checks of the original record that are computed. -/
def originalChecks : List Check := [.canonicalEnvelope, .chainIntegrity, .proofBinding, .effectiveCallBinding]

/-- What a report says of the original record. -/
def Report.original (report : Report) : List (Option (Option Bool)) × List Failure :=
  (originalChecks.map fun key => report.computed.lookup key,
    report.failures.filter fun failure => failure.check? ≠ some .postCommitConsistency)

/-- The observation changes nothing of what is said of the original record. -/
def Unaffected (isSupported : Json → Except Raised Bool) (vector : Vector) : Prop :=
  vector.preimages.isSome →
    (verifyVector isSupported vector).map Report.original =
      (verifyVector isSupported vector.withoutObservation).map Report.original

/-- The verification ends before the observation is read: at the gate, at a preimage whose
fields are looked for and that is no object, or at a policy that cannot be compared. -/
def Stopped (isSupported : Json → Except Raised Bool) (preimages : Fields) : Prop :=
  unsupportedProfile isSupported (field preimages Key.decisionId) ≠ .ok none ∨
    (∃ entry ∈ preimages, entry.1 ≠ Key.postCommitObservation ∧ ∃ raised, completeRef entry.1 entry.2 = .error raised) ∨
    ∃ raised, policyOk (field preimages Key.decisionId) = .error raised

/-- The fields of a preimage can be looked for, if it is there. -/
def Readable (preimage : Json) : Prop := preimage = .null ∨ ∃ items, preimage = .dict items

/-- The observation is an object if it is there, it is not the only preimage, and where all
others recompute none of them bears the name of its reference. -/
structure Separable (envelope preimages : Fields) : Prop where
  readable : Readable (field preimages Key.postCommitObservation)
  accompanied : preimages = [] ∨ ∃ entry ∈ preimages, entry.1 ≠ Key.postCommitObservation
  unnamed : (∀ entry ∈ preimages, entry.1 ≠ Key.postCommitObservation → Recomputes envelope entry.1 entry.2) →
    ∀ entry ∈ preimages, entry.1 ≠ Key.postCommitRef

section
variable {isSupported : Json → Except Raised Bool} {envelope preimages declared : Fields} {key refName : Str}
  {preimage decisionPre resultPre observation : Json}

theorem without_cons {removed : Str} {rest : Fields} : without ((key, preimage) :: rest) removed =
    if key = removed then without rest removed else (key, preimage) :: without rest removed := by
  rw [without, List.filter_cons]
  by_cases same : key = removed
  · rw [if_neg (by simp [same]), if_pos same]
    rfl
  · rw [if_pos (decide_eq_true same), if_neg same]
    rfl

theorem lookup_without {fields : Fields} {removed : Str} :
    (without fields removed).lookup key = if key = removed then none else fields.lookup key := by
  induction fields with
  | nil =>
      rw [List.lookup_nil, ite_self]
      rfl
  | cons item rest ih =>
      obtain ⟨name, value⟩ := item
      rw [without_cons, List.lookup_cons]
      by_cases own : key = name
      · subst own
        by_cases same : key = removed
        · rw [if_pos same, ih, if_pos same, if_pos same]
        · rw [if_neg same, List.lookup_cons, beq_self_eq_true, if_neg same]
      · rw [beq_eq_false_iff_ne.mpr own]
        split
        · exact ih
        · rw [List.lookup_cons, beq_eq_false_iff_ne.mpr own]
          exact ih

theorem field_without {fields : Fields} {removed : Str} (other : key ≠ removed) :
    field (without fields removed) key = field fields key := by
  rw [field, field, lookup_without, if_neg other]

theorem field_without_self {fields : Fields} : field (without fields key) key = .null := by
  rw [field, lookup_without, if_pos rfl]
  rfl

theorem checkRef_without (other : refName ≠ Key.postCommitRef) :
    checkRef (without envelope Key.postCommitRef) refName preimage = checkRef envelope refName preimage := by
  rw [checkRef, checkRef, matchesRef, matchesRef, field_without other]

/-- A preimage under the name of the removed reference has nothing to match. -/
theorem checkRef_removed :
    checkRef (without envelope Key.postCommitRef) Key.postCommitRef preimage = .ok .mismatched := by
  have unmatched : matchesRef (without envelope Key.postCommitRef) Key.postCommitRef preimage = false := by
    rw [matchesRef, field_without_self]
    cases recompute preimage with
    | none => rfl
    | some digest => rfl
  rw [checkRef, if_neg (by decide), completeRef, unmatched]
  rfl

theorem checkRef_postCommitRef : ∃ found, checkRef envelope Key.postCommitRef preimage = .ok found := by
  rw [checkRef, if_neg (by decide), completeRef]
  exact ⟨_, rfl⟩

theorem checkRef_error_iff : (∃ raised, checkRef envelope refName preimage = .error raised) ↔
    refName ≠ Key.postCommitObservation ∧ ∃ raised, completeRef refName preimage = .error raised := by
  unfold checkRef
  split
  · rename_i exempt
    exact iff_of_false (fun ⟨_, raises⟩ => by cases raises) fun ⟨reference, _⟩ => reference exempt
  · rename_i reference
    cases completeRef refName preimage with
    | error raised => exact iff_of_true ⟨raised, rfl⟩ ⟨reference, raised, rfl⟩
    | ok complete => exact iff_of_false (fun ⟨_, raises⟩ => by cases raises) fun ⟨_, _, raises⟩ => by cases raises

/-- The loop raises where the fields of a preimage cannot be looked for. -/
theorem checkRefs_error_iff : (∃ raised, checkRefs envelope preimages = .error raised) ↔
    ∃ entry ∈ preimages, entry.1 ≠ Key.postCommitObservation ∧
      ∃ raised, completeRef entry.1 entry.2 = .error raised := by
  induction preimages with
  | nil =>
      refine iff_of_false (fun ⟨_, raises⟩ => by cases raises) ?_
      exact fun ⟨entry, member, _⟩ => absurd member List.not_mem_nil
  | cons entry rest ih =>
      obtain ⟨refName, preimage⟩ := entry
      rw [List.exists_mem_cons_iff, ← ih, ← checkRef_error_iff, checkRefs]
      cases checkRef envelope refName preimage with
      | error raised => exact iff_of_true ⟨raised, rfl⟩ (Or.inl ⟨raised, rfl⟩)
      | ok found =>
          cases checkRefs envelope rest with
          | error raised => exact iff_of_true ⟨raised, rfl⟩ (Or.inr ⟨raised, rfl⟩)
          | ok others =>
              refine iff_of_false (fun ⟨_, raises⟩ => by cases raises) ?_
              rintro (⟨_, raises⟩ | ⟨_, raises⟩)
              · cases raises
              · cases raises

/-- A preimage is found alike by the two loops, but for one under the removed name. -/
theorem checkRef_cases (reference : refName ≠ Key.postCommitObservation) :
    (∃ raised, checkRef envelope refName preimage = .error raised ∧
      checkRef (without envelope Key.postCommitRef) refName preimage = .error raised) ∨
    ∃ found left, checkRef envelope refName preimage = .ok found ∧
      checkRef (without envelope Key.postCommitRef) refName preimage = .ok left ∧
      ((refName, left) = (Key.decisionId, .malformed) ↔ (refName, found) = (Key.decisionId, .malformed)) ∧
      (left.ok = true ↔ found.ok = true ∧ refName ≠ Key.postCommitRef) := by
  by_cases removed : refName = Key.postCommitRef
  · subst removed
    obtain ⟨found, checked⟩ := @checkRef_postCommitRef envelope preimage
    have unlike : Key.postCommitRef ≠ Key.decisionId := by decide
    refine Or.inr ⟨found, .mismatched, checked, checkRef_removed, ?_, ?_⟩
    · simp [unlike]
    · simp [RefCheck.ok]
  · rw [checkRef_without removed]
    cases checkRef envelope refName preimage with
    | error raised => exact Or.inl ⟨raised, rfl, rfl⟩
    | ok found => exact Or.inr ⟨found, found, rfl, rfl, Iff.rfl, by simp [removed]⟩

theorem checkRefs_cons_ok {found : RefCheck} {rest : Fields} {refs : List (Str × RefCheck)}
    (own : checkRef envelope refName preimage = .ok found) (others : checkRefs envelope rest = .ok refs) :
    checkRefs envelope ((refName, preimage) :: rest) = .ok ((refName, found) :: refs) :=
  bind_ok_iff.mpr ⟨found, own, bind_ok_iff.mpr ⟨refs, others, rfl⟩⟩

theorem checkRefs_cons_error {rest : Fields} {raised : Raised}
    (own : checkRef envelope refName preimage = .error raised) :
    checkRefs envelope ((refName, preimage) :: rest) = .error raised := by
  rw [checkRefs, own]
  rfl

theorem checkRefs_cons_error_rest {found : RefCheck} {rest : Fields} {raised : Raised}
    (own : checkRef envelope refName preimage = .ok found) (others : checkRefs envelope rest = .error raised) :
    checkRefs envelope ((refName, preimage) :: rest) = .error raised := by
  rw [checkRefs, own, others]
  rfl

/-- What the two loops find, the same but for a preimage under the removed name. -/
structure Paired (envelope preimages : Fields) (refs left : List (Str × RefCheck)) : Prop where
  checked : checkRefs envelope preimages = .ok refs
  again : checkRefs (without envelope Key.postCommitRef) (without preimages Key.postCommitObservation) = .ok left
  malformed : malformedDecision left = true ↔ malformedDecision refs = true
  canonical : canonicalOk left = true ↔ canonicalOk refs = true ∧ ∀ entry ∈ preimages, entry.1 ≠ Key.postCommitRef

theorem Paired.cons_observation {rest : Fields} {refs left : List (Str × RefCheck)}
    (paired : Paired envelope rest refs left) : Paired envelope ((Key.postCommitObservation, preimage) :: rest)
      ((Key.postCommitObservation, .exempt) :: refs) left where
  checked := checkRefs_cons_ok (if_pos rfl) paired.checked
  again := by
    rw [without_cons, if_pos rfl]
    exact paired.again
  malformed := by
    have unlike : Key.postCommitObservation ≠ Key.decisionId := by decide
    refine paired.malformed.trans ?_
    simp [malformedDecision, unlike]
  canonical := by
    have unnamed : Key.postCommitObservation ≠ Key.postCommitRef := by decide
    refine paired.canonical.trans ?_
    simp [canonicalOk, RefCheck.ok, unnamed]

theorem Paired.cons {rest : Fields} {refs left : List (Str × RefCheck)} {found leaving : RefCheck}
    (paired : Paired envelope rest refs left) (reference : refName ≠ Key.postCommitObservation)
    (own : checkRef envelope refName preimage = .ok found)
    (owned : checkRef (without envelope Key.postCommitRef) refName preimage = .ok leaving)
    (alike : (refName, leaving) = (Key.decisionId, .malformed) ↔ (refName, found) = (Key.decisionId, .malformed))
    (ok : leaving.ok = true ↔ found.ok = true ∧ refName ≠ Key.postCommitRef) :
    Paired envelope ((refName, preimage) :: rest) ((refName, found) :: refs) ((refName, leaving) :: left) where
  checked := checkRefs_cons_ok own paired.checked
  again := by
    rw [without_cons, if_neg reference]
    exact checkRefs_cons_ok owned paired.again
  malformed := by
    have others := paired.malformed
    simp only [malformedDecision, List.any_cons, Bool.or_eq_true, decide_eq_true_eq, alike] at others ⊢
    exact or_congr Iff.rfl others
  canonical := by
    have others := paired.canonical
    simp only [canonicalOk, List.all_cons, Bool.and_eq_true, ok, List.forall_mem_cons] at others ⊢
    tauto

/-- The two loops raise alike, or find the same. -/
theorem checkRefs_without :
    (∃ raised, checkRefs envelope preimages = .error raised ∧
      checkRefs (without envelope Key.postCommitRef) (without preimages Key.postCommitObservation) = .error raised) ∨
    ∃ refs left, Paired envelope preimages refs left := by
  induction preimages with
  | nil => exact Or.inr ⟨[], [], rfl, rfl, Iff.rfl,
      iff_of_true rfl ⟨rfl, fun entry member => absurd member List.not_mem_nil⟩⟩
  | cons entry rest ih =>
      obtain ⟨refName, preimage⟩ := entry
      by_cases exempt : refName = Key.postCommitObservation
      · subst exempt
        rcases ih with ⟨raised, raises, also⟩ | ⟨refs, left, paired⟩
        · rw [without_cons, if_pos rfl]
          exact Or.inl ⟨raised, checkRefs_cons_error_rest (if_pos rfl) raises, also⟩
        · exact Or.inr ⟨_, left, paired.cons_observation⟩
      · rcases checkRef_cases exempt with ⟨raised, raises, also⟩ | ⟨found, leaving, own, owned, alike, ok⟩
        · rw [without_cons, if_neg exempt]
          exact Or.inl ⟨raised, checkRefs_cons_error raises, checkRefs_cons_error also⟩
        rcases ih with ⟨raised, raises, also⟩ | ⟨refs, left, paired⟩
        · rw [without_cons, if_neg exempt]
          exact Or.inl ⟨raised, checkRefs_cons_error_rest own raises, checkRefs_cons_error_rest owned also⟩
        · exact Or.inr ⟨_, _, paired.cons exempt own owned alike ok⟩

theorem only_chainIntegrity {malformed : Bool} :
    Only .chainIntegrity (chainIntegrity envelope malformed decisionPre resultPre) := by
  unfold chainIntegrity
  split
  · exact only_nil
  · exact only_singleton

theorem only_proofBinding {proofPre : Json} : Only .proofBinding (proofBinding envelope proofPre) := by
  unfold proofBinding
  split
  · exact only_nil
  · exact only_singleton

theorem effectiveCallBinding_raises {raised : Raised} (incomparable : policyOk decisionPre = .error raised)
    (envelope : Fields) (canonical malformed : Bool) :
    effectiveCallBinding envelope canonical malformed decisionPre = .error raised := by
  have given : decisionPre.isNull = false := by
    rw [Json.isNull_false_iff]
    rintro rfl
    cases incomparable
  rw [effectiveCallBinding, given, Bool.false_and, if_neg Bool.false_ne_true, incomparable]
  rfl

theorem postCommitConsistency_of_readable (readable : Readable observation) (envelope : Fields) (resultPre : Json) :
    ∃ found, Only .postCommitConsistency found ∧ postCommitConsistency envelope observation resultPre = .ok found := by
  rcases readable with rfl | ⟨items, rfl⟩
  · exact postCommitConsistency_returns (fun given => (absurd rfl given : _ = Except.ok true)) envelope resultPre
  · exact postCommitConsistency_returns (fun _ => rfl) envelope resultPre

theorem postCommitConsistency_of_unreadable (unreadable : ¬ Readable observation)
    (envelope : Fields) (resultPre : Json) :
    ∃ raised, postCommitConsistency envelope observation resultPre = .error raised := by
  cases observation with
  | null => exact absurd (Or.inl rfl) unreadable
  | dict items => exact absurd (Or.inr ⟨items, rfl⟩) unreadable
  | bool | int | float | str | list => exact ⟨_, rfl⟩

theorem chainIntegrity_without {malformed : Bool} :
    chainIntegrity (without envelope Key.postCommitRef) malformed decisionPre resultPre =
      chainIntegrity envelope malformed decisionPre resultPre := by
  rw [chainIntegrity, chainIntegrity, field_without (by decide), field_without (by decide)]

theorem proofBinding_without {proofPre : Json} :
    proofBinding (without envelope Key.postCommitRef) proofPre = proofBinding envelope proofPre := by
  rw [proofBinding, proofBinding, field_without (by decide), field_without (by decide)]

theorem effectiveCallBinding_without {canonical malformed : Bool} :
    effectiveCallBinding (without envelope Key.postCommitRef) canonical malformed decisionPre =
      effectiveCallBinding envelope canonical malformed decisionPre := by
  have target : targetRef (without envelope Key.postCommitRef) = targetRef envelope := by
    rw [targetRef, targetRef, field_without (by decide), field_without (by decide)]
  rw [effectiveCallBinding, effectiveCallBinding, decisionCovers, decisionCovers, target, field_without (by decide)]

theorem lookup_of_only {own key : Check} {found : List (Check × Bool)} (only : Only own found) (other : key ≠ own) :
    (found.map fun result => (result.1, some result.2)).lookup key = none := by
  rw [List.lookup_eq_none_iff]
  intro entry member
  obtain ⟨result, from_found, rfl⟩ := List.mem_map.mp member
  rw [only result from_found]
  exact bne_iff_ne.mpr other

theorem check_about {result : Check × Bool} : ∀ failure ∈ check declared result, failure.check? = some result.1 := by
  intro failure member
  rcases List.mem_append.mp member with computed | mismatch
  · split at computed
    · exact absurd computed List.not_mem_nil
    · rw [List.mem_singleton.mp computed]
      rfl
  · split at mismatch
    · exact absurd mismatch List.not_mem_nil
    · split at mismatch
      · exact absurd mismatch List.not_mem_nil
      · rw [List.mem_singleton.mp mismatch]
        rfl

/-- What is found of the observation is not said of the original record. -/
theorem original_report {early late observed : List (Check × Bool)} (only : Only .postCommitConsistency observed) :
    (Results.report ⟨early, late ++ observed⟩ declared).original =
      (Results.report ⟨early, late⟩ declared).original := by
  refine congrArg₂ Prod.mk ?_ ?_
  · refine List.map_congr_left fun key original => ?_
    have other : key ≠ .postCommitConsistency := by
      revert key
      decide
    simp only [Results.report, Report.of, ← List.append_assoc]
    rw [List.map_append, List.lookup_append, lookup_of_only only other, Option.or_none]
  · simp only [Results.report, Report.of, List.flatMap_append, List.filter_append, ← List.append_assoc]
    have unsaid : (observed.flatMap (check declared)).filter
        (fun failure => failure.check? ≠ some .postCommitConsistency) = [] := by
      rw [List.filter_eq_nil_iff]
      intro failure member
      obtain ⟨result, from_observed, about⟩ := List.mem_flatMap.mp member
      rw [check_about failure about, only result from_observed]
      simp
    rw [unsaid, List.append_nil]

/-- The first check is among the original ones. -/
theorem canonical_of_original {found left : Results}
    (same : (found.report declared).original = (left.report declared).original) :
    (found.report declared).computed.lookup .canonicalEnvelope =
      (left.report declared).computed.lookup .canonicalEnvelope := by
  rw [Report.original, Report.original, Prod.mk.injEq] at same
  exact List.map_inj_left.mp same.1 .canonicalEnvelope List.mem_cons_self

/-- The results but for those of the observation. -/
def originalResults (envelope preimages : Fields) (refs : List (Str × RefCheck)) (effective : List (Check × Bool)) :
    Results :=
  ⟨(if preimages.isEmpty then [] else [(.canonicalEnvelope, canonicalOk refs)]) ++
      chainIntegrity envelope (malformedDecision refs) (field preimages Key.decisionId) (field preimages Key.resultId),
    proofBinding envelope (field preimages Key.proofRef) ++ effective⟩

theorem lookup_originalResults {refs : List (Str × RefCheck)} {effective : List (Check × Bool)}
    (only : Only .effectiveCallBinding effective) :
    ((originalResults envelope preimages refs effective).report declared).computed.lookup .canonicalEnvelope =
      if preimages.isEmpty then none else some (some (canonicalOk refs)) := by
  simp only [originalResults, Results.report, Report.of, List.map_append, List.lookup_append]
  rw [lookup_of_only only_chainIntegrity (by decide), lookup_of_only only_proofBinding (by decide),
    lookup_of_only only (by decide)]
  cases preimages.isEmpty <;> rfl

theorem isEmpty_without {removed : Str} :
    (without preimages removed).isEmpty = true ↔ ∀ entry ∈ preimages, entry.1 = removed := by
  rw [List.isEmpty_iff, without, List.filter_eq_nil_iff]
  exact forall₂_congr fun entry _ => by rw [decide_eq_true_eq, not_not]

theorem isEmpty_without_of_accompanied {removed : Str}
    (accompanied : preimages = [] ∨ ∃ entry ∈ preimages, entry.1 ≠ removed) :
    (without preimages removed).isEmpty = preimages.isEmpty := by
  rw [Bool.eq_iff_iff, isEmpty_without, List.isEmpty_iff]
  rcases accompanied with rfl | ⟨entry, member, other⟩
  · exact iff_of_true (fun entry member => absurd member List.not_mem_nil) rfl
  · exact iff_of_false (fun only => other (only entry member)) (List.ne_nil_of_mem member)

theorem Paired.canonicalOk_eq {refs left : List (Str × RefCheck)} (paired : Paired envelope preimages refs left)
    (separable : Separable envelope preimages) : canonicalOk left = canonicalOk refs := by
  rw [Bool.eq_iff_iff, paired.canonical, and_iff_left_iff_imp]
  exact fun ok => separable.unnamed (checkRefs_ok_iff.mp ⟨refs, paired.checked, ok⟩)

/-- Where the first check is computed alike, the observation can be separated. -/
theorem Paired.separable {refs left : List (Str × RefCheck)} (paired : Paired envelope preimages refs left)
    (readable : Readable (field preimages Key.postCommitObservation))
    (computed : (if preimages.isEmpty then none else some (some (canonicalOk refs))) =
      if (without preimages Key.postCommitObservation).isEmpty then none else some (some (canonicalOk left))) :
    Separable envelope preimages := by
  refine ⟨readable, ?_, fun recomputed entry member named => ?_⟩
  · by_contra alone
    rw [not_or, not_exists] at alone
    have empty : (without preimages Key.postCommitObservation).isEmpty = true :=
      isEmpty_without.mpr fun entry member => by_contra fun other => alone.2 entry ⟨member, other⟩
    rw [if_neg (mt List.isEmpty_iff.mp alone.1), if_pos empty] at computed
    cases computed
  · have ok : canonicalOk refs = true := by
      obtain ⟨own, rechecked, ok⟩ := checkRefs_ok_iff.mpr recomputed
      rwa [Except.ok.inj (paired.checked.symm.trans rechecked)]
    have full : ¬ (without preimages Key.postCommitObservation).isEmpty = true := by
      intro empty
      have removed := isEmpty_without.mp empty entry member
      rw [named] at removed
      revert removed
      decide
    rw [if_neg (mt List.isEmpty_iff.mp (List.ne_nil_of_mem member)), if_neg full, ok] at computed
    exact (paired.canonical.mp (Option.some.inj (Option.some.inj computed)).symm).2 entry member named

theorem originalResults_without {refs left : List (Str × RefCheck)} {effective : List (Check × Bool)}
    (canonical : canonicalOk left = canonicalOk refs) (malformed : malformedDecision left = malformedDecision refs)
    (full : (without preimages Key.postCommitObservation).isEmpty = preimages.isEmpty) :
    originalResults (without envelope Key.postCommitRef) (without preimages Key.postCommitObservation) left effective =
      originalResults envelope preimages refs effective := by
  rw [originalResults, originalResults, canonical, malformed, full, chainIntegrity_without, proofBinding_without,
    field_without (by decide), field_without (by decide), field_without (by decide)]

theorem results_of_observed {refs : List (Str × RefCheck)} {effective observed : List (Check × Bool)}
    (checked : checkRefs envelope preimages = .ok refs)
    (bound : effectiveCallBinding envelope (canonicalOk refs) (malformedDecision refs)
      (field preimages Key.decisionId) = .ok effective)
    (consistent : postCommitConsistency envelope (field preimages Key.postCommitObservation)
      (field preimages Key.resultId) = .ok observed) :
    results envelope preimages = .ok ⟨(originalResults envelope preimages refs effective).early,
      (originalResults envelope preimages refs effective).late ++ observed⟩ :=
  bind_ok_iff.mpr ⟨refs, checked, bind_ok_iff.mpr ⟨effective, bound, bind_ok_iff.mpr ⟨observed, consistent, rfl⟩⟩⟩

theorem results_of_incomparable {refs : List (Str × RefCheck)} {raised : Raised}
    (checked : checkRefs envelope preimages = .ok refs)
    (incomparable : policyOk (field preimages Key.decisionId) = .error raised) :
    results envelope preimages = .error raised := by
  simp only [results, checked, effectiveCallBinding_raises incomparable, bind, Except.bind]

/-- Where no observation is given, the original results are all. -/
theorem results_of_unobserved {refs : List (Str × RefCheck)} {effective : List (Check × Bool)}
    (checked : checkRefs envelope preimages = .ok refs)
    (bound : effectiveCallBinding envelope (canonicalOk refs) (malformedDecision refs)
      (field preimages Key.decisionId) = .ok effective)
    (absent : field preimages Key.postCommitObservation = .null) :
    results envelope preimages = .ok (originalResults envelope preimages refs effective) := by
  have consistent : postCommitConsistency envelope (field preimages Key.postCommitObservation)
      (field preimages Key.resultId) = .ok [] := by
    rw [absent]
    rfl
  rw [results_of_observed checked bound consistent, List.append_nil]

end

section
variable {isSupported : Json → Except Raised Bool} {vector : Vector} {preimages : Fields}

/-- Verification of the vector without its observation, given the preimages it had. -/
def verifyWithout (isSupported : Json → Except Raised Bool) (vector : Vector) (preimages : Fields) :
    Except Raised Report :=
  verifyPreimages isSupported vector.withoutObservation (without preimages Key.postCommitObservation)

theorem verifyPreimages_of_raised {raised : Raised}
    (gate : unsupportedProfile isSupported (field preimages Key.decisionId) = .ok none)
    (raises : results vector.envelope preimages = .error raised) :
    verifyPreimages isSupported vector preimages = .error raised := by
  rw [verifyPreimages, gate, raises]
  rfl

theorem same_of_raised {raised : Raised}
    (gate : unsupportedProfile isSupported (field preimages Key.decisionId) = .ok none)
    (raises : results vector.envelope preimages = .error raised)
    (also : results vector.withoutObservation.envelope (without preimages Key.postCommitObservation) = .error raised) :
    verifyPreimages isSupported vector preimages = verifyWithout isSupported vector preimages := by
  have left := verifyPreimages_of_raised (by rw [field_without (by decide), gate]) also
  exact (verifyPreimages_of_raised gate raises).trans left.symm

/-- What ends before the observation is read ends alike without it. -/
theorem same_of_stopped (stopped : Stopped isSupported preimages) :
    verifyPreimages isSupported vector preimages = verifyWithout isSupported vector preimages := by
  cases gate : unsupportedProfile isSupported (field preimages Key.decisionId) with
  | error raised =>
      rw [verifyWithout, verifyPreimages, verifyPreimages, field_without (by decide), gate]
      rfl
  | ok halted =>
      cases halted with
      | some profileId =>
          rw [verifyWithout, verifyPreimages, verifyPreimages, field_without (by decide), gate]
          rfl
      | none =>
          rcases @checkRefs_without vector.envelope preimages with
            ⟨raised, raises, also⟩ | ⟨refs, left, paired⟩
          · apply same_of_raised gate
            · rw [results, raises]
              rfl
            · rw [results, Vector.withoutObservation, also]
              rfl
          rcases stopped with halted | unreadable | ⟨raised, incomparable⟩
          · exact absurd gate halted
          · obtain ⟨raised, raises⟩ := checkRefs_error_iff.mpr unreadable
            rw [paired.checked] at raises
            cases raises
          · apply same_of_raised gate (results_of_incomparable paired.checked incomparable)
            apply results_of_incomparable paired.again
            rwa [field_without (by decide)]

/-- What is read to its end is the same without the observation exactly where they can be separated. -/
theorem original_iff_of_paired {refs left : List (Str × RefCheck)} {policy : Bool}
    (gate : unsupportedProfile isSupported (field preimages Key.decisionId) = .ok none)
    (paired : Paired vector.envelope preimages refs left)
    (inForce : policyOk (field preimages Key.decisionId) = .ok policy) :
    (verifyPreimages isSupported vector preimages).map Report.original =
      (verifyWithout isSupported vector preimages).map Report.original ↔ Separable vector.envelope preimages := by
  have decision : field (without preimages Key.postCommitObservation) Key.decisionId = field preimages Key.decisionId :=
    field_without (by decide)
  obtain ⟨effective, only, bound⟩ := effectiveCallBinding_returns inForce vector.envelope (canonicalOk refs)
    (malformedDecision refs)
  obtain ⟨leaving, alone, rebound⟩ := effectiveCallBinding_returns inForce vector.envelope (canonicalOk left)
    (malformedDecision left)
  have unobserved := results_of_unobserved paired.again (by rw [decision, effectiveCallBinding_without, rebound])
    field_without_self
  have verified : verifyWithout isSupported vector preimages = .ok _ :=
    verifyPreimages_of_results (by rw [decision, gate]) unobserved
  by_cases readable : Readable (field preimages Key.postCommitObservation)
  · obtain ⟨observed, observation, consistent⟩ := postCommitConsistency_of_readable readable vector.envelope
      (field preimages Key.resultId)
    rw [verifyPreimages_of_results gate (results_of_observed paired.checked bound consistent), verified]
    constructor
    · intro same
      have computed := canonical_of_original ((original_report observation).symm.trans (Except.ok.inj same))
      rw [lookup_originalResults only, lookup_originalResults alone] at computed
      exact paired.separable readable computed
    · intro separable
      have ok := paired.canonicalOk_eq separable
      have found : malformedDecision left = malformedDecision refs := Bool.eq_iff_iff.mpr paired.malformed
      have full := isEmpty_without_of_accompanied separable.accompanied
      rw [ok, found, bound] at rebound
      obtain rfl := Except.ok.inj rebound
      refine congrArg Except.ok ((original_report observation).trans ?_)
      rw [Vector.withoutObservation, originalResults_without ok found full]
  · obtain ⟨raised, raises⟩ := postCommitConsistency_of_unreadable readable vector.envelope
      (field preimages Key.resultId)
    have unverified : results vector.envelope preimages = .error raised := by
      simp only [results, paired.checked, bound, raises, bind, Except.bind]
    rw [verified, verifyPreimages_of_raised gate unverified]
    exact iff_of_false (fun same => by cases same) fun separable => readable separable.readable

/-- A later observation changes nothing exactly where the verification stops before it or
the two can be separated. -/
theorem unaffected_iff (isSupported : Json → Except Raised Bool) (vector : Vector) :
    Unaffected isSupported vector ↔ ∀ preimages, vector.preimages = some preimages →
      Stopped isSupported preimages ∨ Separable vector.envelope preimages := by
  unfold Unaffected
  cases given : vector.preimages with
  | none => exact iff_of_true (fun there => by cases there) fun preimages there => by cases there
  | some preimages =>
      have separately : verifyVector isSupported vector.withoutObservation =
        verifyWithout isSupported vector preimages :=
        verifyVector_of_given (congrArg (Option.map _) given)
      simp only [Option.isSome_some, forall_const, Option.some.injEq, forall_eq']
      rw [verifyVector_of_given given, separately]
      by_cases stopped : Stopped isSupported preimages
      · exact iff_of_true (congrArg (Except.map _) (same_of_stopped stopped)) (Or.inl stopped)
      · obtain ⟨gate, readable, comparable⟩ :
          unsupportedProfile isSupported (field preimages Key.decisionId) = .ok none ∧
            _ ∧ _ := by rwa [Stopped, not_or, not_or, not_not] at stopped
        rw [← @checkRefs_error_iff vector.envelope] at readable
        rcases @checkRefs_without vector.envelope preimages with
          ⟨raised, raises, _⟩ | ⟨refs, left, paired⟩
        · exact absurd ⟨raised, raises⟩ readable
        cases inForce : policyOk (field preimages Key.decisionId) with
        | error raised => exact absurd ⟨raised, inForce⟩ comparable
        | ok policy =>
            rw [original_iff_of_paired gate paired inForce]
            exact ⟨Or.inr, fun either => either.resolve_left stopped⟩

end

/-- A record of which only the observation is given. -/
def loneObservation : Vector :=
  let observation := Json.dict [(Key.resultId, text "r"), (Key.observedHash, text "o"),
    (ofString "observed_at_ms", .int 1), (ofString "observer_id", text "w"),
    (Key.version, text "execution-join-ref-v1.1")]
  { envelope := [(Key.resultId, text "r"), (Key.postCommitRef, refOf observation)]
    preimages := some [(Key.postCommitObservation, observation)]
    checks := []
    failureMode := .null }

/-- With it the envelope is said to be canonical, and without it nothing is said. -/
theorem not_unaffected_loneObservation : ¬ Unaffected (fun _ => .ok true) loneObservation := by
  intro same
  have computed := congrArg (fun outcome => outcome.toOption.map Prod.fst) (same rfl)
  revert computed
  decide +kernel

end Argentum.ExecutionJoin
