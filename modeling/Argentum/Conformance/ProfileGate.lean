import Argentum.Conformance.ExecutionJoin

/-! The registry of profiles over a run of lookups, and the verifier that asks it. The id is
taken from the decision as it stands there, and the files may change between lookups. -/
namespace Argentum.ExecutionJoin
open Text Profiles Transition

/-- A decision that names the id is reported as one whose profile is not supported. -/
def Unsupported (isSupported : Json → Except Raised Bool) (profileId : Str) : Prop :=
  ∀ vector preimages items, vector.preimages = some preimages → field preimages Key.decisionId = .dict items →
    items.lookup Key.canonicalizationProfileId = some (.str profileId) →
    ∃ report, verifyVector isSupported vector = .ok report ∧ report.conforms = false ∧
      report.failures = [.unsupportedCanonicalProfile (.str profileId)]

/-- The registry answers every lookup of a run, from an empty cache on. -/
structure AnswersAll (parseFloat : Str → Float64) (calls : List Call) : Prop where
  answers : ∀ before call after, calls = before ++ call :: after →
    Answers parseFloat (run (step parseFloat) [] before) call
  reported : ∀ before call after, calls = before ++ call :: after → ¬ Holds parseFloat call.1 (canonicalId call.2) →
    ∀ supported : Json → Except Raised Bool,
      supported (.str call.2) = isSupported parseFloat call.1 (run (step parseFloat) [] before) call.2 →
      Unsupported supported call.2
  same : ∀ before call middle again after, calls = before ++ call :: (middle ++ again :: after) →
    canonicalId call.2 = canonicalId again.2 → ∀ doc other, doc ≠ .null → other ≠ .null →
    (resolve parseFloat call.1 (run (step parseFloat) [] before) call.2).1 = .ok doc →
    (resolve parseFloat again.1 (run (step parseFloat) [] (before ++ call :: middle)) again.2).1 = .ok other →
      doc = other

section
variable {parseFloat : Str → Float64} {cache : Cache} {call : Call} {calls : List Call}

/-- An id that resolves to none is reported. -/
theorem unsupported_of_resolved (resolved : (resolve parseFloat call.1 cache call.2).1 = .ok .null)
    {supported : Json → Except Raised Bool} (asks : supported (.str call.2) =
      isSupported parseFloat call.1 cache call.2) :
    Unsupported supported call.2 := by
  intro vector preimages items given decision named
  have refused : supported (.str call.2) = .ok false := by
    rw [asks, isSupported, resolved]
    rfl
  have gate : unsupportedProfile supported (field preimages Key.decisionId) = .ok (some (.str call.2)) := by
    rw [decision, unsupportedProfile, named]
    exact bind_ok_iff.mpr ⟨false, refused, rfl⟩
  have verified : verifyVector supported vector = .ok (.of [.unsupportedCanonicalProfile (.str call.2)]
      [(.canonicalEnvelope, none), (.chainIntegrity, none), (.effectiveCallBinding, none)]) := by
    rw [verifyVector, given]
    exact bind_ok_iff.mpr ⟨some (.str call.2), gate, rfl⟩
  exact ⟨_, verified, rfl, rfl⟩

theorem addressed_run (calls : List Call) : Addressed (run (step parseFloat) [] calls) := by
  apply run_invariant (P := Addressed)
  · exact fun _ call addressed => addressed_step addressed call
  · intro canonical doc kept
    cases kept

/-- A document that was kept for an id is the one that is returned for it. -/
theorem resolved_of_kept {doc other : Json} (kept : cache.lookup (canonicalId call.2) = some doc)
    (resolved : (resolve parseFloat call.1 cache call.2).1 = .ok other) : doc = other := by
  rw [resolve, kept] at resolved
  exact Except.ok.inj resolved

theorem lookup_run {canonical : Str} {doc : Json} (kept : cache.lookup canonical = some doc) (calls : List Call) :
    (run (step parseFloat) cache calls).lookup canonical = some doc := by
  apply run_invariant (P := fun cache : Cache => cache.lookup canonical = some doc)
  · exact fun _ call kept => lookup_step kept call
  · exact kept

end

/-- Every lookup of a run is answered as it should be exactly where every id can be served. -/
theorem answersAll_iff (parseFloat : Str → Float64) (calls : List Call) :
    AnswersAll parseFloat calls ↔ Admits (step parseFloat) (Servable parseFloat) [] calls := by
  rw [admits_iff_split]
  constructor
  · intro answered before call after split
    exact (answers_iff_servable (addressed_run before)).mp (answered.answers before call after split)
  · intro served
    have answers before call after (split : calls = before ++ call :: after) :
        Answers parseFloat (run (step parseFloat) [] before) call :=
      (answers_iff_servable (addressed_run before)).mpr (served before call after split)
    refine ⟨answers, ?_, ?_⟩
    · intro before call after split unheld supported asks
      obtain ⟨doc, resolved, _, none⟩ := answers before call after split
      rw [none unheld] at resolved
      exact unsupported_of_resolved resolved asks
    · intro before call middle again after _ same doc other document _ resolved resolvedAgain
      have kept : (run (step parseFloat) [] (before ++ call :: middle)).lookup (canonicalId again.2) = some doc := by
        rw [run_append, run_cons, ← same]
        exact lookup_run (kept_of_resolved resolved document) middle
      exact resolved_of_kept kept resolvedAgain

/-- A path out of the profiles directory, to a file that is there. -/
def vectorsPath : Str := ofString "../examples/conformance/execution-join-ref/vectors"

def vectorsDisk : Disk := fun path => if path = pathOf vectorsPath then .file [123, 125] else .missing

theorem not_answersAll_vectorsPath : ¬ AnswersAll (fun _ => .nan) [(vectorsDisk, vectorsPath)] := by
  intro answered
  obtain ⟨doc, resolved, _⟩ := answered.answers [] _ [] rfl
  have raised : (resolve (fun _ => .nan) vectorsDisk [] vectorsPath).1.toOption.isSome = false := by decide +kernel
  rw [show (resolve (fun _ => .nan) vectorsDisk [] vectorsPath).1 = .ok doc from resolved] at raised
  cases raised

end Argentum.ExecutionJoin
