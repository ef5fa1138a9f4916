import Argentum.Conformance.Narrowing

/-! What a larger key set does to the verdict on a delegation chain. Only the check of the
signatures reads the keys, and with a key it can add a finding or clear what was open. -/
namespace Argentum.Delegation
open Text Dumps Sha256

/-- The second key set has the keys of the first. -/
def Agrees (pubkeys more : Pubkeys) : Prop := ∀ name key, pubkeys.lookup name = some key → more.lookup name = some key

/-- The hop whose delegator has no key in a key set that is complete. -/
def Failure.missingKey? : Failure → Option NotAssessed
  | .delegatorKeyNotInCompleteKeySet hop delegator => some ⟨hop, delegator⟩
  | _ => none

/-- A failure is about the signature of a hop. -/
def Failure.ofSignature : Failure → Bool
  | .hopSignatureInvalid .. => true
  | .delegatorKeyNotInCompleteKeySet .. => true
  | _ => false

/-- Declaring the key set complete turns what was not assessed into failures, and nothing else. -/
structure Settles (evaluation settled : Evaluation) : Prop where
  failures : settled.failures.filter (fun failure => failure.missingKey?.isNone) = evaluation.failures
  missing : settled.failures.filterMap Failure.missingKey? = evaluation.notAssessed
  assessed : settled.notAssessed = []
  pass : settled.verdict = .pass ↔ evaluation.verdict = .pass
  fail : settled.verdict = .fail ↔ evaluation.verdict ≠ .pass

/-- Knowing more keys only refines what is found of a vector. -/
structure KeysRefine (verifies : Verifier) (vector : Json) (seenRegistry : Option SeenRegistry)
    (enforceScopeNarrowing : Bool) (pubkeys : Pubkeys) : Prop where
  pass : ∀ more, Agrees pubkeys more → ∀ evaluation after,
    evaluateVector verifies vector pubkeys seenRegistry false enforceScopeNarrowing = .ok (evaluation, after) →
    evaluation.verdict = .pass → ∃ evaluation' after',
      evaluateVector verifies vector more seenRegistry false enforceScopeNarrowing = .ok (evaluation', after') ∧
      evaluation'.verdict = .pass
  fail : ∀ more, Agrees pubkeys more → ∀ evaluation after,
    evaluateVector verifies vector pubkeys seenRegistry false enforceScopeNarrowing = .ok (evaluation, after) →
    evaluation.verdict = .fail → ∃ evaluation' after',
      evaluateVector verifies vector more seenRegistry false enforceScopeNarrowing = .ok (evaluation', after') ∧
      evaluation'.verdict = .fail ∧ List.Sublist evaluation.failures evaluation'.failures
  unresolved : ∀ keysAreComplete evaluation after chain hops i hop,
    evaluateVector verifies vector pubkeys seenRegistry keysAreComplete enforceScopeNarrowing =
      .ok (evaluation, after) →
    vector.item (ofString "chain_artifact") = .ok chain → chain.item (ofString "hops") = .ok (.list hops) →
    hops[i]? = some hop → pubkeyOf pubkeys (hop.get (ofString "delegator")) = .ok none →
    ∀ delegator, Failure.hopSignatureInvalid i delegator ∉ evaluation.failures
  raises : ∀ raised, evaluateVector verifies vector pubkeys seenRegistry true enforceScopeNarrowing = .error raised ↔
    evaluateVector verifies vector pubkeys seenRegistry false enforceScopeNarrowing = .error raised
  settles : ∀ evaluation after,
    evaluateVector verifies vector pubkeys seenRegistry false enforceScopeNarrowing = .ok (evaluation, after) →
    ∃ settled, evaluateVector verifies vector pubkeys seenRegistry true enforceScopeNarrowing = .ok (settled, after) ∧
      Settles evaluation settled

/-- No failure is about a signature. -/
def Plain (found : List Failure) : Prop := ∀ failure ∈ found, failure.ofSignature = false

section
variable {verifies : Verifier} {vector chain value : Json} {pubkeys more : Pubkeys} {found other : List Failure}
  {keysAreComplete enforceScopeNarrowing : Bool} {i : Nat}

theorem plain_nil : Plain [] := fun _ member => absurd member List.not_mem_nil

theorem Plain.append (plain : Plain found) (also : Plain other) : Plain (found ++ other) :=
  List.forall_mem_append.mpr ⟨plain, also⟩

theorem plain_ite {equal : Bool} {failure : Failure} (plain : failure.ofSignature = false) :
    Plain (if equal then [] else [failure]) := by
  cases equal with
  | true => exact plain_nil
  | false => exact List.forall_mem_singleton.mpr plain

theorem plain_byteMatch (checked : byteMatch vector chain = .ok found) : Plain found := by
  obtain ⟨digest, _, checked⟩ := bind_ok checked
  cases checked
  exact plain_ite rfl

theorem plain_collect {f : Nat → Except PyError (List Failure)} {xs : List Nat}
    (each : ∀ i own, f i = .ok own → Plain own) (collected : collect f xs = .ok found) : Plain found := by
  intro failure member
  obtain ⟨i, _, own, checked, inside⟩ := (mem_collect_iff collected).mp member
  exact each i own checked failure inside

theorem plain_chainContinuity (checked : chainContinuity value = .ok found) : Plain found := by
  obtain ⟨count, _, checked⟩ := bind_ok checked
  refine plain_collect (fun i own broken => ?_) checked
  obtain ⟨_, _, broken⟩ := bind_ok broken
  obtain ⟨_, _, broken⟩ := bind_ok broken
  obtain ⟨_, _, broken⟩ := bind_ok broken
  obtain ⟨_, _, broken⟩ := bind_ok broken
  cases broken
  exact plain_ite rfl

theorem plain_rootAnchoring (checked : rootAnchoring chain value = .ok found) : Plain found := by
  obtain ⟨_, _, checked⟩ := bind_ok checked
  obtain ⟨_, _, checked⟩ := bind_ok checked
  obtain ⟨_, _, checked⟩ := bind_ok checked
  cases checked
  exact plain_ite rfl

theorem plain_leafAnchoring (checked : leafAnchoring vector chain value = .ok found) : Plain found := by
  unfold leafAnchoring at checked
  split at checked
  · obtain ⟨_, _, checked⟩ := bind_ok checked
    obtain ⟨_, _, checked⟩ := bind_ok checked
    obtain ⟨_, _, checked⟩ := bind_ok checked
    obtain ⟨_, _, checked⟩ := bind_ok checked
    obtain ⟨_, _, checked⟩ := bind_ok checked
    obtain ⟨_, _, checked⟩ := bind_ok checked
    cases checked
    exact (plain_ite rfl).append (plain_ite rfl)
  · cases checked
    exact plain_nil

theorem plain_scopeNarrowing (checked : scopeNarrowing enforceScopeNarrowing value = .ok found) : Plain found := by
  intro failure member
  have widening := scopeNarrowing_isWidening checked failure member
  cases failure with
  | scopeWidening => rfl
  | delegationChainRefMismatch | chainBreak | rootAnchoring | leafAnchoring | scopeMismatchAtLeaf |
    hopSignatureInvalid | delegatorKeyNotInCompleteKeySet | replayDetected => cases widening

theorem plain_frontChecks (checked : frontChecks vector chain value = .ok found) : Plain found := by
  obtain ⟨reference, referenced, checked⟩ := bind_ok checked
  obtain ⟨continuity, continuous, checked⟩ := bind_ok checked
  obtain ⟨root, rooted, checked⟩ := bind_ok checked
  obtain ⟨leaf, anchored, checked⟩ := bind_ok checked
  cases checked
  exact (((plain_byteMatch referenced).append (plain_chainContinuity continuous)).append
    (plain_rootAnchoring rooted)).append (plain_leafAnchoring anchored)

/-- A replay is found whatever was found before it. -/
theorem replayCheck_clean {seenRegistry after : Option SeenRegistry} {clean : Bool}
    (checked : replayCheck seenRegistry chain value clean = .ok (found, after)) (cleaner : Bool) :
    Plain found ∧ ∃ after', replayCheck seenRegistry chain value cleaner = .ok (found, after') := by
  cases seenRegistry with
  | none =>
      cases checked
      exact ⟨plain_nil, none, rfl⟩
  | some registry =>
      obtain ⟨authorization, read, checked⟩ := bind_ok checked
      obtain ⟨seen, known, checked⟩ := bind_ok checked
      cases seen with
      | true =>
          cases checked
          exact ⟨List.forall_mem_singleton.mpr rfl, _, bind_ok_iff.mpr ⟨authorization, read,
            bind_ok_iff.mpr ⟨true, known, rfl⟩⟩⟩
      | false =>
          cases checked
          exact ⟨plain_nil, _, bind_ok_iff.mpr ⟨authorization, read, bind_ok_iff.mpr ⟨false, known, rfl⟩⟩⟩

theorem item_raises {key : Str} {raised : PyError} (raises : value.item key = .error raised) :
    raised = .keyError ∨ raised = .typeError := by
  unfold Json.item at raises
  split at raises
  · split at raises
    · cases raises
    · exact Or.inl (Except.error.inj raises).symm
  · exact Or.inr (Except.error.inj raises).symm

theorem hopSigningPreimage_raises {chainId hop : Json} {raised : PyError}
    (raises : hopSigningPreimage chainId hop = .error raised) : raised = .keyError ∨ raised = .typeError := by
  rcases bind_raises raises with unread | ⟨_, _, raises⟩
  · exact item_raises unread
  rcases bind_raises raises with unread | ⟨_, _, raises⟩
  · exact item_raises unread
  rcases bind_raises raises with unread | ⟨_, _, raises⟩
  · exact item_raises unread
  rcases bind_raises raises with unread | ⟨_, _, raises⟩
  · exact item_raises unread
  cases raises

/-- A message that cannot be made raises what the check of a signature answers. -/
theorem hopMessage_raises {chainId hop : Json} {raised : PyError} (raises : hopMessage chainId hop = .error raised) :
    raised = .valueError ∨ raised = .keyError ∨ raised = .typeError := by
  rcases bind_raises raises with unwritten | ⟨text, _, refused⟩
  · exact Or.inr (hopSigningPreimage_raises unwritten)
  · unfold encodeUtf8 at refused
    split at refused
    · cases refused
    · exact Or.inl (Except.error.inj refused).symm

/-- The signature is the key's over the message of the hop, if it has one. -/
def hopVerifies (verifies : Verifier) (chainId hop signature key : Json) : Bool :=
  match hopMessage chainId hop with
  | .ok message => verifies key message signature
  | .error _ => false

/-- With a key the check of a signature answers, by the key alone. -/
theorem verifyHopSignature_of_key {chainId hop signature delegator key : Json}
    (read : hop.item (ofString "delegator") = .ok delegator) (known : pubkeyOf pubkeys delegator = .ok (some key)) :
    verifyHopSignature verifies chainId hop signature pubkeys =
      .ok (if hopVerifies verifies chainId hop signature key then .valid else .invalid) := by
  cases made : hopMessage chainId hop with
  | ok message =>
      simp only [verifyHopSignature, hopVerifies, read, known, made, bind, Except.bind]
      rfl
  | error raised =>
      simp only [verifyHopSignature, hopVerifies, read, known, made, bind, Except.bind]
      rcases hopMessage_raises made with rfl | rfl | rfl <;> rfl

theorem verifyHopSignature_of_unknown {chainId hop signature delegator : Json}
    (read : hop.item (ofString "delegator") = .ok delegator) (unknown : pubkeyOf pubkeys delegator = .ok none) :
    verifyHopSignature verifies chainId hop signature pubkeys = .ok .keyUnresolved := by
  simp only [verifyHopSignature, read, unknown, bind, Except.bind]
  rfl

theorem pubkeyOf_agrees (agrees : Agrees pubkeys more) {delegator key : Json}
    (known : pubkeyOf pubkeys delegator = .ok (some key)) : pubkeyOf more delegator = .ok (some key) := by
  unfold pubkeyOf at known ⊢
  split
  · rename_i hashable
    rw [if_pos hashable] at known
    cases delegator with
    | str name =>
        obtain ⟨found, truthy⟩ := Option.filter_eq_some_iff.mp (Except.ok.inj known)
        dsimp only
        rw [agrees name key found, Option.filter_some, if_pos truthy]
    | null | bool | int | float | list | dict => cases known
  · rename_i unhashable
    rw [if_neg unhashable] at known
    cases known

/-- The check of a signature that comes to an end found a key or did not. -/
theorem verifyHopSignature_cases {chainId hop signature : Json} {answer : HopSignature}
    (checked : verifyHopSignature verifies chainId hop signature pubkeys = .ok answer) :
    ∃ delegator, hop.item (ofString "delegator") = .ok delegator ∧
      ((pubkeyOf pubkeys delegator = .ok none ∧ answer = .keyUnresolved) ∨
        ∃ key, pubkeyOf pubkeys delegator = .ok (some key) ∧
          answer = if hopVerifies verifies chainId hop signature key then .valid else .invalid) := by
  obtain ⟨delegator, read, rest⟩ := bind_ok checked
  obtain ⟨found, looked, _⟩ := bind_ok rest
  refine ⟨delegator, read, ?_⟩
  cases found with
  | none =>
      rw [verifyHopSignature_of_unknown read looked] at checked
      exact Or.inl ⟨looked, (Except.ok.inj checked).symm⟩
  | some key =>
      rw [verifyHopSignature_of_key read looked] at checked
      exact Or.inr ⟨key, looked, (Except.ok.inj checked).symm⟩

/-- Where a set has no key for a hop, a larger one may have one. -/
theorem pubkeyOf_isOk {delegator : Json} {found : Option Json} (looked : pubkeyOf pubkeys delegator = .ok found)
    (more : Pubkeys) : ∃ found', pubkeyOf more delegator = .ok found' := by
  unfold pubkeyOf at looked ⊢
  split
  · cases delegator with
    | str name => exact ⟨_, rfl⟩
    | null | bool | int | float | list | dict => exact ⟨none, rfl⟩
  · rename_i unhashable
    rw [if_neg unhashable] at looked
    cases looked

/-- What is found of a hop's signature stays found. -/
theorem hopSignature_agrees (agrees : Agrees pubkeys more) {entry : Json × Nat} {own : List (Failure ⊕ NotAssessed)}
    (checked : hopSignature verifies chain pubkeys false entry = .ok own) :
    ∃ own', hopSignature verifies chain more false entry = .ok own' ∧
      List.Sublist (own.filterMap Sum.getLeft?) (own'.filterMap Sum.getLeft?) := by
  obtain ⟨hop, i⟩ := entry
  by_cases present : hop.has (ofString "hop_signature") = true
  · simp only [hopSignature, if_pos present] at checked ⊢
    obtain ⟨chainId, named, checked⟩ := bind_ok checked
    obtain ⟨signature, given, checked⟩ := bind_ok checked
    obtain ⟨answer, verified, checked⟩ := bind_ok checked
    simp only [named, given, bind, Except.bind]
    obtain ⟨delegator, read, ⟨unknown, rfl⟩ | ⟨key, known, _⟩⟩ := verifyHopSignature_cases verified
    · cases checked
      obtain ⟨found, looked⟩ := pubkeyOf_isOk unknown more
      cases found with
      | none =>
          rw [verifyHopSignature_of_unknown read looked]
          exact ⟨_, rfl, List.nil_sublist _⟩
      | some key =>
          rw [verifyHopSignature_of_key read looked]
          cases hopVerifies verifies chainId hop signature key with
          | true => exact ⟨_, rfl, List.nil_sublist _⟩
          | false => exact ⟨_, rfl, List.nil_sublist _⟩
    · rw [verifyHopSignature_of_key read known] at verified
      rw [verifyHopSignature_of_key read (pubkeyOf_agrees agrees known), verified]
      exact ⟨own, checked, List.Sublist.refl _⟩
  · rw [hopSignature, if_neg present] at checked ⊢
    exact ⟨own, checked, List.Sublist.refl _⟩

/-- What the absence of a key adds where the key set is complete. -/
def settle : Failure ⊕ NotAssessed → Failure ⊕ NotAssessed
  | .inl failure => .inl failure
  | .inr absent => .inl (.delegatorKeyNotInCompleteKeySet absent.hop absent.delegator)

theorem hopSignature_complete (entry : Json × Nat) : hopSignature verifies chain pubkeys true entry =
    (hopSignature verifies chain pubkeys false entry).map (List.map settle) := by
  obtain ⟨hop, i⟩ := entry
  by_cases present : hop.has (ofString "hop_signature") = true
  · simp only [hopSignature, if_pos present]
    cases named : chain.item (ofString "chain_id") with
    | error raised => rfl
    | ok chainId =>
        cases given : hop.item (ofString "hop_signature") with
        | error raised => rfl
        | ok signature =>
            cases verified : verifyHopSignature verifies chainId hop signature pubkeys with
            | error raised =>
                simp only [bind, Except.bind, verified]
                rfl
            | ok answer =>
                simp only [bind, Except.bind, verified]
                cases answer with
                | valid => rfl
                | invalid => rfl
                | keyUnresolved => rfl
  · rw [hopSignature, hopSignature, if_neg present, if_neg present]
    rfl

theorem hopSignatures_complete : hopSignatures verifies chain value pubkeys true =
    (hopSignatures verifies chain value pubkeys false).map (List.map settle) := by
  rw [hopSignatures, hopSignatures]
  cases value.elements with
  | error raised => rfl
  | ok hops => exact collect_map hopSignature_complete hops.zipIdx

/-- Where the key set is not complete, no failure is about a missing key. -/
theorem missingKey_of_hopSignatures {signatures : List (Failure ⊕ NotAssessed)}
    (checked : hopSignatures verifies chain value pubkeys false = .ok signatures) :
    ∀ failure, .inl failure ∈ signatures → failure.missingKey? = none := by
  obtain ⟨hops, _, collected⟩ := bind_ok checked
  intro failure member
  obtain ⟨⟨hop, i⟩, _, own, checked, inside⟩ := (mem_collect_iff collected).mp member
  by_cases present : hop.has (ofString "hop_signature") = true
  · rw [hopSignature, if_pos present] at checked
    obtain ⟨chainId, _, checked⟩ := bind_ok checked
    obtain ⟨signature, _, checked⟩ := bind_ok checked
    obtain ⟨answer, _, checked⟩ := bind_ok checked
    cases answer with
    | valid =>
        cases checked
        cases inside
    | invalid =>
        cases checked
        cases List.mem_singleton.mp inside
        rfl
    | keyUnresolved =>
        cases checked
        cases List.mem_singleton.mp inside
  · rw [hopSignature, if_neg present] at checked
    cases checked
    cases inside

/-- The settled findings: nothing is left open, what was found stays and what was open is missing. -/
theorem settle_findings {signatures : List (Failure ⊕ NotAssessed)}
    (present : ∀ failure, .inl failure ∈ signatures → failure.missingKey? = none) :
    (signatures.map settle).filterMap Sum.getRight? = [] ∧
      ((signatures.map settle).filterMap Sum.getLeft?).filter (fun failure => failure.missingKey?.isNone) =
        signatures.filterMap Sum.getLeft? ∧
      ((signatures.map settle).filterMap Sum.getLeft?).filterMap Failure.missingKey? =
        signatures.filterMap Sum.getRight? ∧
      ((signatures.map settle).filterMap Sum.getLeft? = [] ↔ signatures = []) := by
  induction signatures with
  | nil => exact ⟨rfl, rfl, rfl, iff_of_true rfl rfl⟩
  | cons signature rest ih =>
      obtain ⟨settled, kept, missing, _⟩ := ih fun failure member => present failure (List.mem_cons_of_mem _ member)
      cases signature with
      | inl failure =>
          have own := present failure List.mem_cons_self
          simp only [List.map_cons, settle, List.filterMap_cons, Sum.getLeft?, Sum.getRight?, List.filter_cons, own,
            settled, kept, missing, Option.isNone_none, if_true, reduceCtorEq, iff_self, and_self]
      | inr absent =>
          have own : (Failure.delegatorKeyNotInCompleteKeySet absent.hop absent.delegator).missingKey? =
            some absent := rfl
          simp only [List.map_cons, settle, List.filterMap_cons, Sum.getLeft?, Sum.getRight?, List.filter_cons, own,
            settled, kept, missing, Option.isNone_some, Bool.false_eq_true, if_false, reduceCtorEq, iff_self, and_self]

theorem Plain.settled (plain : Plain found) :
    found.filter (fun failure => failure.missingKey?.isNone) = found ∧ found.filterMap Failure.missingKey? = [] := by
  have none : ∀ failure ∈ found, failure.missingKey? = Option.none := by
    intro failure member
    have other := plain failure member
    cases failure with
    | delegatorKeyNotInCompleteKeySet => cases other
    | delegationChainRefMismatch | chainBreak | rootAnchoring | leafAnchoring | scopeMismatchAtLeaf |
      hopSignatureInvalid | scopeWidening | replayDetected => rfl
  constructor
  · exact List.filter_eq_self.mpr fun failure member => by rw [none failure member]; rfl
  · exact List.filterMap_eq_nil_iff.mpr none

theorem fail_iff {failures : List Failure} {notAssessed : List NotAssessed} :
    (Evaluation.of failures notAssessed).verdict = .fail ↔ failures ≠ [] := by
  cases failures <;> cases notAssessed <;> simp [Evaluation.of]

/-- What was found before the replay guard is settled. -/
theorem settles_of_findings {front narrowing replayed : List Failure} {signatures : List (Failure ⊕ NotAssessed)}
    (before : Plain front) (after : Plain narrowing) (guard : Plain replayed)
    (present : ∀ failure, .inl failure ∈ signatures → failure.missingKey? = none) :
    Settles (.of (front ++ signatures.filterMap Sum.getLeft? ++ narrowing ++ replayed)
      (signatures.filterMap Sum.getRight?))
      (.of (front ++ (signatures.map settle).filterMap Sum.getLeft? ++ narrowing ++ replayed)
        ((signatures.map settle).filterMap Sum.getRight?)) := by
  obtain ⟨settled, kept, missing, empty⟩ := settle_findings present
  have clear : (signatures.map settle).filterMap Sum.getLeft? = [] ↔
      signatures.filterMap Sum.getLeft? = [] ∧ signatures.filterMap Sum.getRight? = [] := empty.trans sums_nil_iff.symm
  refine ⟨?_, ?_, settled, ?_, ?_⟩
  · simp only [Evaluation.of, List.filter_append, before.settled.1, after.settled.1, guard.settled.1, kept]
  · simp only [Evaluation.of, List.filterMap_append, before.settled.2, after.settled.2, guard.settled.2, missing,
      List.nil_append, List.append_nil]
  · rw [pass_iff, pass_iff]
    simp only [List.append_eq_nil_iff, clear, settled]
    tauto
  · rw [fail_iff, ne_eq, ne_eq, pass_iff]
    simp only [List.append_eq_nil_iff, clear]
    tauto

/-- Declaring the key set complete raises what was raised, and settles what was found. -/
theorem evaluateVector_complete (verifies : Verifier) (vector : Json) (pubkeys : Pubkeys)
    (seenRegistry : Option SeenRegistry) (enforceScopeNarrowing : Bool) :
    (∃ raised, evaluateVector verifies vector pubkeys seenRegistry false enforceScopeNarrowing = .error raised ∧
      evaluateVector verifies vector pubkeys seenRegistry true enforceScopeNarrowing = .error raised) ∨
    ∃ evaluation settled after,
      evaluateVector verifies vector pubkeys seenRegistry false enforceScopeNarrowing = .ok (evaluation, after) ∧
      evaluateVector verifies vector pubkeys seenRegistry true enforceScopeNarrowing = .ok (settled, after) ∧
      Settles evaluation settled := by
  simp only [evaluateVector, findings, hopSignatures_complete]
  cases vector.item (ofString "chain_artifact") with
  | error raised => exact Or.inl ⟨raised, rfl, rfl⟩
  | ok chain =>
  simp only [bind, Except.bind]
  cases chain.item (ofString "hops") with
  | error raised => exact Or.inl ⟨raised, rfl, rfl⟩
  | ok hops =>
  simp only
  cases fronted : frontChecks vector chain hops with
  | error raised => exact Or.inl ⟨raised, rfl, rfl⟩
  | ok front =>
  simp only
  cases signed : hopSignatures verifies chain hops pubkeys false with
  | error raised => exact Or.inl ⟨raised, rfl, rfl⟩
  | ok signatures =>
  simp only [Except.map]
  cases narrowed : scopeNarrowing enforceScopeNarrowing hops with
  | error raised => exact Or.inl ⟨raised, rfl, rfl⟩
  | ok narrowing =>
  have present := missingKey_of_hopSignatures signed
  have clean : ((front ++ (signatures.map settle).filterMap Sum.getLeft? ++ narrowing).isEmpty &&
      ((signatures.map settle).filterMap Sum.getRight?).isEmpty) =
      ((front ++ signatures.filterMap Sum.getLeft? ++ narrowing).isEmpty &&
        (signatures.filterMap Sum.getRight?).isEmpty) := by
    obtain ⟨settled, _, _, empty⟩ := settle_findings present
    have clear := empty.trans sums_nil_iff.symm
    rw [Bool.eq_iff_iff]
    simp only [Bool.and_eq_true, List.isEmpty_iff, List.append_eq_nil_iff, clear, settled]
    tauto
  simp only [pure, Except.pure, clean]
  cases checked : replayCheck seenRegistry chain hops
    ((front ++ signatures.filterMap Sum.getLeft? ++ narrowing).isEmpty &&
      (signatures.filterMap Sum.getRight?).isEmpty) with
  | error raised => exact Or.inl ⟨raised, rfl, rfl⟩
  | ok result =>
  obtain ⟨replayed, after⟩ := result
  exact Or.inr ⟨_, _, after, rfl, rfl, settles_of_findings (plain_frontChecks fronted) (plain_scopeNarrowing narrowed)
    (replayCheck_clean checked true).1 present⟩

/-- What an evaluation that comes to an end is made of. -/
theorem evaluateVector_parts {seenRegistry after : Option SeenRegistry} {evaluation : Evaluation}
    (evaluated : evaluateVector verifies vector pubkeys seenRegistry keysAreComplete enforceScopeNarrowing =
      .ok (evaluation, after)) : ∃ chain hops front signatures narrowing replayed,
      vector.item (ofString "chain_artifact") = .ok chain ∧ chain.item (ofString "hops") = .ok hops ∧
      frontChecks vector chain hops = .ok front ∧
      hopSignatures verifies chain hops pubkeys keysAreComplete = .ok signatures ∧
      scopeNarrowing enforceScopeNarrowing hops = .ok narrowing ∧
      replayCheck seenRegistry chain hops ((front ++ signatures.filterMap Sum.getLeft? ++ narrowing).isEmpty &&
        (signatures.filterMap Sum.getRight?).isEmpty) = .ok (replayed, after) ∧
      evaluation = .of (front ++ signatures.filterMap Sum.getLeft? ++ narrowing ++ replayed)
        (signatures.filterMap Sum.getRight?) := by
  obtain ⟨chain, artifact, evaluated⟩ := bind_ok evaluated
  obtain ⟨hops, listed, evaluated⟩ := bind_ok evaluated
  obtain ⟨found, findings, evaluated⟩ := bind_ok evaluated
  obtain ⟨⟨replayed, registry⟩, checked, evaluated⟩ := bind_ok evaluated
  obtain ⟨front, fronted, findings⟩ := bind_ok findings
  obtain ⟨signatures, signed, findings⟩ := bind_ok findings
  obtain ⟨narrowing, narrowed, findings⟩ := bind_ok findings
  cases findings
  cases evaluated
  exact ⟨chain, hops, front, signatures, narrowing, replayed, artifact, listed, fronted, signed, narrowed, checked, rfl⟩

theorem evaluateVector_of_parts {seenRegistry after : Option SeenRegistry} {front narrowing replayed : List Failure}
    {signatures : List (Failure ⊕ NotAssessed)} {hops : Json}
    (artifact : vector.item (ofString "chain_artifact") = .ok chain) (listed : chain.item (ofString "hops") = .ok hops)
    (fronted : frontChecks vector chain hops = .ok front)
    (signed : hopSignatures verifies chain hops pubkeys keysAreComplete = .ok signatures)
    (narrowed : scopeNarrowing enforceScopeNarrowing hops = .ok narrowing)
    (checked : replayCheck seenRegistry chain hops ((front ++ signatures.filterMap Sum.getLeft? ++ narrowing).isEmpty &&
      (signatures.filterMap Sum.getRight?).isEmpty) = .ok (replayed, after)) :
    evaluateVector verifies vector pubkeys seenRegistry keysAreComplete enforceScopeNarrowing =
      .ok (.of (front ++ signatures.filterMap Sum.getLeft? ++ narrowing ++ replayed)
        (signatures.filterMap Sum.getRight?),
        after) := by
  have found : findings verifies vector chain hops pubkeys keysAreComplete enforceScopeNarrowing =
      .ok (front ++ signatures.filterMap Sum.getLeft? ++ narrowing, signatures.filterMap Sum.getRight?) :=
    bind_ok_iff.mpr ⟨front, fronted, bind_ok_iff.mpr ⟨signatures, signed,
      bind_ok_iff.mpr ⟨narrowing, narrowed, rfl⟩⟩⟩
  exact bind_ok_iff.mpr ⟨chain, artifact, bind_ok_iff.mpr ⟨hops, listed, bind_ok_iff.mpr ⟨_, found, bind_ok_iff.mpr
    ⟨(replayed, after), checked, rfl⟩⟩⟩⟩

theorem Accepted.agrees {seenRegistry : Option SeenRegistry} {hops : List Json} (agrees : Agrees pubkeys more)
    (accepted : Accepted verifies vector pubkeys seenRegistry enforceScopeNarrowing chain hops) :
    Accepted verifies vector more seenRegistry enforceScopeNarrowing chain hops := by
  refine { accepted with clean := { accepted.clean with signed := fun hop member given => ?_ } }
  obtain ⟨chainId, delegator, key, message, signature, named, read, known, rest⟩ :=
    accepted.clean.signed hop member given
  exact ⟨chainId, delegator, key, message, signature, named, read, pubkeyOf_agrees agrees known, rest⟩

/-- An invalid signature is one that a key was found for. -/
theorem key_of_hopSignatureInvalid {signatures : List (Failure ⊕ NotAssessed)} {delegator : Json} {hops : List Json}
    {hop : Json} (checked : hopSignatures verifies chain (.list hops) pubkeys keysAreComplete = .ok signatures)
    (invalid : .inl (.hopSignatureInvalid i delegator) ∈ signatures) (here : hops[i]? = some hop) :
    ∃ key, pubkeyOf pubkeys (hop.get (ofString "delegator")) = .ok (some key) := by
  obtain ⟨⟨hop', i'⟩, listed, own, checked, inside⟩ := (mem_collect_iff checked).mp invalid
  by_cases present : hop'.has (ofString "hop_signature") = true
  · rw [hopSignature, if_pos present] at checked
    obtain ⟨chainId, _, checked⟩ := bind_ok checked
    obtain ⟨signature, _, checked⟩ := bind_ok checked
    obtain ⟨answer, verified, checked⟩ := bind_ok checked
    obtain ⟨own', read, ⟨_, rfl⟩ | ⟨key, known, _⟩⟩ := verifyHopSignature_cases verified
    · cases keysAreComplete <;> cases checked <;> cases List.mem_singleton.mp inside
    · cases answer with
      | valid =>
          cases checked
          cases inside
      | invalid =>
          cases checked
          cases List.mem_singleton.mp inside
          have same := List.mem_zipIdx_iff_getElem?.mp listed
          rw [here] at same
          cases same
          obtain ⟨items, rfl, found⟩ := Json.item_ok read
          rw [Json.get, found]
          exact ⟨key, known⟩
      | keyUnresolved => cases keysAreComplete <;> cases checked <;> cases List.mem_singleton.mp inside
  · rw [hopSignature, if_neg present] at checked
    cases checked
    cases inside

end

/-- Knowing more keys only refines the verdict, and declaring them complete only settles it. -/
theorem keysRefine (verifies : Verifier) (vector : Json) (seenRegistry : Option SeenRegistry)
    (enforceScopeNarrowing : Bool) (pubkeys : Pubkeys) :
    KeysRefine verifies vector seenRegistry enforceScopeNarrowing pubkeys where
  pass more agrees evaluation after evaluated passed := by
    obtain ⟨chain, hops, accepted⟩ := accepted_iff_pass.mp ⟨evaluation, after, evaluated, passed⟩
    exact accepted_iff_pass.mpr ⟨chain, hops, accepted.agrees agrees⟩
  fail more agrees evaluation after evaluated failed := by
    obtain ⟨chain, hops, front, signatures, narrowing, replayed, artifact, listed, fronted, signed, narrowed, checked,
      rfl⟩ := evaluateVector_parts evaluated
    obtain ⟨entries, elements, collected⟩ := bind_ok signed
    obtain ⟨signatures', collected', within⟩ :=
      collect_sublist (fun entry _ _ own => hopSignature_agrees agrees own) collected
    obtain ⟨_, after', checked'⟩ := replayCheck_clean checked
      ((front ++ signatures'.filterMap Sum.getLeft? ++ narrowing).isEmpty &&
        (signatures'.filterMap Sum.getRight?).isEmpty)
    have kept := ((List.Sublist.refl front).append within).append (List.Sublist.refl narrowing) |>.append
      (List.Sublist.refl replayed)
    refine ⟨_, after', evaluateVector_of_parts artifact listed fronted (bind_ok_iff.mpr ⟨entries, elements, collected'⟩)
      narrowed checked', ?_, ?_⟩
    · rw [fail_iff] at failed ⊢
      exact fun none => failed (List.sublist_nil.mp (none ▸ kept))
    · exact kept
  unresolved keysAreComplete evaluation after chain hops i hop evaluated artifact listed here unknown delegator := by
    intro invalid
    obtain ⟨chain', hops', front, signatures, narrowing, replayed, artifact', listed', fronted, signed, narrowed,
      checked,
      rfl⟩ := evaluateVector_parts evaluated
    cases artifact.symm.trans artifact'
    cases listed.symm.trans listed'
    have plain {found : List Failure} (none : Plain found) : Failure.hopSignatureInvalid i delegator ∉ found := by
      intro member
      cases none _ member
    have signature : .hopSignatureInvalid i delegator ∈ signatures.filterMap Sum.getLeft? := by
      simp only [Evaluation.of, List.mem_append, plain (plain_frontChecks fronted),
        plain (plain_scopeNarrowing narrowed),
        plain (replayCheck_clean checked true).1, or_false, false_or] at invalid
      exact invalid
    obtain ⟨own, member, same⟩ := List.mem_filterMap.mp signature
    rw [Sum.getLeft?_eq_some_iff] at same
    rw [same] at member
    obtain ⟨key, known⟩ := key_of_hopSignatureInvalid signed member here
    rw [unknown] at known
    cases known
  raises raised := by
    rcases evaluateVector_complete verifies vector pubkeys seenRegistry enforceScopeNarrowing with
      ⟨raised', incomplete, complete⟩ | ⟨evaluation, settled, after, incomplete, complete, _⟩
    · rw [incomplete, complete]
    · rw [incomplete, complete]
      exact iff_of_false (fun raises => by cases raises) fun raises => by cases raises
  settles evaluation after evaluated := by
    rcases evaluateVector_complete verifies vector pubkeys seenRegistry enforceScopeNarrowing with
      ⟨raised', incomplete, complete⟩ | ⟨evaluation', settled, after', incomplete, complete, settles⟩
    · rw [evaluated] at incomplete
      cases incomplete
    · rw [evaluated] at incomplete
      cases incomplete
      exact ⟨settled, complete, settles⟩

end Argentum.Delegation
