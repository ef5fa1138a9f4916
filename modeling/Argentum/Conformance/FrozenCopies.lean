import Argentum.Conformance.KeySets

/-! Two earlier copies of the verifier that were kept with their fixtures. One checks the
narrowing before the signatures and holds a signature without a key to be invalid, the other
knows no signatures. What they share with the reference is the same text and is not modelled
again. -/
namespace Argentum.Delegation
open Text Dumps Sha256

/-- `verify_vector` of the reference: whether the vector conforms, the messages, and the
registry that is left. -/
def verifyVector (verifies : Verifier) (vector : Json) (pubkeys : Pubkeys) (seenRegistry : Option SeenRegistry)
    (keysAreComplete enforceScopeNarrowing : Bool) :
    Except PyError ((Bool × List (Failure ⊕ NotAssessed)) × Option SeenRegistry) := do
  let (evaluation, registry) ← evaluateVector verifies vector pubkeys seenRegistry keysAreComplete enforceScopeNarrowing
  return ((evaluation.verdict = .pass, evaluation.failures.map .inl ++ evaluation.notAssessed.map .inr), registry)

namespace RevokedAncestor

/-- The copy's `verify_hop_signature`: a delegator without a key is a signature that is not valid. -/
def verifyHopSignature (verifies : Verifier) (chainId hop hopSignature : Json) (pubkeys : Pubkeys) :
    Except PyError Bool := do
  match ← pubkeyOf pubkeys (← hop.item (ofString "delegator")) with
  | none => return false
  | some key =>
      match hopMessage chainId hop with
      | .ok message => return verifies key message hopSignature
      | .error .valueError => return false
      | .error .typeError => return false
      | .error .keyError => return false
      | .error raised => .error raised

def hopSignature (verifies : Verifier) (chain : Json) (pubkeys : Pubkeys) : Json × Nat → Except PyError (List Failure)
  | (hop, i) => do
      if hop.has (ofString "hop_signature") then
        let chainId ← chain.item (ofString "chain_id")
        let signature ← hop.item (ofString "hop_signature")
        let ok ← verifyHopSignature verifies chainId hop signature pubkeys
        return if ok then [] else [.hopSignatureInvalid i (hop.get (ofString "delegator"))]
      else return []

def hopSignatures (verifies : Verifier) (chain hops : Json) (pubkeys : Pubkeys) : Except PyError (List Failure) := do
  collect (hopSignature verifies chain pubkeys) (← hops.elements).zipIdx

/-- `verify_vector` of the copy, and the registry it leaves. -/
def verifyVector (verifies : Verifier) (vector : Json) (pubkeys : Pubkeys) (seenRegistry : Option SeenRegistry) :
    Except PyError ((Bool × List Failure) × Option SeenRegistry) := do
  let chain ← vector.item (ofString "chain_artifact")
  let hops ← chain.item (ofString "hops")
  let front ← frontChecks vector chain hops
  let narrowing ← scopeNarrowing true hops
  let signatures ← hopSignatures verifies chain hops pubkeys
  let failures := front ++ narrowing ++ signatures
  let (replayed, registry) ← replayCheck seenRegistry chain hops failures.isEmpty
  return (((failures ++ replayed).isEmpty, failures ++ replayed), registry)

end RevokedAncestor

namespace LeafScreenHalt

/-- `verify_vector` of the copy. -/
def verifyVector (vector : Json) : Except PyError (Bool × List Failure) := do
  let chain ← vector.item (ofString "chain_artifact")
  let hops ← chain.item (ofString "hops")
  let front ← frontChecks vector chain hops
  let narrowing ← scopeNarrowing true hops
  return ((front ++ narrowing).isEmpty, front ++ narrowing)

end LeafScreenHalt

/-- A verification comes to an end and finds nothing. -/
def Conforming {α : Type} (result : Except PyError ((Bool × α) × Option SeenRegistry)) : Prop :=
  ∃ found after, result = .ok ((true, found), after)

/-- The registry after a verification. What raises has not recorded anything. -/
def registryAfter {α : Type} (seenRegistry : Option SeenRegistry) (result : Except PyError (α × Option SeenRegistry)) :
    Option SeenRegistry :=
  match result with
  | .ok (_, after) => after
  | .error _ => seenRegistry

/-- No hop of the vector has a signature. -/
def Unsigned (vector : Json) : Prop :=
  ∀ chain hops, vector.item (ofString "chain_artifact") = .ok chain → chain.item (ofString "hops") = .ok (.list hops) →
    ∀ hop ∈ hops, hop.has (ofString "hop_signature") = false

/-- The copies agree with the reference where it enforces narrowing. -/
structure CopiesAgree (verifies : Verifier) (vector : Json) (pubkeys : Pubkeys) (seenRegistry : Option SeenRegistry)
    (keysAreComplete : Bool) : Prop where
  conforms : Conforming (RevokedAncestor.verifyVector verifies vector pubkeys seenRegistry) ↔
    Conforming (verifyVector verifies vector pubkeys seenRegistry keysAreComplete true)
  registry : registryAfter seenRegistry (RevokedAncestor.verifyVector verifies vector pubkeys seenRegistry) =
    registryAfter seenRegistry (verifyVector verifies vector pubkeys seenRegistry keysAreComplete true)
  leaf : Unsigned vector → (verifyVector verifies vector pubkeys none keysAreComplete true).map Prod.fst =
    (LeafScreenHalt.verifyVector vector).map fun answer => (answer.1, answer.2.map .inl)

section
variable {verifies : Verifier} {vector chain value : Json} {pubkeys : Pubkeys} {hops : List Json}
  {seenRegistry after : Option SeenRegistry} {keysAreComplete : Bool} {i : Nat}

/-- The copy says of a signature whether the reference says it is valid. -/
theorem RevokedAncestor.verifyHopSignature_eq (chainId hop signature : Json) :
    RevokedAncestor.verifyHopSignature verifies chainId hop signature pubkeys =
      (Delegation.verifyHopSignature verifies chainId hop signature pubkeys).map fun answer =>
        decide (answer = .valid) := by
  simp only [RevokedAncestor.verifyHopSignature, Delegation.verifyHopSignature]
  cases hop.item (ofString "delegator") with
  | error raised => rfl
  | ok delegator =>
      simp only [bind, Except.bind]
      cases pubkeyOf pubkeys delegator with
      | error raised => rfl
      | ok found =>
          cases found with
          | none => rfl
          | some key =>
              cases made : hopMessage chainId hop with
              | ok message =>
                  dsimp only
                  cases verifies key message signature <;> rfl
              | error raised => rcases hopMessage_raises made with rfl | rfl | rfl <;> rfl

/-- What the copy reports of a signature: one that was not checked is invalid. -/
def collapse : Failure ⊕ NotAssessed → Failure
  | .inl failure => failure
  | .inr absent => .hopSignatureInvalid absent.hop absent.delegator

theorem RevokedAncestor.hopSignature_eq (entry : Json × Nat) :
    RevokedAncestor.hopSignature verifies chain pubkeys entry =
    (Delegation.hopSignature verifies chain pubkeys false entry).map (List.map collapse) := by
  obtain ⟨hop, i⟩ := entry
  by_cases present : hop.has (ofString "hop_signature") = true
  · simp only [RevokedAncestor.hopSignature, Delegation.hopSignature, if_pos present,
      RevokedAncestor.verifyHopSignature_eq]
    cases chain.item (ofString "chain_id") with
    | error raised => rfl
    | ok chainId =>
        cases hop.item (ofString "hop_signature") with
        | error raised => rfl
        | ok signature =>
            simp only [bind, Except.bind]
            cases Delegation.verifyHopSignature verifies chainId hop signature pubkeys with
            | error raised => rfl
            | ok answer =>
                cases answer with
                | valid => rfl
                | invalid => rfl
                | keyUnresolved => rfl
  · rw [RevokedAncestor.hopSignature, Delegation.hopSignature, if_neg present, if_neg present]
    rfl

theorem RevokedAncestor.hopSignatures_eq : RevokedAncestor.hopSignatures verifies chain value pubkeys =
    (Delegation.hopSignatures verifies chain value pubkeys false).map (List.map collapse) := by
  rw [RevokedAncestor.hopSignatures, Delegation.hopSignatures]
  cases value.elements with
  | error raised => rfl
  | ok hops => exact collect_map RevokedAncestor.hopSignature_eq hops.zipIdx

theorem clean_collapse {front narrowing : List Failure} {signatures : List (Failure ⊕ NotAssessed)} :
    (front ++ narrowing ++ signatures.map collapse).isEmpty =
      ((front ++ signatures.filterMap Sum.getLeft? ++ narrowing).isEmpty &&
        (signatures.filterMap Sum.getRight?).isEmpty) := by
  rw [Bool.eq_iff_iff]
  simp only [Bool.and_eq_true, List.isEmpty_iff, List.append_eq_nil_iff, List.map_eq_nil_iff,
    ← @sums_nil_iff _ _ signatures]
  tauto

/-- The copy and the reference raise on the same vectors, and else leave the same registry
and pass the same vectors. -/
theorem RevokedAncestor.verifyVector_cases (verifies : Verifier) (vector : Json) (pubkeys : Pubkeys)
    (seenRegistry : Option SeenRegistry) :
    (∃ raised raised', RevokedAncestor.verifyVector verifies vector pubkeys seenRegistry = .error raised ∧
      evaluateVector verifies vector pubkeys seenRegistry false true = .error raised') ∨
    ∃ found evaluation after,
      RevokedAncestor.verifyVector verifies vector pubkeys seenRegistry = .ok ((found.isEmpty, found), after) ∧
      evaluateVector verifies vector pubkeys seenRegistry false true = .ok (evaluation, after) ∧
      (found = [] ↔ evaluation.verdict = .pass) := by
  simp only [RevokedAncestor.verifyVector, evaluateVector, findings, RevokedAncestor.hopSignatures_eq]
  cases vector.item (ofString "chain_artifact") with
  | error raised => exact Or.inl ⟨raised, raised, rfl, rfl⟩
  | ok chain =>
  simp only [bind, Except.bind]
  cases chain.item (ofString "hops") with
  | error raised => exact Or.inl ⟨raised, raised, rfl, rfl⟩
  | ok hops =>
  simp only
  cases frontChecks vector chain hops with
  | error raised => exact Or.inl ⟨raised, raised, rfl, rfl⟩
  | ok front =>
  simp only
  -- the copy looks at the scopes first, the reference at the signatures
  cases scopeNarrowing true hops with
  | error raised =>
      cases Delegation.hopSignatures verifies chain hops pubkeys false with
      | error raised' => exact Or.inl ⟨raised, raised', rfl, rfl⟩
      | ok signatures => exact Or.inl ⟨raised, raised, rfl, rfl⟩
  | ok narrowing =>
  cases Delegation.hopSignatures verifies chain hops pubkeys false with
  | error raised => exact Or.inl ⟨raised, raised, rfl, rfl⟩
  | ok signatures =>
  simp only [Except.map, pure, Except.pure, clean_collapse]
  cases replayCheck seenRegistry chain hops ((front ++ signatures.filterMap Sum.getLeft? ++ narrowing).isEmpty &&
      (signatures.filterMap Sum.getRight?).isEmpty) with
  | error raised => exact Or.inl ⟨raised, raised, rfl, rfl⟩
  | ok result =>
  obtain ⟨replayed, after⟩ := result
  refine Or.inr ⟨_, _, after, rfl, rfl, ?_⟩
  rw [pass_iff]
  simp only [List.append_eq_nil_iff, List.map_eq_nil_iff, ← @sums_nil_iff _ _ signatures]
  tauto

/-- Whether the key set is complete changes neither what passes nor the registry. -/
theorem evaluateVector_either (verifies : Verifier) (vector : Json) (pubkeys : Pubkeys)
    (seenRegistry : Option SeenRegistry) (keysAreComplete enforceScopeNarrowing : Bool) :
    (∃ raised, evaluateVector verifies vector pubkeys seenRegistry false enforceScopeNarrowing = .error raised ∧
      evaluateVector verifies vector pubkeys seenRegistry keysAreComplete enforceScopeNarrowing = .error raised) ∨
    ∃ evaluation settled after,
      evaluateVector verifies vector pubkeys seenRegistry false enforceScopeNarrowing = .ok (evaluation, after) ∧
      evaluateVector verifies vector pubkeys seenRegistry keysAreComplete enforceScopeNarrowing = .ok (settled, after) ∧
      (settled.verdict = .pass ↔ evaluation.verdict = .pass) := by
  cases keysAreComplete with
  | true =>
      refine (evaluateVector_complete verifies vector pubkeys seenRegistry enforceScopeNarrowing).imp_right ?_
      rintro ⟨evaluation, settled, after, incomplete, complete, settles⟩
      exact ⟨evaluation, settled, after, incomplete, complete, settles.pass⟩
  | false =>
      cases evaluateVector verifies vector pubkeys seenRegistry false enforceScopeNarrowing with
      | error raised => exact Or.inl ⟨raised, rfl, rfl⟩
      | ok result => exact Or.inr ⟨result.1, result.1, result.2, rfl, rfl, Iff.rfl⟩

theorem verifyVector_of_raised {enforceScopeNarrowing : Bool} {raised : PyError}
    (raises : evaluateVector verifies vector pubkeys seenRegistry keysAreComplete enforceScopeNarrowing =
      .error raised) :
    verifyVector verifies vector pubkeys seenRegistry keysAreComplete enforceScopeNarrowing = .error raised := by
  rw [verifyVector, raises]
  rfl

theorem verifyVector_of_evaluated {enforceScopeNarrowing : Bool} {evaluation : Evaluation}
    (evaluated : evaluateVector verifies vector pubkeys seenRegistry keysAreComplete enforceScopeNarrowing =
      .ok (evaluation, after)) :
    verifyVector verifies vector pubkeys seenRegistry keysAreComplete enforceScopeNarrowing =
      .ok ((evaluation.verdict = .pass, evaluation.failures.map .inl ++ evaluation.notAssessed.map .inr), after) := by
  rw [verifyVector, evaluated]
  rfl

theorem conforming_ok_iff {α : Type} {ok : Bool} {found : α} :
    Conforming (.ok ((ok, found), after)) ↔ ok = true := by
  constructor
  · rintro ⟨_, _, same⟩
    cases same
    rfl
  · rintro rfl
    exact ⟨found, after, rfl⟩

/-- Hops without a signature are passed over. -/
theorem hopSignatures_of_unsigned (unsigned : ∀ hop ∈ hops, hop.has (ofString "hop_signature") = false) :
    hopSignatures verifies chain (.list hops) pubkeys keysAreComplete = .ok [] := by
  refine hopSignatures_nil_iff.mpr fun hop member present => ?_
  rw [unsigned hop member] at present
  cases present

/-- The copy that knows no signatures is the reference on vectors without them. -/
theorem LeafScreenHalt.verifyVector_eq (unsigned : Unsigned vector) :
    (Delegation.verifyVector verifies vector pubkeys none keysAreComplete true).map Prod.fst =
      (LeafScreenHalt.verifyVector vector).map fun answer => (answer.1, answer.2.map .inl) := by
  simp only [LeafScreenHalt.verifyVector, Delegation.verifyVector, evaluateVector, findings]
  cases artifact : vector.item (ofString "chain_artifact") with
  | error raised => rfl
  | ok chain =>
  simp only [bind, Except.bind]
  cases listed : chain.item (ofString "hops") with
  | error raised => rfl
  | ok value =>
  simp only
  cases fronted : frontChecks vector chain value with
  | error raised => rfl
  | ok front =>
  obtain ⟨hops, rfl⟩ := list_of_frontChecks fronted
  simp only [hopSignatures_of_unsigned (unsigned chain hops artifact listed)]
  cases scopeNarrowing true (.list hops) with
  | error raised => rfl
  | ok narrowing =>
  have passes : decide ((Evaluation.of (front ++ narrowing) []).verdict = .pass) = (front ++ narrowing).isEmpty := by
    cases front ++ narrowing <;> rfl
  simp only [replayCheck, pure, Except.pure, Except.map, List.filterMap_nil, List.append_nil, passes]
  rw [Evaluation.of, List.map_nil, List.append_nil]

end

/-- The frozen copies agree with the reference. -/
theorem copiesAgree (verifies : Verifier) (vector : Json) (pubkeys : Pubkeys) (seenRegistry : Option SeenRegistry)
    (keysAreComplete : Bool) : CopiesAgree verifies vector pubkeys seenRegistry keysAreComplete := by
  have leaf : Unsigned vector → (verifyVector verifies vector pubkeys none keysAreComplete true).map Prod.fst =
      (LeafScreenHalt.verifyVector vector).map fun answer => (answer.1, answer.2.map .inl) :=
    LeafScreenHalt.verifyVector_eq
  rcases RevokedAncestor.verifyVector_cases verifies vector pubkeys seenRegistry with
    ⟨raised, raised', copied, incomplete⟩ | ⟨found, evaluation, after, copied, incomplete, clean⟩
  · rcases evaluateVector_either verifies vector pubkeys seenRegistry keysAreComplete true with
      ⟨_, _, raises⟩ | ⟨_, _, _, evaluated, _⟩
    · refine ⟨?_, ?_, leaf⟩
      · rw [copied, verifyVector_of_raised raises]
        exact iff_of_false (fun ⟨_, _, same⟩ => by cases same) fun ⟨_, _, same⟩ => by cases same
      · rw [copied, verifyVector_of_raised raises]
        rfl
    · rw [incomplete] at evaluated
      cases evaluated
  · rcases evaluateVector_either verifies vector pubkeys seenRegistry keysAreComplete true with
      ⟨_, raises, _⟩ | ⟨evaluation', settled, after', evaluated, complete, pass⟩
    · rw [incomplete] at raises
      cases raises
    · rw [incomplete] at evaluated
      cases evaluated
      refine ⟨?_, ?_, leaf⟩
      · rw [copied, verifyVector_of_evaluated complete, conforming_ok_iff, conforming_ok_iff, List.isEmpty_iff, clean,
          decide_eq_true_eq, pass]
      · rw [copied, verifyVector_of_evaluated complete]
        rfl

end Argentum.Delegation
