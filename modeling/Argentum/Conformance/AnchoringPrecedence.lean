import Argentum.Conformance.References

/-! The verifier of anchoring precedence. Five invariants are checked one after the other on
a vector whose fields may be absent, null or of any kind, and the vector conforms where no
check found anything against it. A check that finds nothing to compare finds nothing against
the vector either. -/
namespace Argentum.AnchoringPrecedence
open Text Delegation References

namespace Key

def envelope : Str := ofString "envelope"
def anchoringPrecedenceRef : Str := ofString "anchoring_precedence_ref"
def admissionHash : Str := ofString "admission_hash"
def anchorBlockTime : Str := ofString "anchor_block_time"
def outcomeTsMs : Str := ofString "outcome_ts_ms"
def checks : Str := ofString "checks"
def chainInvariant : Str := ofString "chain_invariant"

end Key

/-- `value * 1000`: a number, or a sequence a thousand times over. -/
inductive Product where
  | number (value : Option Number)
  | str (s : Str)
  | list (items : List Json)

/-- The product of a double is a double, and one past the largest is infinite. -/
def timesThousand : Json → Except PyError Product
  | .bool b => .ok (.number (some (.ofRat (if b then 1000 else 0))))
  | .int n => .ok (.number (some (.ofRat (1000 * n))))
  | .float (.finite negative text) =>
      let product := nearestDouble (1000 * nearestDouble text.decimal)
      .ok (.number (if 2 ^ 1024 ≤ product then (Float64.inf negative).number?
        else some (.ofRat (if negative then -product else product))))
  | .float x => .ok (.number x.number?)
  | .str s => .ok (.str (List.replicate 1000 s).flatten)
  | .list items => .ok (.list (List.replicate 1000 items).flatten)
  | .null | .dict _ => .error .typeError

def Product.order : Product → Json → Except PyError (Option Ordering)
  | .number value, other => Json.orderNumber value other
  | .str s, other => Json.order (.str s) other
  | .list items, other => Json.order (.list items) other

/-- A failure, with the values its message shows. -/
inductive Failure where
  | canonicalEnvelope (computed : Str) (declared : Json)
  | admissionAbsent
  | admissionInvariant (admission : Json) (canonicalEnvelopeHash : Str)
  | anchoringExistence
  | anchoringPrecedence (anchorMs : Product) (outcomeTsMs : Json)
  | chainInvariant

def canonicalEnvelope (vector : Json) (computedRef : Str) : Except PyError (List Failure) :=
  refFailures vector Key.anchoringPrecedenceRef computedRef (.canonicalEnvelope computedRef)

/-- The message cuts the hash that is there, which only a sequence allows. -/
def admissionInvariant (vector : Json) (computedRef : Str) : Except PyError (List Failure) :=
  if vector.has Key.admissionHash then
    let admission := vector.get Key.admissionHash
    if admission.eq (.str computedRef) then .ok []
    else do return [.admissionInvariant (← admission.leading 16) (computedRef.take 16)]
  else .ok [.admissionAbsent]

def anchoringExistence (anchorBlockTime : Json) : List Failure :=
  if anchorBlockTime.isNull then [.anchoringExistence] else []

def anchoringPrecedence (anchorBlockTime outcomeTsMs : Json) : Except PyError (List Failure) :=
  if anchorBlockTime.isNull || outcomeTsMs.isNull then .ok []
  else do
    let anchorMs ← timesThousand anchorBlockTime
    let found ← anchorMs.order outcomeTsMs
    return if Json.AtLeast found then [.anchoringPrecedence anchorMs outcomeTsMs] else []

def chainInvariant (vector : Json) : Except PyError (List Failure) := do
  let checks ← vector.fetchD Key.checks (.dict [])
  match ← checks.fetch Key.chainInvariant with
  | .bool false => return [.chainInvariant]
  | _ => return []

def verifyVector (vector : Json) : Except PyError (Bool × List Failure) := do
  let envelope ← vector.item Key.envelope
  let computedRef ← sha256hex (jcs envelope)
  let canonical ← canonicalEnvelope vector computedRef
  let admission ← admissionInvariant vector computedRef
  let anchorBlockTime ← envelope.fetch Key.anchorBlockTime
  let outcomeTsMs ← envelope.fetch Key.outcomeTsMs
  let precedence ← anchoringPrecedence anchorBlockTime outcomeTsMs
  let chain ← chainInvariant vector
  let failures := canonical ++ admission ++ anchoringExistence anchorBlockTime ++ precedence ++ chain
  return (failures.isEmpty, failures)

/-- How `anchor_block_time * 1000` compares with `outcome_ts_ms`. -/
def precedence (envelope : Json) : Except PyError (Option Ordering) := do
  let anchorMs ← timesThousand (envelope.get Key.anchorBlockTime)
  anchorMs.order (envelope.get Key.outcomeTsMs)

abbrev Accepted (vector : Json) : Prop := Passes (verifyVector vector)

/-- The two declared hashes are the hash of the envelope. -/
def Hashed (vector : Json) : Prop := ∃ ref, sha256hex (jcs (vector.get Key.envelope)) = .ok ref ∧
  vector.get Key.anchoringPrecedenceRef = .str ref ∧ vector.get Key.admissionHash = .str ref

/-- The five invariants, each of them positively. -/
structure Invariants (vector : Json) : Prop where
  hashed : Hashed vector
  existence : (vector.get Key.envelope).get Key.anchorBlockTime ≠ .null
  outcome : (vector.get Key.envelope).get Key.outcomeTsMs ≠ .null
  precedence : ∃ found, precedence (vector.get Key.envelope) = .ok found ∧ Json.Less found
  chain : (vector.get Key.checks).get Key.chainInvariant = .bool true

/-- What the verifier asks of a vector. -/
structure Admissible (vector : Json) : Prop where
  hashed : Hashed vector
  existence : (vector.get Key.envelope).get Key.anchorBlockTime ≠ .null
  precedence : (vector.get Key.envelope).get Key.outcomeTsMs = .null ∨
    ∃ found, precedence (vector.get Key.envelope) = .ok found ∧ ¬ Json.AtLeast found
  checks : (vector.getD Key.checks (.dict [])).isDict = true
  chain : (vector.getD Key.checks (.dict [])).get Key.chainInvariant ≠ .bool false

section
variable {vector envelope : Json} {ref : Str}

theorem admissionInvariant_nil_iff (object : vector.isDict = true) :
    admissionInvariant vector ref = .ok [] ↔ vector.get Key.admissionHash = .str ref := by
  obtain ⟨items, rfl⟩ := Json.isDict_iff.mp object
  unfold admissionInvariant
  split
  · dsimp only
    rw [← Json.eq_str]
    split
    · rename_i same
      exact iff_of_true rfl same
    · rename_i apart
      refine iff_of_false (fun clean => ?_) apart
      obtain ⟨shown, _, found⟩ := bind_ok clean
      cases found
  · rename_i absent
    exact iff_of_false (fun clean => by cases clean) fun declared =>
      absent (Json.has_of_get (Json.ne_null_of_eq declared rfl))

theorem anchoringPrecedence_nil_iff (existence : envelope.get Key.anchorBlockTime ≠ .null) :
    anchoringPrecedence (envelope.get Key.anchorBlockTime) (envelope.get Key.outcomeTsMs) = .ok [] ↔
      envelope.get Key.outcomeTsMs = .null ∨ ∃ found, precedence envelope = .ok found ∧ ¬ Json.AtLeast found := by
  rw [anchoringPrecedence, Json.isNull_false_iff.mpr existence, Bool.false_or, ← Json.isNull_iff]
  cases absent : (envelope.get Key.outcomeTsMs).isNull with
  | true => exact iff_of_true rfl (Or.inl rfl)
  | false =>
      rw [if_neg (by decide), or_iff_right (by decide)]
      constructor
      · intro clean
        obtain ⟨anchorMs, made, clean⟩ := bind_ok clean
        obtain ⟨found, compared, clean⟩ := bind_ok clean
        refine ⟨found, bind_ok_iff.mpr ⟨anchorMs, made, compared⟩, fun atLeast => ?_⟩
        rw [if_pos atLeast] at clean
        cases clean
      · rintro ⟨found, compared, less⟩
        obtain ⟨anchorMs, made, compared⟩ := bind_ok compared
        exact bind_ok_iff.mpr ⟨anchorMs, made, bind_ok_iff.mpr ⟨found, compared, by rw [if_neg less]; rfl⟩⟩

theorem chainInvariant_nil_iff (object : vector.isDict = true) : chainInvariant vector = .ok [] ↔
    (vector.getD Key.checks (.dict [])).isDict = true ∧
      (vector.getD Key.checks (.dict [])).get Key.chainInvariant ≠ .bool false := by
  have read := Json.fetchD_of_isDict object Key.checks (.dict [])
  constructor
  · intro clean
    obtain ⟨checks, there, clean⟩ := bind_ok clean
    obtain rfl := Except.ok.inj (there.symm.trans read)
    obtain ⟨declared, field, clean⟩ := bind_ok clean
    obtain ⟨inside, rfl⟩ := Json.fetch_ok_iff.mp field
    refine ⟨inside, fun refused => ?_⟩
    rw [refused] at clean
    cases clean
  · rintro ⟨inside, declared⟩
    refine bind_ok_iff.mpr ⟨_, read, bind_ok_iff.mpr ⟨_, Json.fetch_of_isDict inside _, ?_⟩⟩
    split
    · rename_i refused
      exact absurd refused declared
    · rfl

/-- The verifier accepts a vector of which every check ends without a failure. -/
theorem accepted_checks : Accepted vector ↔ ∃ ref, vector.item Key.envelope = .ok (vector.get Key.envelope) ∧
    sha256hex (jcs (vector.get Key.envelope)) = .ok ref ∧ canonicalEnvelope vector ref = .ok [] ∧
    admissionInvariant vector ref = .ok [] ∧ (vector.get Key.envelope).isDict = true ∧
    anchoringExistence ((vector.get Key.envelope).get Key.anchorBlockTime) = [] ∧
    anchoringPrecedence ((vector.get Key.envelope).get Key.anchorBlockTime)
      ((vector.get Key.envelope).get Key.outcomeTsMs) = .ok [] ∧
    chainInvariant vector = .ok [] := by
  constructor
  · rintro ⟨failures, verified⟩
    obtain ⟨envelope, found, verified⟩ := bind_ok verified
    obtain ⟨ref, hashed, verified⟩ := bind_ok verified
    obtain ⟨canonical, declared, verified⟩ := bind_ok verified
    obtain ⟨admission, admitted, verified⟩ := bind_ok verified
    obtain ⟨anchorBlockTime, anchored, verified⟩ := bind_ok verified
    obtain ⟨outcomeTsMs, outcome, verified⟩ := bind_ok verified
    obtain ⟨precedes, compared, verified⟩ := bind_ok verified
    obtain ⟨chain, linked, verified⟩ := bind_ok verified
    obtain ⟨clean, _⟩ := Prod.mk.inj (Except.ok.inj verified)
    obtain rfl := Json.get_of_item found
    obtain ⟨object, rfl⟩ := Json.fetch_ok_iff.mp anchored
    obtain ⟨_, rfl⟩ := Json.fetch_ok_iff.mp outcome
    simp only [List.isEmpty_iff, List.append_eq_nil_iff] at clean
    obtain ⟨⟨⟨⟨rfl, rfl⟩, existence⟩, rfl⟩, rfl⟩ := clean
    exact ⟨ref, found, hashed, declared, admitted, object, existence, compared, linked⟩
  · rintro ⟨ref, found, hashed, declared, admitted, object, existence, compared, linked⟩
    have read := Json.fetch_of_isDict object
    refine ⟨[], ?_⟩
    simp only [verifyVector, found, hashed, declared, admitted, read, existence, compared, linked, bind, Except.bind]
    rfl

/-- The verifier accepts what is admissible, and nothing else. -/
theorem accepted_iff (vector : Json) : Accepted vector ↔ Admissible vector := by
  rw [accepted_checks]
  constructor
  · rintro ⟨ref, found, hashed, declared, admitted, object, existence, compared, linked⟩
    obtain ⟨items, rfl, _⟩ := Json.item_ok found
    have anchored : (Json.get (.dict items) Key.envelope).get Key.anchorBlockTime ≠ .null := by
      intro absent
      rw [absent] at existence
      cases existence
    obtain ⟨checks, chain⟩ := (chainInvariant_nil_iff rfl).mp linked
    exact ⟨⟨ref, hashed, (refFailures_nil_iff hashed).mp declared, (admissionInvariant_nil_iff rfl).mp admitted⟩,
      anchored, (anchoringPrecedence_nil_iff anchored).mp compared, checks, chain⟩
  · rintro ⟨⟨ref, hashed, declared, admitted⟩, anchored, precedes, checks, chain⟩
    have object := Json.isDict_of_get anchored
    have whole := Json.isDict_of_get (Json.ne_null_of_isDict object)
    have existence : anchoringExistence ((vector.get Key.envelope).get Key.anchorBlockTime) = [] :=
      if_neg (Json.isNull_iff.not.mpr anchored)
    exact ⟨ref, Json.item_of_isDict object, hashed, (refFailures_nil_iff hashed).mpr declared,
      (admissionInvariant_nil_iff whole).mpr admitted, object, existence,
      (anchoringPrecedence_nil_iff anchored).mpr precedes, (chainInvariant_nil_iff whole).mpr ⟨checks, chain⟩⟩

end

/-- Nothing is skipped: there is an outcome to compare with, the chain invariant is declared
one way or the other, and no NaN decides the comparison. -/
structure Unskipped (vector : Json) : Prop where
  outcome : (vector.get Key.envelope).get Key.outcomeTsMs ≠ .null
  chain : ∃ declared, (vector.get Key.checks).get Key.chainInvariant = .bool declared
  ordered : precedence (vector.get Key.envelope) ≠ .ok none

/-- Acceptance shows all five invariants iff nothing that is admissible is skipped. -/
theorem acceptedInvariants_iff (vector : Json) :
    (Accepted vector → Invariants vector) ↔ (Admissible vector → Unskipped vector) := by
  rw [accepted_iff]
  refine forall_congr' fun admissible => ?_
  obtain ⟨hashed, existence, precedes, checks, chain⟩ := admissible
  constructor
  · rintro ⟨_, _, outcome, ⟨found, compared, less⟩, declared⟩
    refine ⟨outcome, ⟨true, declared⟩, fun unordered => ?_⟩
    obtain rfl := Except.ok.inj (compared.symm.trans unordered)
    cases less
  · rintro ⟨outcome, ⟨declared, there⟩, ordered⟩
    obtain ⟨found, compared, less⟩ := precedes.resolve_left outcome
    refine ⟨hashed, existence, outcome, ⟨found, compared, ?_⟩, ?_⟩
    · refine (Json.not_atLeast_iff.mp less).resolve_left ?_
      rintro rfl
      exact ordered compared
    · -- a field of `checks` is there, so the default is not used
      have present := Json.ne_null_of_isDict (Json.isDict_of_get (Json.ne_null_of_eq there rfl))
      rw [Json.getD_eq_get present, there] at chain
      cases declared with
      | false => exact absurd rfl chain
      | true => exact there

/-- A vector over an envelope with the hash given twice, and what it declares of the chain. -/
def vectorOf (envelope : Json) (ref : String) (checks : List (Str × Json)) : Json := .dict [(Key.envelope, envelope),
  (Key.anchoringPrecedenceRef, .str (ofString ref)), (Key.admissionHash, .str (ofString ref)),
  (Key.checks, .dict checks)]

/-- No outcome is there to be preceded. -/
def withoutOutcome : Json := vectorOf (.dict [(Key.anchorBlockTime, .int 1)])
  "e630e7dbce4f0566adba4a4b393ff59fbdc6b55c24b823090b64c703f7744464" [(Key.chainInvariant, .bool true)]

/-- Nothing is declared of the chain. -/
def withoutChain : Json := vectorOf (.dict [(Key.anchorBlockTime, .int 1), (Key.outcomeTsMs, .int 2000)])
  "215e38437c1807c473dc9fbc8c2ca050368032cb51302dfcbf26ceac3eedad20" []

theorem not_acceptedInvariants : ¬ (Accepted withoutOutcome → Invariants withoutOutcome) ∧
    ¬ (Accepted withoutChain → Invariants withoutChain) := by
  refine ⟨fun holds => (holds (by decide +kernel)).outcome rfl, fun holds => ?_⟩
  have declared := (holds (by decide +kernel)).chain
  cases declared

end Argentum.AnchoringPrecedence
