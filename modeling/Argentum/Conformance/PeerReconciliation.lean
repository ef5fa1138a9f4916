import Argentum.Conformance.References
import Argentum.Trail.Equality

/-! The verifier of peer reconciliations. Each of the two parties is checked by itself: what it
observed, its co-signer, the declared validity of its signature and the fields the signature
covers. The comparator relates the two only where both are ready. Nothing in the checks or in
the comparator depends on which of the two is named first. -/
namespace Argentum.PeerReconciliation
open Text Delegation References

namespace Key

def envelope : Str := ofString "envelope"
def peerReconciliationRef : Str := ofString "peer_reconciliation_ref"
def partyA : Str := ofString "party_a"
def partyB : Str := ofString "party_b"
def partyId : Str := ofString "party_id"
def observed : Str := ofString "observed"
def actionRef : Str := ofString "action_ref"
def coSigner : Str := ofString "co_signer"
def signedFields : Str := ofString "signed_fields"
def interactionId : Str := ofString "interaction_id"
def checks : Str := ofString "checks"
def structuralValidity : Str := ofString "structural_validity"
def signatureValidA : Str := ofString "signature_valid_a"
def signatureValidB : Str := ofString "signature_valid_b"
def signatureBinding : Str := ofString "signature_binding"
def comparatorState : Str := ofString "comparator_state"
def supersedes : Str := ofString "supersedes"
def knownEnvelopes : Str := ofString "known_envelopes"
def resolvedBy : Str := ofString "resolved_by"

end Key

/-- `REQUIRED_SIGNED_FIELDS` -/
def requiredSignedFields : List Str := [Key.partyId, Key.actionRef, Key.interactionId]

/-- What a co-signer names besides the fields it signs. -/
def requiredOfCoSigner : List Str :=
  [ofString "issuer", ofString "kid", ofString "pubkey", ofString "jws_signature"]

/-- `party.get("observed") is True` -/
def isObserved (party : Json) : Bool :=
  match party.get Key.observed with
  | .bool true => true
  | _ => false

def isFullList : Json → Bool
  | .list items => !items.isEmpty
  | _ => false

def checkStructuralValidity (party : Json) : Except PyError Bool := do
  let observed ← party.fetch Key.observed
  let actionRef ← party.fetch Key.actionRef
  let coSigner ← party.fetch Key.coSigner
  match observed with
  | .bool true =>
      return !actionRef.isNull && coSigner.isDict && (requiredOfCoSigner.all fun key => (coSigner.get key).truthy) &&
        isFullList (coSigner.get Key.signedFields)
  | .bool false => return actionRef.isNull && coSigner.isNull
  | _ => return false

/-- `REQUIRED_SIGNED_FIELDS.issubset(set(signed_fields))` -/
def covers (signedFields : List Json) : Except PyError Bool :=
  if signedFields.all Json.hashable then
    .ok (requiredSignedFields.all fun name => signedFields.any fun signed => signed.eq (.str name))
  else .error .typeError

def checkSignatureBinding (party : Json) : Except PyError Bool :=
  if party.isDict then
    if isObserved party then
      -- what is no dictionary has no fields
      match (party.get Key.coSigner).get Key.signedFields with
      | .list signedFields => covers signedFields
      | _ => .ok false
    else .ok true
  else .error .attributeError

/-- `(party.get("co_signer") or {}).get("signed_fields")`, which a failing binding shows. -/
def shownFields (party : Json) (bound : Bool) : Except PyError (Option Json) :=
  if isObserved party && !bound then do
    return some (← ((party.get Key.coSigner).or (.dict [])).fetch Key.signedFields)
  else .ok none

/-- `table.get(key)` with a key of any kind: the keys of the table are texts. -/
def getBy (table key : Json) : Except PyError Json :=
  if table.isDict then
    if key.hashable then
      .ok (match key with
        | .str name => table.get name
        | _ => .null)
    else .error .typeError
  else .error .attributeError

/-- What `supersedes` was found to be, with the values the text shows. -/
inductive ChainDetail where
  | exempt
  | unresolved (supersedes : Json)
  | otherInteraction (prior own : Json)
  | provenanceUndeclared
  | ownParty (resolvedBy : Json)
  | resolved

/-- The parties' ids as a set. -/
def currentParties (envelope : Json) : Except PyError Seen := do
  let first ← (← envelope.item Key.partyA).fetch Key.partyId
  let second ← (← envelope.item Key.partyB).fetch Key.partyId
  if first.hashable && second.hashable then return [first, second] else .error .typeError

/-- The source of the prior envelope is none of the parties. -/
def checkProvenance (envelope prior : Json) : Except PyError (Bool × ChainDetail) := do
  let resolvedBy ← prior.fetch Key.resolvedBy
  let parties ← currentParties envelope
  if resolvedBy.truthy then
    if ← parties.contains resolvedBy then return (false, .ownParty resolvedBy) else return (true, .resolved)
  else return (false, .provenanceUndeclared)

def checkSupersedesChainIntegrity (vector : Json) : Except PyError (Bool × ChainDetail) := do
  let envelope ← vector.item Key.envelope
  let supersedes ← envelope.fetch Key.supersedes
  if supersedes.isNull then return (true, .exempt)
  else
    let prior ← getBy (← vector.fetchD Key.knownEnvelopes (.dict [])) supersedes
    if prior.isNull then return (false, .unresolved (← supersedes.leading 16))
    else
      let interactionId ← prior.fetch Key.interactionId
      if interactionId.eq (envelope.get Key.interactionId) then checkProvenance envelope prior
      else return (false, .otherInteraction interactionId (envelope.get Key.interactionId))

inductive ComparatorState where
  | agreed | disagreed | unresolved
  deriving DecidableEq

def ComparatorState.text : ComparatorState → Str
  | .agreed => ofString "AGREED"
  | .disagreed => ofString "DISAGREED"
  | .unresolved => ofString "UNRESOLVED"

/-- What is found of one party. -/
structure Half where
  valid : Bool
  observed : Bool
  signed : Bool
  bound : Bool
  shown : Option Json
  actionRef : Json

def Half.ready (half : Half) : Bool := half.valid && half.observed && half.signed && half.bound

def computeComparatorState (a b : Half) : ComparatorState :=
  if a.ready && b.ready then if a.actionRef.eq b.actionRef then .agreed else .disagreed
  else .unresolved

/-- What the verifier computes of a vector, and what the vector declares of it. -/
structure Reading where
  computedRef : Str
  declaredRef : Json
  a : Half
  b : Half
  declaredStruct : Json
  declaredBinding : Json
  declaredState : Json
  chain : Bool × ChainDetail

def Reading.state (r : Reading) : ComparatorState := computeComparatorState r.a r.b

/-- The reading of a vector, in the order in which the verifier comes to each of its fields. -/
def read (vector : Json) : Except PyError Reading := do
  let envelope ← vector.item Key.envelope
  let computedRef ← sha256hex (jcs envelope)
  let declaredRef ← vector.fetchD Key.peerReconciliationRef (.str [])
  let partyA ← envelope.item Key.partyA
  let validA ← checkStructuralValidity partyA
  let partyB ← envelope.item Key.partyB
  let validB ← checkStructuralValidity partyB
  let checks ← vector.fetchD Key.checks (.dict [])
  let declaredStruct ← checks.fetchD Key.structuralValidity (.bool true)
  let boundA ← checkSignatureBinding partyA
  let boundB ← checkSignatureBinding partyB
  let declaredBinding ← checks.fetchD Key.signatureBinding (.bool true)
  let shownA ← shownFields partyA boundA
  let shownB ← shownFields partyB boundB
  let declaredState ← vector.fetchD Key.comparatorState (.str [])
  let chain ← checkSupersedesChainIntegrity vector
  let signedA := (checks.getD Key.signatureValidA (.bool false)).truthy
  let signedB := (checks.getD Key.signatureValidB (.bool false)).truthy
  return {
    computedRef, declaredRef, declaredStruct, declaredBinding, declaredState, chain
    a := ⟨validA, isObserved partyA, signedA, boundA, shownA, partyA.get Key.actionRef⟩
    b := ⟨validB, isObserved partyB, signedB, boundB, shownB, partyB.get Key.actionRef⟩ }

inductive Party where
  | a | b

/-- A failure, with the values its message shows. -/
inductive Failure where
  | canonicalEnvelope (computed : Str) (declared : Json)
  | structuralApart (computed : Bool) (declared : Json)
  | structuralValidity (a b : Bool)
  | signatureValidity (party : Party)
  | bindingApart (computed : Bool) (declared : Json)
  | signatureBinding (party : Party) (signedFields : Option Json)
  | comparatorState (computed : ComparatorState) (declared : Json)
  | supersedesChainIntegrity (detail : ChainDetail)

def Half.signatureFailures (half : Half) (party : Party) : List Failure :=
  if half.observed && !half.signed then [.signatureValidity party] else []

def Half.bindingFailures (half : Half) (party : Party) : List Failure :=
  if half.observed && !half.bound then [.signatureBinding party half.shown] else []

def Reading.failures (r : Reading) : List Failure :=
  let structOk := r.a.valid && r.b.valid
  let bindingOk := r.a.bound && r.b.bound
  (if (Json.str r.computedRef).eq r.declaredRef then [] else [.canonicalEnvelope r.computedRef r.declaredRef]) ++
    (if (Json.bool structOk).eq r.declaredStruct then [] else [.structuralApart structOk r.declaredStruct]) ++
    (if structOk then [] else [.structuralValidity r.a.valid r.b.valid]) ++
    r.a.signatureFailures .a ++ r.b.signatureFailures .b ++
    (if (Json.bool bindingOk).eq r.declaredBinding then [] else [.bindingApart bindingOk r.declaredBinding]) ++
    r.a.bindingFailures .a ++ r.b.bindingFailures .b ++
    (if (Json.str r.state.text).eq r.declaredState then [] else [.comparatorState r.state r.declaredState]) ++
    (if r.chain.1 then [] else [.supersedesChainIntegrity r.chain.2])

def verifyVector (vector : Json) : Except PyError (Bool × List Failure) := do
  let r ← read vector
  return (r.failures.isEmpty, r.failures)

end Argentum.PeerReconciliation
