import Argentum.Conformance.Enforcement
import Argentum.Conformance.Resubmission

/-! `translate.py` and `run_interop.py`. Two vectors of another verifier, whose grants are
credentials in a JWS, become delegation chains: the revocation of the root grant one of the
root hop, and the credential that was consumed a chain that was recorded. The verifier of the
run is the copy that is kept with the revoked ancestor, whose directory is searched first. -/
namespace Argentum.Delegation.Moltycel
open Text

/-- Why a vector is not translated. -/
inductive Untranslated where
  | raised (raised : PyError)
  | assertion

def python {α : Type} (value : Except PyError α) : Except Untranslated α := value.mapError .raised

def asserted (holds : Bool) : Except Untranslated Unit := if holds then .ok () else .error .assertion

/-- `value[first][second]...` -/
def field (value : Json) (names : List String) : Except PyError Json :=
  names.foldlM (fun value name => value.item (ofString name)) value

/-- What base64 and `json.loads` make of a segment. -/
abbrev Decoder := Str → Except PyError Json

def decodeJws (segment : Decoder) (token : Json) : Except PyError (Json × Json) := do
  match (← asStr token).splitOn 46 with
  | [headerB64, payloadB64, _] =>
      let header ← segment headerB64
      let payload ← segment payloadB64
      return (header, payload)
  | _ => .error .valueError

/-- `normalize_timestamp`; the operator `in` finds an item of a list and a key of a dictionary, too. -/
def normalizeTimestamp : Json → Except Untranslated Json
  | .str s =>
      if 46 ∈ s then .ok (.str s)
      else if (ofString "Z").isSuffixOf s then .ok (.str (s.dropLast ++ ofString ".000Z"))
      else .error .assertion
  | .list items =>
      if items.any fun item => item.eq (.str (ofString ".")) then .ok (.list items)
      else .error (.raised .attributeError)
  | .dict items =>
      if (items.lookup (ofString ".")).isSome then .ok (.dict items) else .error (.raised .attributeError)
  | _ => .error (.raised .typeError)

def mandateOf (payload : Json) : Except PyError Json := field payload ["credentialSubject", "aae", "mandate"]

structure Hop where
  delegator : Json
  delegatee : Json
  scope : Json
  delegationRef : Str
  sourceAaeId : Json

def makeHop (delegator delegatee scope sourceAaeId : Json) : Except PyError Hop := do
  let delegationRef ← sha256hex (jcs (.dict [(ofString "delegator", delegator), (ofString "delegatee", delegatee),
    (ofString "scope", scope), (ofString "source_aae_id", sourceAaeId)]))
  return { delegator, delegatee, scope, delegationRef, sourceAaeId }

/-- The hop of the artifact, without the id of its credential. -/
def Hop.json (hop : Hop) : Json :=
  .dict [(ofString "delegator", hop.delegator), (ofString "delegatee", hop.delegatee), (ofString "scope", hop.scope),
    (ofString "delegation_ref", .str hop.delegationRef)]

/-- `leaf_preimage` -/
structure Leaf where
  agentId : Json
  actionType : Json
  scope : Json
  timestamp : Json

def Leaf.json (leaf : Leaf) : Json :=
  .dict [(ofString "agent_id", leaf.agentId), (ofString "action_type", leaf.actionType), (ofString "scope", leaf.scope),
    (ofString "timestamp", leaf.timestamp)]

/-- `chain_artifact` -/
structure Chain where
  chainId : Str
  hops : List Hop
  rootDelegator : Json
  scope : Json
  leafActionRef : Str

def Chain.json (chain : Chain) : Json :=
  .dict [(ofString "version", .str (ofString "delegation-chain-ref-v1")), (ofString "chain_id", .str chain.chainId),
    (ofString "hops", .list (chain.hops.map Hop.json)), (ofString "root_delegator", chain.rootDelegator),
    (ofString "scope", chain.scope), (ofString "leaf_action_ref", .str chain.leafActionRef)]

/-- `[h["delegation_ref"] for h in hops]` -/
def Chain.hopRefs (chain : Chain) : List Json := chain.hops.map fun hop => .str hop.delegationRef

/-- `revocation_artifact` -/
structure RevocationArtifact where
  revokedActionRef : Str
  scope : Json
  revokedAt : Json

def RevocationArtifact.json (artifact : RevocationArtifact) : Json :=
  .dict [(ofString "version", .str (ofString "revocation-ref-v1")),
    (ofString "revoked_action_ref", .str artifact.revokedActionRef), (ofString "scope", artifact.scope),
    (ofString "revoked_at", artifact.revokedAt),
    (ofString "reason", .str (ofString "aae_revocation_responses_reported_revoked_true"))]

/-- What the enforcement reads of an artifact. -/
def readRevocation (artifact : Json) : Revocation where
  version := artifact.get (ofString "version")
  revokedActionRef :=
    if artifact.has (ofString "revoked_action_ref") then some (artifact.get (ofString "revoked_action_ref")) else none

/-- A translated vector, with its path in the source and what the source expects of it. -/
structure Translation where
  id : String
  path : String
  expected : Json
  chain : Chain
  delegationChainRef : Str
  leaf : Leaf
  revocation : Option RevocationArtifact := none

def Translation.source (t : Translation) : Json :=
  .dict [(ofString "repo", .str (ofString "MoltyCel/aae-conformance-vectors")),
    (ofString "ref", .str (ofString "22a08d76ef76fda19274a687081523443e2ce7d0")),
    (ofString "path", .str (ofString t.path)), (ofString "source_aae_vector_expected", t.expected)]

/-- The id of the credential behind each hop. -/
def Translation.hopProvenance (t : Translation) : Json :=
  .list (t.chain.hops.zipIdx.map fun (hop, i) =>
    .dict [(ofString "hop_index", .int i), (ofString "source_aae_id", hop.sourceAaeId)])

def Translation.json (t : Translation) : Json :=
  .dict ([(ofString "id", .str (ofString t.id)), (ofString "source", t.source),
      (ofString "chain_artifact", t.chain.json), (ofString "delegation_chain_ref", .str t.delegationChainRef),
      (ofString "leaf_preimage", t.leaf.json)] ++
    (t.revocation.map fun artifact => (ofString "revocation_artifact", artifact.json)).toList ++
    [(ofString "hop_provenance", t.hopProvenance)])

/-- `responses.get(root_id, {}).get("revoked") is True` -/
def reportedRevoked (responses rootId : Json) : Except PyError Bool :=
  if !responses.isDict then .error .attributeError
  else if !rootId.hashable then .error .typeError
  else
    let response := match rootId with
      | .str id => responses.getD id (.dict [])
      | _ => .dict []
    if !response.isDict then .error .attributeError
    else
      match response.get (ofString "revoked") with
      | .bool true => .ok true
      | _ => .ok false

/-- `value in values` for the ids that were consumed. -/
def isAmong (value : Json) : Json → Except PyError Bool
  | .list items => .ok (items.any fun item => item.eq value)
  | .dict items =>
      if value.hashable then .ok (items.any fun item => (Json.str item.1).eq value) else .error .typeError
  | .str s =>
      match value with
      | .str part => .ok (decide (part <:+: s))
      | _ => .error .typeError
  | _ => .error .typeError

section
variable (segment : Decoder) (str : Json → Str) (source : Json)

/-- `translate_vector_11` -/
def translateVector11 : Except Untranslated Translation := do
  let rootToken ← python (do (← field source ["input", "context", "delegation_chain"]).index 0)
  let depth1Token ← python (field source ["input", "secured_aae"])
  let (_, rootPayload) ← python (decodeJws segment rootToken)
  let (_, depth1Payload) ← python (decodeJws segment depth1Token)
  let rootMandate ← python (mandateOf rootPayload)
  let rootId ← python (field rootPayload ["id"])
  let rootDelegator ← python (field rootMandate ["principal_did"])
  let rootDelegatee ← python (field rootPayload ["credentialSubject", "id"])
  let rootScope ← python (field rootMandate ["scope"])
  let depth1Id ← python (field depth1Payload ["id"])
  let depth1Delegator ← python (field depth1Payload ["issuer"])
  asserted (depth1Delegator.eq rootDelegatee)
  let depth1Delegatee ← python (field depth1Payload ["credentialSubject", "id"])
  let hop0 ← python (makeHop rootDelegator rootDelegatee rootScope rootId)
  let hop1 ← python (makeHop depth1Delegator depth1Delegatee rootScope depth1Id)
  let context ← python (field source ["input", "context"])
  let actionType ← python (field context ["requested_action"])
  let timestamp ← normalizeTimestamp (← python (field context ["current_time"]))
  let leaf : Leaf := ⟨depth1Delegatee, actionType, hop1.scope, timestamp⟩
  let leafActionRef ← python (computeActionRef leaf.json)
  let chain : Chain :=
    { chainId := ofString "moltycel-aae-v11:" ++ str rootId
      hops := [hop0, hop1]
      rootDelegator
      scope := hop1.scope
      leafActionRef }
  asserted (← python (do reportedRevoked (← field context ["revocation_responses"]) rootId))
  let expected ← python (field source ["expected"])
  let delegationChainRef ← python (sha256hex (jcs chain.json))
  return { id := "moltycel-aae-v11-delegation-cascade-revocation"
           path := "vectors/11-delegation-cascade-revocation.json"
           expected, chain, delegationChainRef, leaf
           revocation := some ⟨hop0.delegationRef, hop0.scope, timestamp⟩ }

/-- `translate_vector_05` -/
def translateVector05 : Except Untranslated Translation := do
  let token ← python (field source ["input", "secured_aae"])
  let (_, payload) ← python (decodeJws segment token)
  let mandate ← python (mandateOf payload)
  let vcId ← python (field payload ["id"])
  let delegator ← python (field mandate ["principal_did"])
  let delegatee ← python (field payload ["credentialSubject", "id"])
  let scope ← python (field mandate ["scope"])
  asserted (← python (do isAmong vcId (← field source ["input", "context", "consumed_ids"])))
  let hop0 ← python (makeHop delegator delegatee scope vcId)
  let context ← python (field source ["input", "context"])
  let actionType ← python (field context ["requested_action"])
  let timestamp ← normalizeTimestamp (← python (field context ["current_time"]))
  let leaf : Leaf := ⟨delegatee, actionType, hop0.scope, timestamp⟩
  let leafActionRef ← python (computeActionRef leaf.json)
  let chain : Chain :=
    { chainId := ofString "moltycel-aae-v05:" ++ str vcId
      hops := [hop0]
      rootDelegator := delegator
      scope := hop0.scope
      leafActionRef }
  let expected ← python (field source ["expected"])
  let delegationChainRef ← python (sha256hex (jcs chain.json))
  return { id := "moltycel-aae-v05-single-use-replay"
           path := "vectors/05-single-use-replay.json"
           expected, chain, delegationChainRef, leaf }

end

/-- The chain id or a reference of a hop is in the registry. -/
def Chain.knownTo (chain : Chain) (registry : SeenRegistry) : Bool :=
  registry.chainIds.member (.str chain.chainId) || chain.hopRefs.any registry.delegationRefs.member

/-- What the report shows of the expected verdict: whether it is a rejection. -/
def expectsReject (expected : Json) : Except PyError Bool := do
  let result ← expected.item (ofString "result")
  let _ ← expected.item (ofString "verification_step")
  let _ ← expected.item (ofString "rejection_reason")
  return result.eq (.str (ofString "REJECT"))

/-- `run`: how many of the four checks fail. -/
def run (verifies : Verifier) (segment : Decoder) (str : Json → Str) (source11 source05 : Json) :
    Except Untranslated Nat := do
  let vector11 ← translateVector11 segment str source11
  let ((structuralOk, _), _) ← python (RevokedAncestor.verifyVector verifies vector11.json [] (some .empty))
  let artifacts := vector11.revocation.toList.map fun artifact => readRevocation artifact.json
  let (enforcedOk, _) ← python (enforce75 vector11.chain.json artifacts)
  let reject11 ← python (expectsReject vector11.expected)
  let vector05 ← translateVector05 segment str source05
  let reject05 ← python (expectsReject vector05.expected)
  let ((firstUseOk, _), _) ← python (RevokedAncestor.verifyVector verifies vector05.json [] (some .empty))
  let consumed := SeenRegistry.empty.record (.str vector05.chain.chainId) vector05.chain.hopRefs
  let ((replayOk, _), _) ← python (RevokedAncestor.verifyVector verifies vector05.json [] (some consumed))
  return [!structuralOk, enforcedOk == reject11, !firstUseOk, replayOk == reject05].count true

/-- What a translation says of itself: its references are the hashes of what they refer to, and
each hop continues the one before under the same scope. -/
structure Translation.Coherent (t : Translation) : Prop where
  referenced : sha256hex (jcs t.chain.json) = .ok t.delegationChainRef
  anchored : computeActionRef t.leaf.json = .ok t.chain.leafActionRef
  rooted : ∃ first ∈ t.chain.hops.head?, first.delegator = t.chain.rootDelegator
  leafScope : ∃ last ∈ t.chain.hops.getLast?, last.scope = t.leaf.scope
  linked : ∀ i hop next, t.chain.hops[i]? = some hop → t.chain.hops[i + 1]? = some next →
    next.delegator.eq hop.delegatee = true ∧ next.scope = hop.scope

/-- The arguments of `make_hop` are texts, as it declares them. -/
def Hop.Typed (hop : Hop) : Prop :=
  ∃ delegator delegatee scope : Str, hop.delegator = .str delegator ∧ hop.delegatee = .str delegatee ∧
    hop.scope = .str scope

def isText : Json → Bool
  | .str _ => true
  | _ => false

section
variable {segment : Decoder} {str : Json → Str} {source : Json} {t : Translation}

theorem isText_iff {value : Json} : isText value = true ↔ ∃ s, value = .str s := by
  cases value with
  | str s => exact iff_of_true rfl ⟨s, rfl⟩
  | null | bool | int | float | list | dict =>
      refine iff_of_false Bool.false_ne_true ?_
      rintro ⟨_, same⟩
      cases same

instance decidableTyped (hop : Hop) : Decidable hop.Typed :=
  decidable_of_iff ((isText hop.delegator && isText hop.delegatee && isText hop.scope) = true) (by
    rw [Bool.and_eq_true, Bool.and_eq_true, isText_iff, isText_iff, isText_iff]
    constructor
    · rintro ⟨⟨⟨delegator, first⟩, delegatee, second⟩, scope, third⟩
      exact ⟨delegator, delegatee, scope, first, second, third⟩
    · rintro ⟨delegator, delegatee, scope, first, second, third⟩
      exact ⟨⟨⟨delegator, first⟩, delegatee, second⟩, scope, third⟩)

/-- A hop of texts has a delegator and a scope that are equal to themselves. -/
theorem Hop.Typed.reflexive {hop : Hop} (typed : hop.Typed) :
    hop.delegator.eq hop.delegator = true ∧ hop.scope.eq hop.scope = true := by
  obtain ⟨delegator, _, scope, first, _, third⟩ := typed
  rw [first, third]
  exact ⟨Json.str_eq.mpr rfl, Json.str_eq.mpr rfl⟩

theorem python_eq_ok {α : Type} {value : Except PyError α} {x : α} : python value = .ok x ↔ value = .ok x := by
  cases value with
  | error raised => exact ⟨nofun, nofun⟩
  | ok y =>
      constructor
      · exact fun same => congrArg Except.ok (Except.ok.inj same)
      · exact fun same => congrArg Except.ok (Except.ok.inj same)

theorem asserted_eq_ok {holds : Bool} {done : Unit} : asserted holds = .ok done ↔ holds = true := by
  cases holds <;> simp [asserted]

theorem coherent_translateVector11 (translated : translateVector11 segment str source = .ok t) :
    t.Coherent ∧ ∃ hop0 hop1 artifact, t.chain.hops = [hop0, hop1] ∧ t.revocation = some artifact ∧
      artifact.revokedActionRef = hop0.delegationRef := by
  obtain ⟨rootToken, _, translated⟩ := bind_ok translated
  obtain ⟨depth1Token, _, translated⟩ := bind_ok translated
  obtain ⟨root, _, translated⟩ := bind_ok translated
  obtain ⟨depth1, _, translated⟩ := bind_ok translated
  obtain ⟨rootMandate, _, translated⟩ := bind_ok translated
  obtain ⟨rootId, _, translated⟩ := bind_ok translated
  obtain ⟨rootDelegator, _, translated⟩ := bind_ok translated
  obtain ⟨rootDelegatee, _, translated⟩ := bind_ok translated
  obtain ⟨rootScope, _, translated⟩ := bind_ok translated
  obtain ⟨depth1Id, _, translated⟩ := bind_ok translated
  obtain ⟨depth1Delegator, _, translated⟩ := bind_ok translated
  obtain ⟨_, issued, translated⟩ := bind_ok translated
  obtain ⟨depth1Delegatee, _, translated⟩ := bind_ok translated
  obtain ⟨hop0, made0, translated⟩ := bind_ok translated
  obtain ⟨hop1, made1, translated⟩ := bind_ok translated
  obtain ⟨context, _, translated⟩ := bind_ok translated
  obtain ⟨actionType, _, translated⟩ := bind_ok translated
  obtain ⟨currentTime, _, translated⟩ := bind_ok translated
  obtain ⟨timestamp, _, translated⟩ := bind_ok translated
  obtain ⟨leafActionRef, anchored, translated⟩ := bind_ok translated
  obtain ⟨revoked, _, translated⟩ := bind_ok translated
  obtain ⟨_, _, translated⟩ := bind_ok translated
  obtain ⟨expected, _, translated⟩ := bind_ok translated
  obtain ⟨delegationChainRef, referenced, translated⟩ := bind_ok translated
  cases translated
  obtain ⟨ref0, _, made0⟩ := bind_ok (python_eq_ok.mp made0)
  obtain ⟨ref1, _, made1⟩ := bind_ok (python_eq_ok.mp made1)
  cases made0
  cases made1
  refine ⟨⟨python_eq_ok.mp referenced, python_eq_ok.mp anchored, ⟨_, rfl, rfl⟩, ⟨_, rfl, rfl⟩, ?_⟩, _, _, _, rfl, rfl,
    rfl⟩
  intro i hop next here after
  cases i with
  | zero =>
      cases here
      cases after
      exact ⟨asserted_eq_ok.mp issued, rfl⟩
  | succ i => cases after

theorem coherent_translateVector05 (translated : translateVector05 segment str source = .ok t) :
    t.Coherent ∧ ∃ hop, t.chain.hops = [hop] := by
  obtain ⟨token, _, translated⟩ := bind_ok translated
  obtain ⟨decoded, _, translated⟩ := bind_ok translated
  obtain ⟨mandate, _, translated⟩ := bind_ok translated
  obtain ⟨vcId, _, translated⟩ := bind_ok translated
  obtain ⟨delegator, _, translated⟩ := bind_ok translated
  obtain ⟨delegatee, _, translated⟩ := bind_ok translated
  obtain ⟨scope, _, translated⟩ := bind_ok translated
  obtain ⟨consumed, _, translated⟩ := bind_ok translated
  obtain ⟨_, _, translated⟩ := bind_ok translated
  obtain ⟨hop, made, translated⟩ := bind_ok translated
  obtain ⟨context, _, translated⟩ := bind_ok translated
  obtain ⟨actionType, _, translated⟩ := bind_ok translated
  obtain ⟨currentTime, _, translated⟩ := bind_ok translated
  obtain ⟨timestamp, _, translated⟩ := bind_ok translated
  obtain ⟨leafActionRef, anchored, translated⟩ := bind_ok translated
  obtain ⟨expected, _, translated⟩ := bind_ok translated
  obtain ⟨delegationChainRef, referenced, translated⟩ := bind_ok translated
  cases translated
  obtain ⟨ref, _, made⟩ := bind_ok (python_eq_ok.mp made)
  cases made
  refine ⟨⟨python_eq_ok.mp referenced, python_eq_ok.mp anchored, ⟨_, rfl, rfl⟩, ⟨_, rfl, rfl⟩, ?_⟩, _, rfl⟩
  intro i hop next _ after
  cases after

variable {verifies : Verifier} {pubkeys : Pubkeys} {registry : SeenRegistry}

/-- No check before the replay guard finds fault with a translation. -/
theorem Translation.Coherent.clean (coherent : t.Coherent) (typed : ∀ hop ∈ t.chain.hops, hop.Typed)
    (enforceScopeNarrowing : Bool) :
    Clean verifies t.json t.chain.json (t.chain.hops.map Hop.json) pubkeys enforceScopeNarrowing := by
  have neighbours {related : Json → Json → Prop} (each : ∀ hop next : Hop, hop ∈ t.chain.hops →
      next.delegator.eq hop.delegatee = true → next.scope = hop.scope → related hop.json next.json) :
      Adjacent related (t.chain.hops.map Hop.json) := by
    intro i hop next here after
    rw [List.getElem?_map] at here after
    obtain ⟨first, found, rfl⟩ := Option.map_eq_some_iff.mp here
    obtain ⟨second, following, rfl⟩ := Option.map_eq_some_iff.mp after
    obtain ⟨issued, same⟩ := coherent.linked i first second found following
    exact each first second (List.mem_of_getElem? found) issued same
  constructor
  · exact ⟨_, coherent.referenced, rfl⟩
  · refine neighbours fun hop next member issued _ => agree_iff.mpr ⟨hop.delegatee, next.delegator, rfl, rfl, ?_⟩
    obtain ⟨_, delegatee, _, _, shown, _⟩ := typed hop member
    rw [shown] at issued ⊢
    rw [Json.str_eq, Json.eq_str.mp issued]
  · obtain ⟨first, head, root⟩ := coherent.rooted
    refine ⟨first.json, ?_, agree_iff.mpr ⟨t.chain.rootDelegator, first.delegator, rfl, rfl, ?_⟩⟩
    · rw [List.head?_map, Option.mem_def.mp head]
      rfl
    · rw [← root]
      exact (typed first (List.mem_of_mem_head? head)).reflexive.1
  · intro _
    obtain ⟨last, final, same⟩ := coherent.leafScope
    refine ⟨last.json, ?_, t.leaf.json, t.chain.leafActionRef, rfl, coherent.anchored, rfl,
      agree_iff.mpr ⟨t.leaf.scope, last.scope, rfl, rfl, ?_⟩⟩
    · rw [List.getLast?_map, Option.mem_def.mp final]
      rfl
    · rw [← same]
      exact (typed last (List.mem_of_mem_getLast? final)).reflexive.2
  · intro hop member signed
    obtain ⟨own, _, rfl⟩ := List.mem_map.mp member
    cases signed
  · intro _
    refine neighbours fun hop next member _ same => ⟨hop.scope, next.scope, rfl, rfl, ?_⟩
    rw [same, scopeIsNarrowerOrEqual, if_pos (typed hop member).reflexive.2]
    rfl

theorem containsAny_of_hashable {seen : Seen} {values : List Json}
    (hashable : ∀ value ∈ values, value.hashable = true) : seen.containsAny values = .ok (values.any seen.member) := by
  induction values with
  | nil => rfl
  | cons value rest ih =>
      obtain ⟨first, later⟩ := List.forall_mem_cons.mp hashable
      rw [Seen.containsAny, Seen.contains, if_pos first, List.any_cons, ih later]
      cases seen.member value <;> rfl

namespace Chain
variable {chain : Chain}

theorem hashable_hopRefs : ∀ ref ∈ chain.hopRefs, ref.hashable = true := by
  intro ref member
  obtain ⟨hop, _, rfl⟩ := List.mem_map.mp member
  rfl

theorem contains_eq : registry.contains (.str chain.chainId) chain.hopRefs = .ok (chain.knownTo registry) := by
  rw [SeenRegistry.contains, containsAny_of_hashable hashable_hopRefs, Chain.knownTo]
  change (if registry.chainIds.member (.str chain.chainId) then _ else _) = _
  cases registry.chainIds.member (.str chain.chainId) <;> rfl

theorem readAuthorization_eq : readAuthorization chain.json (.list (chain.hops.map Hop.json)) =
    .ok ⟨.str chain.chainId, chain.hopRefs⟩ := by
  refine bind_ok_iff.mpr ⟨_, rfl, bind_ok_iff.mpr ⟨chain.hopRefs, mapOk_eq_ok_iff.mpr ?_, rfl⟩⟩
  rw [hopRefs, List.forall₂_map_left_iff, List.forall₂_map_right_iff]
  exact List.forall₂_same.mpr fun hop _ => rfl

theorem replayCheck_eq : replayCheck (some registry) chain.json (.list (chain.hops.map Hop.json)) true =
    .ok (if chain.knownTo registry then ([.replayDetected (.str chain.chainId)], some registry)
      else ([], some (registry.record (.str chain.chainId) chain.hopRefs))) := by
  refine bind_ok_iff.mpr ⟨_, readAuthorization_eq, bind_ok_iff.mpr ⟨_, contains_eq, ?_⟩⟩
  cases chain.knownTo registry <;> rfl

theorem knownTo_empty : chain.knownTo .empty = false := by
  rw [knownTo, Bool.or_eq_false_iff]
  exact ⟨rfl, List.any_eq_false.mpr fun ref _ => Bool.false_ne_true⟩

/-- A chain is known to the registry it was recorded in. -/
theorem knownTo_record : chain.knownTo (registry.record (.str chain.chainId) chain.hopRefs) = true := by
  rw [knownTo, Bool.or_eq_true]
  exact Or.inl (Seen.member_add_self rfl)

theorem knownTo_of_record {chainId : Json} {refs : List Json} (known : chain.knownTo registry = true) :
    chain.knownTo (registry.record chainId refs) = true := by
  rw [knownTo, Bool.or_eq_true, List.any_eq_true] at known ⊢
  exact known.imp Seen.member_add_of_member fun ⟨ref, member, held⟩ => ⟨ref, member, Seen.member_addAll_of_member held⟩

/-- The registry after a submission, whatever was submitted, knows what it knew. -/
theorem knownTo_submit (submission : Submission) (known : chain.knownTo registry = true) :
    chain.knownTo (submit verifies registry submission).2 = true := by
  rcases submit_cases verifies registry submission with ⟨_, unchanged⟩ | ⟨authorization, _, _, _, recorded⟩
  · rw [unchanged]
    exact known
  · rw [recorded]
    exact knownTo_of_record known

end Chain

/-- What the verifier answers to a translation, and the registry it leaves. -/
def Translation.answer (t : Translation) (registry : SeenRegistry) : (Bool × List Failure) × Option SeenRegistry :=
  if t.chain.knownTo registry then ((false, [.replayDetected (.str t.chain.chainId)]), some registry)
  else ((true, []), some (registry.record (.str t.chain.chainId) t.chain.hopRefs))

/-- A translation has one fault at most: that it was recorded. -/
theorem Translation.Coherent.verifyVector_eq (coherent : t.Coherent) (typed : ∀ hop ∈ t.chain.hops, hop.Typed) :
    RevokedAncestor.verifyVector verifies t.json pubkeys (some registry) = .ok (t.answer registry) := by
  have clean : Clean verifies t.json t.chain.json (t.chain.hops.map Hop.json) pubkeys true :=
    coherent.clean typed true
  have front : frontChecks t.json t.chain.json (.list (t.chain.hops.map Hop.json)) = .ok [] := by
    refine bind_ok_iff.mpr ⟨[], byteMatch_nil_iff.mpr clean.referenced, ?_⟩
    refine bind_ok_iff.mpr ⟨[], chainContinuity_nil_iff.mpr clean.continuous, ?_⟩
    refine bind_ok_iff.mpr ⟨[], rootAnchoring_nil_iff.mpr clean.rooted, ?_⟩
    exact bind_ok_iff.mpr ⟨[], leafAnchoring_nil_iff.mpr clean.leaf, rfl⟩
  have signatures : RevokedAncestor.hopSignatures verifies t.chain.json (.list (t.chain.hops.map Hop.json)) pubkeys =
      .ok [] := by
    rw [RevokedAncestor.hopSignatures_eq, hopSignatures_nil_iff.mpr clean.signed]
    rfl
  refine bind_ok_iff.mpr ⟨t.chain.json, rfl, bind_ok_iff.mpr ⟨_, rfl, bind_ok_iff.mpr ⟨[], front, ?_⟩⟩⟩
  refine bind_ok_iff.mpr ⟨[], scopeNarrowing_nil_iff.mpr clean.narrowing, bind_ok_iff.mpr ⟨[], signatures, ?_⟩⟩
  refine bind_ok_iff.mpr ⟨_, Chain.replayCheck_eq, ?_⟩
  rw [Translation.answer]
  cases t.chain.knownTo registry <;> rfl

theorem Translation.Coherent.accepts (coherent : t.Coherent) (typed : ∀ hop ∈ t.chain.hops, hop.Typed)
    (unknown : t.chain.knownTo registry = false) :
    RevokedAncestor.verifyVector verifies t.json pubkeys (some registry) =
      .ok ((true, []), some (registry.record (.str t.chain.chainId) t.chain.hopRefs)) := by
  rw [coherent.verifyVector_eq typed, Translation.answer, unknown]
  rfl

theorem Translation.Coherent.refuses (coherent : t.Coherent) (typed : ∀ hop ∈ t.chain.hops, hop.Typed)
    (known : t.chain.knownTo registry = true) :
    RevokedAncestor.verifyVector verifies t.json pubkeys (some registry) =
      .ok ((false, [.replayDetected (.str t.chain.chainId)]), some registry) := by
  rw [coherent.verifyVector_eq typed, Translation.answer, known]
  rfl

theorem namedHop_of_artifact {hop : Hop} {revocations : List Revocation} {artifact : RevocationArtifact}
    (known : readRevocation artifact.json ∈ revocations) (revokes : artifact.revokedActionRef = hop.delegationRef)
    {hops : List Json} {i : Nat} (here : hops[i]? = some hop.json) : NamedHop hops revocations i := by
  refine ⟨hop.json, .str hop.delegationRef, here, rfl, _, known, .str artifact.revokedActionRef, rfl, ?_⟩
  rw [revokes]
  exact (Json.same_iff_hashKey? rfl).mpr rfl

/-- Where the first of two hops is known to be revoked, the second is found, and the leaf action under it. -/
theorem enforce75_root {chain : Chain} {first last : Hop} (two : chain.hops = [first, last])
    {revocations : List Revocation} (keepable : Keepable revocations)
    (named : NamedHop [first.json, last.json] revocations 0) :
    enforce75 chain.json revocations = .ok (false,
      [.descendantOfRevokedAncestor 1 0 (.str first.delegationRef) last.delegator last.delegatee,
        .leafActionUnderRevokedAncestor 0 last.delegatee]) := by
  have listed : chain.json.item (ofString "hops") = .ok (.list [first.json, last.json]) := by
    change Except.ok (Json.list (chain.hops.map Hop.json)) = _
    rw [two]
    rfl
  have readable : RefsReadable [first.json, last.json] := by
    intro hop member
    rcases List.mem_pair.mp member with rfl | rfl
    · exact ⟨_, rfl, rfl⟩
    · exact ⟨_, rfl, rfl⟩
  obtain ⟨refs, kept⟩ := revokedRefs_isOk_iff.mpr keepable
  obtain ⟨indices, found, ascending, mem_iff⟩ := revokedAncestorIndices_of_readable readable kept
  refine bind_ok_iff.mpr ⟨_, listed, bind_ok_iff.mpr ⟨indices, found, ?_⟩⟩
  -- the indices ascend, and so the root is the first of them
  obtain ⟨rest, rfl⟩ : ∃ rest, indices = 0 :: rest := by
    cases indices with
    | nil => cases (mem_iff 0).mpr named
    | cons i rest =>
        rcases List.mem_cons.mp ((mem_iff 0).mpr named) with rfl | later
        · exact ⟨rest, rfl⟩
        · exact absurd ((List.pairwise_cons.mp ascending).1 0 later) (Nat.not_lt_zero i)
  rfl

/-- The verdict over a root grant that was revoked: the structure is sound, and whoever knows of
the revocation finds the descendant and what it executed. -/
def CascadeRejected (verifies : Verifier) (t : Translation) : Prop :=
  ∃ root child artifact, t.chain.hops = [root, child] ∧ t.revocation = some artifact ∧
    (∀ pubkeys registry, t.chain.knownTo registry = false →
      RevokedAncestor.verifyVector verifies t.json pubkeys (some registry) =
        .ok ((true, []), some (registry.record (.str t.chain.chainId) t.chain.hopRefs))) ∧
    ∀ revocations, Keepable revocations → readRevocation artifact.json ∈ revocations →
      enforce75 t.chain.json revocations = .ok (false,
        [.descendantOfRevokedAncestor 1 0 (.str root.delegationRef) child.delegator child.delegatee,
          .leafActionUnderRevokedAncestor 0 child.delegatee])

/-- Once it was recorded, a grant is refused for that alone, whatever is submitted in between. -/
def ReplayRejected (verifies : Verifier) (t : Translation) : Prop :=
  ∀ pubkeys registry, t.chain.knownTo registry = false → ∃ recorded,
    RevokedAncestor.verifyVector verifies t.json pubkeys (some registry) = .ok ((true, []), some recorded) ∧
    ∀ submissions again reached,
      reached = Transition.run (fun registry submission => (submit verifies registry submission).2) recorded
        submissions →
      RevokedAncestor.verifyVector verifies t.json again (some reached) =
        .ok ((false, [.replayDetected (.str t.chain.chainId)]), some reached)

end

/-- A revoked root grant is rejected under the enforcement, and the verifier alone does not object. -/
theorem cascade_rejected (verifies : Verifier) (segment : Decoder) (str : Json → Str) (source : Json) (t : Translation)
    (translated : translateVector11 segment str source = .ok t) (typed : ∀ hop ∈ t.chain.hops, hop.Typed) :
    CascadeRejected verifies t := by
  obtain ⟨coherent, root, child, artifact, two, given, revokes⟩ := coherent_translateVector11 translated
  refine ⟨root, child, artifact, two, given, fun pubkeys registry => coherent.accepts typed, ?_⟩
  intro revocations keepable known
  exact enforce75_root two keepable (namedHop_of_artifact known revokes rfl)

/-- The segment of a root credential, from `corp` to `agent-a`. -/
def rootSegment : Str := ofString
  ("eyJpZCI6InVybjphMCIsImNyZWRlbnRpYWxTdWJqZWN0Ijp7ImlkIjoiYWdlbnQtYSIsImFhZSI6eyJtYW5kYXRlIjp7InNjb3BlIjoidHJhdmVs" ++
    "IiwicHJpbmNpcGFsX2RpZCI6ImNvcnAifX19fQ")

/-- The segment of a credential that `agent-a` issues to `agent-b`. -/
def childSegment : Str := ofString
  "eyJpZCI6InVybjpiMSIsImlzc3VlciI6ImFnZW50LWEiLCJjcmVkZW50aWFsU3ViamVjdCI6eyJpZCI6ImFnZW50LWIifX0"

/-- What base64 and JSON make of these segments and of an empty header. -/
def corpSegments : Decoder := fun part =>
  if part = ofString "e30" then .ok (.dict [])
  else if part = rootSegment then
    .ok (.dict [(ofString "id", .str (ofString "urn:a0")), (ofString "credentialSubject",
      .dict [(ofString "id", .str (ofString "agent-a")), (ofString "aae", .dict [(ofString "mandate",
        strings [("scope", "travel"), ("principal_did", "corp")])])])])
  else if part = childSegment then
    .ok (.dict [(ofString "id", .str (ofString "urn:b1")), (ofString "issuer", .str (ofString "agent-a")),
      (ofString "credentialSubject", strings [("id", "agent-b")])])
  else .error .valueError

def tokenOf (payload : Str) : Json := .str (ofString "e30." ++ payload ++ ofString ".sig")

def textOf : Json → Str
  | .str s => s
  | _ => []

def rejection (step : Int) (reason : String) : Json :=
  .dict [(ofString "result", .str (ofString "REJECT")), (ofString "verification_step", .int step),
    (ofString "rejection_reason", .str (ofString reason))]

def revokedGrant : Json :=
  .dict [(ofString "input", .dict [(ofString "secured_aae", tokenOf childSegment), (ofString "context", .dict [
      (ofString "current_time", .str (ofString "2026-05-20T12:00:00Z")),
      (ofString "requested_action", .str (ofString "read")), (ofString "delegation_chain", .list [tokenOf rootSegment]),
      (ofString "revocation_responses", .dict [(ofString "urn:a0", .dict [(ofString "revoked", .bool true)])])])]),
    (ofString "expected", rejection 9 "ancestor_revoked")]

def consumedGrant : Json :=
  .dict [(ofString "input", .dict [(ofString "secured_aae", tokenOf rootSegment), (ofString "context", .dict [
      (ofString "current_time", .str (ofString "2026-05-20T12:00:00Z")),
      (ofString "requested_action", .str (ofString "book")),
      (ofString "consumed_ids", .list [.str (ofString "urn:a0")])])]),
    (ofString "expected", rejection 5 "single_use_already_consumed")]

/-- A translation that ends, with hops of texts, of a source that expects a rejection. -/
def rejectedTranslation? (translated : Except Untranslated Translation) : Bool :=
  match translated with
  | .ok t => decide (∀ hop ∈ t.chain.hops, hop.Typed) && (expectsReject t.expected).toOption == some true
  | .error _ => false

theorem exists_of_rejectedTranslation? {translated : Except Untranslated Translation}
    (rejected : rejectedTranslation? translated = true) :
    ∃ t, translated = .ok t ∧ (∀ hop ∈ t.chain.hops, hop.Typed) ∧ expectsReject t.expected = .ok true := by
  cases translated with
  | error raised => cases rejected
  | ok t =>
      obtain ⟨typed, expects⟩ := Bool.and_eq_true_iff.mp rejected
      refine ⟨t, rfl, of_decide_eq_true typed, ?_⟩
      cases expected : expectsReject t.expected with
      | error raised =>
          rw [expected] at expects
          cases expects
      | ok reject =>
          rw [expected] at expects
          cases reject with
          | true => rfl
          | false => cases expects

theorem rejected_revokedGrant : rejectedTranslation? (translateVector11 corpSegments textOf revokedGrant) = true := by
  decide +kernel

theorem rejected_consumedGrant : rejectedTranslation? (translateVector05 corpSegments textOf consumedGrant) = true := by
  decide +kernel

theorem cascade_rejected_corp : ∃ t, translateVector11 corpSegments textOf revokedGrant = .ok t ∧
    CascadeRejected (fun _ _ _ => false) t := by
  obtain ⟨t, translated, typed, _⟩ := exists_of_rejectedTranslation? rejected_revokedGrant
  exact ⟨t, translated, cascade_rejected _ _ _ _ t translated typed⟩

/-- A grant passes once, and is then refused for that alone, whatever is submitted. -/
theorem replay_rejected (verifies : Verifier) (segment : Decoder) (str : Json → Str) (source : Json) (t : Translation)
    (translated : translateVector05 segment str source = .ok t) (typed : ∀ hop ∈ t.chain.hops, hop.Typed) :
    ReplayRejected verifies t := by
  obtain ⟨coherent, _⟩ := coherent_translateVector05 translated
  intro pubkeys registry unknown
  refine ⟨registry.record (.str t.chain.chainId) t.chain.hopRefs, coherent.accepts typed unknown, ?_⟩
  intro submissions again reached same
  have known : t.chain.knownTo reached = true := by
    rw [same]
    refine Transition.run_invariant (P := fun registry => t.chain.knownTo registry = true) ?_ submissions
      Chain.knownTo_record
    exact fun registry submission => Chain.knownTo_submit submission
  exact coherent.refuses typed known

theorem replay_rejected_corp : ∃ t, translateVector05 corpSegments textOf consumedGrant = .ok t ∧
    ReplayRejected (fun _ _ _ => false) t := by
  obtain ⟨t, translated, typed, _⟩ := exists_of_rejectedTranslation? rejected_consumedGrant
  exact ⟨t, translated, replay_rejected _ _ _ _ t translated typed⟩

/-- The run finds fault with a vector exactly where its source does not expect a rejection. -/
theorem run_failed (verifies : Verifier) (segment : Decoder) (str : Json → Str) (source11 source05 : Json)
    (t11 t05 : Translation) (reject11 reject05 : Bool)
    (translated11 : translateVector11 segment str source11 = .ok t11)
    (translated05 : translateVector05 segment str source05 = .ok t05)
    (typed11 : ∀ hop ∈ t11.chain.hops, hop.Typed) (typed05 : ∀ hop ∈ t05.chain.hops, hop.Typed)
    (expected11 : expectsReject t11.expected = .ok reject11)
    (expected05 : expectsReject t05.expected = .ok reject05) :
    run verifies segment str source11 source05 = .ok ((!reject11).toNat + (!reject05).toNat) := by
  obtain ⟨coherent11, root, child, artifact, two, given, revokes⟩ := coherent_translateVector11 translated11
  obtain ⟨coherent05, _⟩ := coherent_translateVector05 translated05
  have artifacts : (t11.revocation.toList.map fun artifact => readRevocation artifact.json) =
      [readRevocation artifact.json] := by
    rw [given]
    rfl
  have keepable : Keepable [readRevocation artifact.json] := by
    intro revocation member ref names
    rw [List.mem_singleton.mp member] at names
    cases names
    rfl
  have enforced := enforce75_root two keepable
    (namedHop_of_artifact (List.mem_singleton_self _) revokes rfl)
  refine bind_ok_iff.mpr ⟨t11, translated11, ?_⟩
  refine bind_ok_iff.mpr ⟨_, python_eq_ok.mpr (coherent11.accepts typed11 Chain.knownTo_empty), ?_⟩
  refine bind_ok_iff.mpr ⟨_, python_eq_ok.mpr ((congrArg (enforce75 t11.chain.json) artifacts).trans enforced), ?_⟩
  refine bind_ok_iff.mpr ⟨reject11, python_eq_ok.mpr expected11, bind_ok_iff.mpr ⟨t05, translated05, ?_⟩⟩
  refine bind_ok_iff.mpr ⟨reject05, python_eq_ok.mpr expected05, ?_⟩
  refine bind_ok_iff.mpr ⟨_, python_eq_ok.mpr (coherent05.accepts typed05 Chain.knownTo_empty), ?_⟩
  refine bind_ok_iff.mpr ⟨_, python_eq_ok.mpr (coherent05.refuses typed05 Chain.knownTo_record), ?_⟩
  cases reject11 <;> cases reject05 <;> rfl

theorem run_failed_corp : run (fun _ _ _ => false) corpSegments textOf revokedGrant consumedGrant = .ok 0 := by
  obtain ⟨t11, translated11, typed11, expected11⟩ := exists_of_rejectedTranslation? rejected_revokedGrant
  obtain ⟨t05, translated05, typed05, expected05⟩ := exists_of_rejectedTranslation? rejected_consumedGrant
  exact run_failed _ _ _ _ _ t11 t05 true true translated11 translated05 typed11 typed05 expected11 expected05

end Argentum.Delegation.Moltycel
