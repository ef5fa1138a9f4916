import Argentum.Mycelium.Chain
import Argentum.Mycelium.Recompute
import Argentum.Mycelium.Replays

/-! The two clients that ask the API whether an evidence hash is recorded: the plugin of
`plugins/agt_evidence_anchor` and `mycelium_evidence_anchor.py`. The API answers with the
record, at the top level on one path and below `trail` on the other; the hash of the record
is its `delegation_ref`. -/
namespace Argentum.Mycelium
open Argentum Text

/-- A dictionary whose keys are these names. -/
def dictOf (fields : List (String × Json)) : Json := .dict (fields.map fun field => (ofString field.1, field.2))

def textOrNone : Option String → Json
  | none => .null
  | some text => .str (ofString text)

def intOrNone : Option Int → Json
  | none => .null
  | some n => .int n

def AnchorStatus.text : AnchorStatus → String
  | .submitted => "submitted"
  | .anchored => "anchored"
  | .failed => "failed"

def FailReason.text : FailReason → String
  | .reverted => "reverted"
  | .nonArrivalTimeout => "non_arrival_timeout"

/-- A row of `trails` with the two columns that only its dictionary shows. -/
structure TrailRecord where
  row : TrailRow
  success : Int
  rootTrailId : Option String

/-- What a response of `requests` carries: the JSON or the text of `json()`'s exception, and
the text of the exception of `raise_for_status()`. -/
structure Response where
  statusCode : Nat
  body : Except Str Json
  reason : Str := []

def jsonResponse (statusCode : Nat) (body : Json) : Response := { statusCode, body := .ok body }

/-- The two requests of a client. -/
inductive Request where
  | verify (agentId actionRef : Json)
  | trail (anchorId : Str)

section
variable (parseFloat : Str → Float64) (printFloat : Float64 → String)

def Cell.json (cell : Option Cell) : Json := textOrNone (cell.map (Cell.read printFloat))

/-- `_row_to_dict`. The statement behind `get_trail_by_action_ref` and
`get_trail_by_payment_hash` does not select the reason of a failure. -/
def rowToDict (selectsReason : Bool) (trail : TrailRecord) : List (String × Json) :=
  let row := trail.row
  [("trail_id", .str (ofString row.trailId)),
    ("agent_id", .str (ofString row.agentId)),
    ("service", .str (ofString (row.service.read printFloat))),
    ("operation", .str (ofString row.operation)),
    ("timestamp", .int row.timestamp),
    ("karma_at_time", intOrNone row.karmaAtTime),
    ("success", .bool (decide (trail.success ≠ 0))),
    ("signature_ref", .str (ofString row.signatureRef)),
    ("scope", textOrNone row.scope),
    ("delegation_ref", Cell.json printFloat row.delegationRef),
    ("parent_trail_id", textOrNone row.parentTrailId),
    ("root_trail_id", textOrNone trail.rootTrailId),
    ("negotiation_ref", Cell.json printFloat row.negotiationRef),
    ("negotiation_ref_status", textOrNone row.negotiationRefStatus),
    ("action_ref", textOrNone row.actionRef),
    ("tx_hash", textOrNone row.txHash),
    ("origin", .str (ofString row.origin)),
    ("anchor_status", textOrNone (row.anchorStatus.map AnchorStatus.text)),
    ("anchor_block", intOrNone row.anchorBlock),
    ("anchor_fail_reason", if selectsReason then textOrNone (row.anchorFailReason.map FailReason.text) else .null),
    ("preimage_json", match row.preimageJson with | none => .null | some text => .str text)]

def AnchorProof.json : Option AnchorProof → Json
  | none => .null
  | some proof => dictOf [("preimage", proof.preimage), ("hash_algo", .str (ofString "sha256")),
      ("preimage_format", .str (ofString "jcs-rfc8785")), ("action_ref_verified", .bool proof.actionRefVerified)]

/-- The page of a record: its dictionary less the preimage, with the source and the proof. -/
def pageFields (trail : TrailRecord) : List (String × Json) :=
  ("source", .str (ofString "mycelium")) ::
    (rowToDict printFloat true trail).filter (fun field => field.1 ≠ "preimage_json") ++
    [("anchor_proof", AnchorProof.json (anchorProof parseFloat trail.row))]

/-- The response of `GET /trails/verify` for a record. -/
def TrailRecord.found (trail : TrailRecord) : Response :=
  jsonResponse 200 (dictOf [("verified", .bool true), ("trail", dictOf (rowToDict printFloat false trail))])

/-- The response of `GET /trails/{trail_id}` for a record. -/
def TrailRecord.page (trail : TrailRecord) : Response :=
  jsonResponse 200 (dictOf (pageFields parseFloat printFloat trail))

/-- The hash that a record stores. -/
def TrailRecord.stored (trail : TrailRecord) : Option Str :=
  trail.row.delegationRef.map fun cell => ofString (cell.read printFloat)

/-- `proxy_trails_verify` -/
def proxyTrailsVerify (trails : List TrailRecord) (agentId actionRef paymentHash : Option String) : Response :=
  let answer : Option TrailRecord → Response
    | none => jsonResponse 404 (dictOf [("verified", .bool false)])
    | some trail => trail.found printFloat
  match given paymentHash, given agentId, given actionRef with
  | some hash, _, _ => answer (trails.find? fun trail => trail.stored printFloat = some (ofString hash))
  | none, some agentId, some actionRef => answer (trails.find? fun trail => trail.row.ofPair agentId actionRef)
  | none, _, _ =>
      jsonResponse 422 (dictOf [("detail", .str (ofString "provide action_ref+agent_id or payment_hash"))])

/-- `get_trail` of an id that the marketplace has no trail of. -/
def getTrailPage (trails : List TrailRecord) (trailId : String) : Response :=
  match trails.find? fun trail => trail.row.trailId = trailId with
  | none => jsonResponse 404 (dictOf [("detail", .str (ofString "trail not found"))])
  | some trail => trail.page parseFloat printFloat

/-- What the endpoint of a request responds for a record. -/
def TrailRecord.answer (trail : TrailRecord) : Request → Response
  | .verify .. => trail.found printFloat
  | .trail _ => trail.page parseFloat printFloat

/-- `requests.get` where the API answers every request with this record. -/
def TrailRecord.serve (trail : TrailRecord) (request : Request) : Except Str Response :=
  .ok (trail.answer parseFloat printFloat request)

end

inductive AnchorVerifyStatus where
  | verified | notFound | hashMismatch | backendUnavailable
  deriving DecidableEq

/-- The transaction, and the explorer whose address is followed by it. -/
structure InclusionProof where
  txHash : Json
  explorer : String

/-- The text of an exception, or `stored: ` and the value. -/
inductive ErrorDetail where
  | raised (text : Str)
  | stored (value : Json)

structure AnchorVerifyResult where
  status : AnchorVerifyStatus
  evidenceHash : Str
  inclusionProof : Option InclusionProof := none
  errorDetail : Option ErrorDetail := none

structure AnchorReceipt where
  anchorId : Str
  metadata : Json

/-- `value.get(name)` -/
def readField (value : Json) (name : String) : Except PyError Json :=
  if value.isDict then .ok (value.get (ofString name)) else .error .attributeError

/-- The request of `verify`, for a client of this agent. -/
def AnchorReceipt.request (agentId : Str) (receipt : AnchorReceipt) : Request :=
  let actionRef := receipt.metadata.get (ofString "action_ref")
  if actionRef.truthy then .verify (receipt.metadata.getD (ofString "agent_id") (.str agentId)) actionRef
  else .trail receipt.anchorId

/-- `raise_for_status()` and then `json()`: what they return, or the text they raise. -/
def Response.data (response : Response) : Except Str Json :=
  if 400 ≤ response.statusCode ∧ response.statusCode < 600 then .error response.reason else response.body

def AnchorReceipt.inclusionProof (receipt : AnchorReceipt) (explorer : String) (txHash : Json) :
    Option InclusionProof :=
  let txHash := txHash.or (receipt.metadata.getD (ofString "tx_hash") (.str []))
  if txHash.truthy then some ⟨txHash, explorer⟩ else none

/-- The end of both functions: the stored value is compared if there is one. -/
def AnchorReceipt.verdict (receipt : AnchorReceipt) (evidenceHash : Str) (explorer : String) (stored txHash : Json) :
    AnchorVerifyResult :=
  if stored.truthy = true ∧ stored.eq (.str evidenceHash) = false then
    { status := .hashMismatch, evidenceHash, errorDetail := some (.stored stored) }
  else { status := .verified, evidenceHash, inclusionProof := receipt.inclusionProof explorer txHash }

namespace Plugin

/-- `MyceliumAnchor.verify` of the plugin, from the parsed response on. -/
def judge (evidenceHash : Str) (receipt : AnchorReceipt) (data : Json) : Except PyError AnchorVerifyResult := do
  let inner ← readField data "trail"
  let trail := if inner.isDict then inner else data
  let verified ← readField data "verified"
  let trailId ← readField trail "trail_id"
  if verified.truthy = false ∧ trailId.truthy = false then return { status := .notFound, evidenceHash }
  let delegationRef ← readField trail "delegation_ref"
  let paymentHash ← readField trail "payment_hash"
  let txHash ← readField trail "tx_hash"
  return receipt.verdict evidenceHash "https://arbiscan.io/tx/" (delegationRef.or paymentHash) txHash

/-- `MyceliumAnchor.verify` of the plugin. -/
def verify (get : Request → Except Str Response) (agentId evidenceHash : Str) (receipt : AnchorReceipt) :
    Except PyError AnchorVerifyResult :=
  match get (receipt.request agentId) with
  | .error text => .ok { status := .backendUnavailable, evidenceHash, errorDetail := some (.raised text) }
  | .ok response =>
      if response.statusCode = 404 then .ok { status := .notFound, evidenceHash }
      else
        match response.data with
        | .error text => .ok { status := .backendUnavailable, evidenceHash, errorDetail := some (.raised text) }
        | .ok data => judge evidenceHash receipt data

end Plugin

namespace Standalone

/-- `MyceliumAnchor.verify` of `mycelium_evidence_anchor.py`, from the parsed response on. It
reads every field at the top level, and `claims` for the hash. -/
def judge (evidenceHash : Str) (receipt : AnchorReceipt) (data : Json) : Except PyError AnchorVerifyResult := do
  let verified ← readField data "verified"
  if verified.truthy = false ∧ data.has (ofString "trail_id") = false then return { status := .notFound, evidenceHash }
  let claimed ← readField (data.getD (ofString "claims") (.dict [])) "evidence_hash"
  let paymentHash ← readField data "payment_hash"
  let txHash ← readField data "tx_hash"
  return receipt.verdict evidenceHash "https://basescan.org/tx/" (claimed.or paymentHash) txHash

def verify (get : Request → Except Str Response) (agentId evidenceHash : Str) (receipt : AnchorReceipt) :
    Except PyError AnchorVerifyResult :=
  match get (receipt.request agentId) with
  | .error text => .ok { status := .backendUnavailable, evidenceHash, errorDetail := some (.raised text) }
  | .ok response =>
      match response.data with
      | .error text => .ok { status := .backendUnavailable, evidenceHash, errorDetail := some (.raised text) }
      | .ok data => judge evidenceHash receipt data

end Standalone

/-- A verdict on a record that exists says whether its hash is this one. -/
structure Attests (stored : Option Str) (evidenceHash : Str) (outcome : Except PyError AnchorVerifyResult) : Prop where
  verified : ∀ result, outcome = .ok result → result.status = .verified → stored = some evidenceHash
  mismatch : stored ≠ some evidenceHash → ∃ result, outcome = .ok result ∧ result.status = .hashMismatch

/-- The request asks for a record by its action reference. -/
def AnchorReceipt.byActionRef (receipt : AnchorReceipt) : Prop :=
  (receipt.metadata.get (ofString "action_ref")).truthy = true

section
variable {fields : List (String × Json)} {name : String}

theorem ofString_injective : Function.Injective ofString := by
  have apart : Function.Injective ofChar := by
    intro c d same
    have codes : c.toNat = d.toNat := congrArg (fun code : CodePoint => code.val) same
    exact Char.toNat_inj.mp codes
  intro s t same
  exact String.toList_injective (List.map_injective_iff.mpr apart same)

theorem lookup_dictOf : (fields.map fun field => (ofString field.1, field.2)).lookup (ofString name) =
    fields.lookup name := by
  induction fields with
  | nil => rfl
  | cons field rest ih =>
      have keys : (ofString name == ofString field.1) = (name == field.1) := by
        rw [Bool.eq_iff_iff, beq_iff_eq, beq_iff_eq, ofString_injective.eq_iff]
      rw [List.map_cons, List.lookup_cons, List.lookup_cons, ih, keys]

theorem get_dictOf : (dictOf fields).get (ofString name) = (fields.lookup name).getD .null := by
  rw [dictOf, Json.get, lookup_dictOf]

theorem readField_dictOf : readField (dictOf fields) name = .ok ((fields.lookup name).getD .null) := by
  rw [← get_dictOf]
  rfl

theorem has_dictOf : (dictOf fields).has (ofString name) = (fields.lookup name).isSome := by
  rw [dictOf, Json.has, lookup_dictOf]

end

section
variable {parseFloat : Str → Float64} {printFloat : Float64 → String} {trail : TrailRecord} {evidenceHash agentId : Str}
  {receipt : AnchorReceipt}

/-- The text of a nullable column, or nothing. -/
def orNull : Option Str → Json
  | none => .null
  | some text => if text = [] then .null else .str text

theorem delegation_or_null :
    (Cell.json printFloat trail.row.delegationRef).or .null = orNull (trail.stored printFloat) := by
  unfold Cell.json TrailRecord.stored
  cases trail.row.delegationRef with
  | none => rfl
  | some cell =>
      simp only [Option.map_some, textOrNone, Json.or, Json.truthy, orNull, decide_eq_true_eq, ite_not]

/-- The stored value makes a mismatch if it is a text that is not empty and not the hash. -/
theorem status_verdict (stored : Option Str) (explorer : String) (txHash : Json) :
    (receipt.verdict evidenceHash explorer (orNull stored) txHash).status =
      if ∃ text ∈ stored, text ≠ [] ∧ text ≠ evidenceHash then .hashMismatch else .verified := by
  unfold AnchorReceipt.verdict
  cases stored with
  | none => simp [orNull, Json.truthy]
  | some text =>
      by_cases empty : text = []
      · simp [orNull, empty, Json.truthy]
      · have compared : Json.eq (.str text) (.str evidenceHash) = decide (text = evidenceHash) := by
          rw [Bool.eq_iff_iff, Json.eq_str, Json.str.injEq, decide_eq_true_eq]
        simp only [orNull, empty, if_false, Json.truthy, Option.mem_some_iff, exists_eq_left', compared]
        by_cases same : text = evidenceHash <;> simp [same, empty]

/-- The fields that a client reads of a record, and those of them that no record has. -/
structure Shows (printFloat : Float64 → String) (trail : TrailRecord) (fields : List (String × Json)) : Prop where
  trailId : fields.lookup "trail_id" = some (.str (ofString trail.row.trailId))
  delegationRef : fields.lookup "delegation_ref" = some (Cell.json printFloat trail.row.delegationRef)
  txHash : fields.lookup "tx_hash" = some (textOrNone trail.row.txHash)
  paymentHash : fields.lookup "payment_hash" = none
  claims : fields.lookup "claims" = none
  verified : fields.lookup "verified" = none
  trail : fields.lookup "trail" = none

theorem shows_rowToDict (selectsReason : Bool) : Shows printFloat trail (rowToDict printFloat selectsReason trail) := by
  constructor <;> simp [rowToDict, List.lookup_cons]

theorem shows_page : Shows printFloat trail (pageFields parseFloat printFloat trail) := by
  constructor <;> simp [pageFields, rowToDict, List.lookup_cons]

variable {fields : List (String × Json)}

/-- The plugin reads a record below `trail`. -/
theorem Shows.plugin_below (shown : Shows printFloat trail fields) :
    Plugin.judge evidenceHash receipt (dictOf [("verified", .bool true), ("trail", dictOf fields)]) =
      .ok (receipt.verdict evidenceHash "https://arbiscan.io/tx/" (orNull (trail.stored printFloat))
        (textOrNone trail.row.txHash)) := by
  have inner : (dictOf fields).isDict = true := rfl
  simp [Plugin.judge, readField_dictOf, List.lookup_cons, inner, shown.trailId, shown.delegationRef, shown.txHash,
    shown.paymentHash, bind, Except.bind, pure, Except.pure, Json.truthy, ← delegation_or_null]

/-- At the top level it asks for a trail id instead. -/
theorem Shows.plugin_top (shown : Shows printFloat trail fields) (identified : trail.row.trailId ≠ "") :
    Plugin.judge evidenceHash receipt (dictOf fields) =
      .ok (receipt.verdict evidenceHash "https://arbiscan.io/tx/" (orNull (trail.stored printFloat))
        (textOrNone trail.row.txHash)) := by
  have there : ofString trail.row.trailId ≠ [] := fun empty => identified (ofString_injective empty)
  simp [Plugin.judge, readField_dictOf, shown.trail, shown.verified, shown.trailId, shown.delegationRef, shown.txHash,
    shown.paymentHash, bind, Except.bind, pure, Except.pure, Json.truthy, Json.isDict, there, ← delegation_or_null]

theorem Shows.plugin_unnamed (shown : Shows printFloat trail fields) (unnamed : trail.row.trailId = "") :
    Plugin.judge evidenceHash receipt (dictOf fields) = .ok { status := .notFound, evidenceHash } := by
  have absent : ofString trail.row.trailId = [] := by rw [unnamed]; rfl
  simp [Plugin.judge, readField_dictOf, shown.trail, shown.verified, shown.trailId,
    bind, Except.bind, pure, Except.pure, Json.truthy, Json.isDict, absent]

/-- The standalone client finds no `claims` and no `payment_hash`, so it has nothing to compare. -/
theorem Shows.standalone_top (shown : Shows printFloat trail fields) :
    ∃ proof, Standalone.judge evidenceHash receipt (dictOf fields) =
      .ok { status := .verified, evidenceHash, inclusionProof := proof } := by
  have absent : (dictOf fields).getD (ofString "claims") (.dict []) = dictOf [] := by
    rw [dictOf, Json.getD, lookup_dictOf, shown.claims]
    rfl
  refine ⟨receipt.inclusionProof "https://basescan.org/tx/" (textOrNone trail.row.txHash), ?_⟩
  simp [Standalone.judge, AnchorReceipt.verdict, readField_dictOf, has_dictOf, absent, shown.verified, shown.trailId,
    shown.txHash, shown.paymentHash, bind, Except.bind, pure, Except.pure, Json.truthy, Json.or]

theorem standalone_below (inner : Json) :
    ∃ proof, Standalone.judge evidenceHash receipt (dictOf [("verified", .bool true), ("trail", inner)]) =
      .ok { status := .verified, evidenceHash, inclusionProof := proof } := by
  have absent :
      (dictOf [("verified", .bool true), ("trail", inner)]).getD (ofString "claims") (.dict []) = dictOf [] := by
    rw [dictOf, Json.getD, lookup_dictOf]
    simp [List.lookup_cons, dictOf]
  refine ⟨receipt.inclusionProof "https://basescan.org/tx/" .null, ?_⟩
  simp [Standalone.judge, AnchorReceipt.verdict, readField_dictOf, List.lookup_cons, absent, bind, Except.bind, pure,
    Except.pure, Json.truthy, Json.or]

theorem proxyTrailsVerify_found {trails : List TrailRecord} {agent actionRef : String} (agentGiven : agent ≠ "")
    (refGiven : actionRef ≠ "") (first : trails.find? (fun trail => trail.row.ofPair agent actionRef) = some trail) :
    proxyTrailsVerify printFloat trails (some agent) (some actionRef) none =
      trail.answer parseFloat printFloat (.verify (.str (ofString agent)) (.str (ofString actionRef))) := by
  have filled : ∀ {text : String}, text ≠ "" → given (some text) = some text := fun there => by simp [given, there]
  rw [proxyTrailsVerify, filled agentGiven, filled refGiven]
  simp only [given, Option.filter_none, first]
  rfl

theorem getTrailPage_found {trails : List TrailRecord} {trailId : String}
    (first : trails.find? (fun trail => trail.row.trailId = trailId) = some trail) :
    getTrailPage parseFloat printFloat trails trailId =
      trail.answer parseFloat printFloat (.trail (ofString trailId)) := by
  rw [getTrailPage, first]
  rfl

theorem plugin_verify_read (asked : receipt.byActionRef ∨ trail.row.trailId ≠ "") :
    Plugin.verify (trail.serve parseFloat printFloat) agentId evidenceHash receipt =
      .ok (receipt.verdict evidenceHash "https://arbiscan.io/tx/" (orNull (trail.stored printFloat))
        (textOrNone trail.row.txHash)) := by
  by_cases byRef : receipt.byActionRef
  · have request : receipt.request agentId = .verify (receipt.metadata.getD (ofString "agent_id") (.str agentId))
        (receipt.metadata.get (ofString "action_ref")) := if_pos byRef
    rw [← (shows_rowToDict false).plugin_below, Plugin.verify, request]
    rfl
  · have request : receipt.request agentId = .trail receipt.anchorId := if_neg byRef
    have shown : Shows printFloat trail (pageFields parseFloat printFloat trail) := shows_page
    rw [← shown.plugin_top (asked.resolve_left byRef), Plugin.verify, request]
    rfl

theorem plugin_verify_unnamed (byId : ¬ receipt.byActionRef) (unnamed : trail.row.trailId = "") :
    Plugin.verify (trail.serve parseFloat printFloat) agentId evidenceHash receipt =
      .ok { status := .notFound, evidenceHash } := by
  have request : receipt.request agentId = .trail receipt.anchorId := if_neg byId
  have shown : Shows printFloat trail (pageFields parseFloat printFloat trail) := shows_page
  rw [Plugin.verify, request]
  exact shown.plugin_unnamed unnamed

theorem standalone_verify : ∃ proof,
    Standalone.verify (trail.serve parseFloat printFloat) agentId evidenceHash receipt =
      .ok { status := .verified, evidenceHash, inclusionProof := proof } := by
  unfold Standalone.verify
  cases receipt.request agentId with
  | verify => exact standalone_below _
  | trail => exact shows_page.standalone_top

theorem attests_iff_status {stored : Option Str} {result : AnchorVerifyResult} :
    Attests stored evidenceHash (.ok result) ↔
      (result.status = .verified → stored = some evidenceHash) ∧
        (stored ≠ some evidenceHash → result.status = .hashMismatch) := by
  constructor
  · intro attests
    refine ⟨attests.verified result rfl, fun other => ?_⟩
    obtain ⟨found, returned, mismatch⟩ := attests.mismatch other
    cases returned
    exact mismatch
  · rintro ⟨verified, mismatch⟩
    refine ⟨fun found same => ?_, fun other => ⟨result, rfl, mismatch other⟩⟩
    cases same
    exact verified

theorem attests_verdict_iff {stored : Option Str} {explorer : String} {txHash : Json} :
    Attests stored evidenceHash (.ok (receipt.verdict evidenceHash explorer (orNull stored) txHash)) ↔
      stored = some evidenceHash ∨ ∃ text ∈ stored, text ≠ [] := by
  rw [attests_iff_status, status_verdict]
  cases stored with
  | none => simp
  | some text =>
      simp only [Option.mem_some_iff, exists_eq_left', Option.some.injEq, ne_eq]
      by_cases empty : text = [] <;> by_cases same : text = evidenceHash <;> simp [empty, same]

theorem attests_plugin_iff :
    Attests (trail.stored printFloat) evidenceHash
        (Plugin.verify (trail.serve parseFloat printFloat) agentId evidenceHash receipt) ↔
      trail.stored printFloat = some evidenceHash ∨
        (∃ text ∈ trail.stored printFloat, text ≠ []) ∧ (receipt.byActionRef ∨ trail.row.trailId ≠ "") := by
  by_cases asked : receipt.byActionRef ∨ trail.row.trailId ≠ ""
  · rw [plugin_verify_read asked, attests_verdict_iff, and_iff_left asked]
  · obtain ⟨byId, unnamed⟩ := not_or.mp asked
    rw [plugin_verify_unnamed byId (not_not.mp unnamed), attests_iff_status, iff_false_intro asked]
    simp

theorem attests_standalone_iff :
    Attests (trail.stored printFloat) evidenceHash
        (Standalone.verify (trail.serve parseFloat printFloat) agentId evidenceHash receipt) ↔
      trail.stored printFloat = some evidenceHash := by
  have served : ∃ proof, Standalone.verify (trail.serve parseFloat printFloat) agentId evidenceHash receipt =
      .ok { status := .verified, evidenceHash, inclusionProof := proof } := standalone_verify
  obtain ⟨proof, verified⟩ := served
  rw [verified, attests_iff_status]
  simp

end

/-- Both clients tell of a record what it stores. -/
def BothAttest (parseFloat : Str → Float64) (printFloat : Float64 → String) (trail : TrailRecord)
    (agentId evidenceHash : Str) (receipt : AnchorReceipt) : Prop :=
  Attests (trail.stored printFloat) evidenceHash
      (Plugin.verify (trail.serve parseFloat printFloat) agentId evidenceHash receipt) ∧
    Attests (trail.stored printFloat) evidenceHash
      (Standalone.verify (trail.serve parseFloat printFloat) agentId evidenceHash receipt)

/-- They do so where it stores the hash. The plugin alone does so of every text that is not
empty, if it asks by action reference or the record has an id; the standalone client passes
whatever is stored. -/
theorem bothAttest_iff (parseFloat : Str → Float64) (printFloat : Float64 → String) (trail : TrailRecord)
    (agentId evidenceHash : Str) (receipt : AnchorReceipt) :
    (BothAttest parseFloat printFloat trail agentId evidenceHash receipt ↔
      trail.stored printFloat = some evidenceHash) ∧
    (Attests (trail.stored printFloat) evidenceHash
        (Plugin.verify (trail.serve parseFloat printFloat) agentId evidenceHash receipt) ↔
      trail.stored printFloat = some evidenceHash ∨
        (∃ text ∈ trail.stored printFloat, text ≠ []) ∧ (receipt.byActionRef ∨ trail.row.trailId ≠ "")) ∧
    (Attests (trail.stored printFloat) evidenceHash
        (Standalone.verify (trail.serve parseFloat printFloat) agentId evidenceHash receipt) ↔
      trail.stored printFloat = some evidenceHash) := by
  refine ⟨?_, attests_plugin_iff, attests_standalone_iff⟩
  rw [BothAttest, attests_plugin_iff, attests_standalone_iff]
  exact and_iff_right_of_imp Or.inl

/-- A record of `POST /nexus/trail`, with the `payment_hash` of the request. -/
def paidTrail (paymentHash : Option String) : TrailRecord where
  row := { trailId := "t", agentId := "agent", service := .text "agt-evidence", operation := "seal", timestamp := 0
           signatureRef := "signed", scope := none, delegationRef := paymentHash.map Cell.text, negotiationRef := none
           negotiationRefStatus := none, origin := "nexus" }
  success := 1
  rootTrailId := none

/-- A record without a hash passes the plugin, and one with any other hash the standalone client. -/
theorem not_bothAttest_unpaid :
    let receipt : AnchorReceipt := ⟨ofString "t", .dict []⟩
    (∃ result, Plugin.verify ((paidTrail none).serve (fun _ => .nan) fun _ => "") [] (ofString "e") receipt =
      .ok result ∧ result.status = .verified) ∧
    (∃ result, Standalone.verify ((paidTrail (some "f")).serve (fun _ => .nan) fun _ => "") [] (ofString "e") receipt =
      .ok result ∧ result.status = .verified) ∧
    ¬ BothAttest (fun _ => .nan) (fun _ => "") (paidTrail none) [] (ofString "e") receipt ∧
    ¬ BothAttest (fun _ => .nan) (fun _ => "") (paidTrail (some "f")) [] (ofString "e") receipt := by
  have missing : (paidTrail none).stored (fun _ => "") = none := rfl
  have other : (paidTrail (some "f")).stored (fun _ => "") ≠ some (ofString "e") := by decide
  refine ⟨⟨_, plugin_verify_read (Or.inr (by decide)), ?_⟩, ?_, fun both => ?_, fun both => ?_⟩
  · rw [status_verdict, missing]
    simp
  · obtain ⟨proof, verified⟩ := standalone_verify
    exact ⟨_, verified, rfl⟩
  · cases missing.symm.trans (attests_standalone_iff.mp both.2)
  · exact other (attests_standalone_iff.mp both.2)

end Argentum.Mycelium
