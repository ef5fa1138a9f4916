import Argentum.Mycelium.Domain
import Argentum.Mycelium.Record

/-! The receipt of an action as `POST /nexus/trail` takes it: any JSON value. What is
accepted names an agent, an action, a scope and a time in the profile's domain, and
carries the hash of the four. -/
namespace Argentum.Mycelium
open Argentum Text

/-- `str(value)` of what the two time grammars tell apart: no list and no dictionary
has a text in them. -/
def pyStr : Json → Str
  | .null => ofString "None"
  | .bool b => ofString (if b then "True" else "False")
  | .int n => Jcs.intText n
  | .float .nan => ofString "nan"
  | .float (.inf negative) => ofString (if negative then "-inf" else "inf")
  | .float (.finite negative text) => (if negative then [45] else []) ++ text.text
  | .str s => s
  | .list _ => ofString "[...]"
  | .dict _ => ofString "{...}"

/-- The preimage of an action reference. -/
def preimage (agentId actionType scope timestamp : Str) : Json :=
  .dict [(ofString "agent_id", .str agentId), (ofString "action_type", .str actionType),
    (ofString "scope", .str scope), (ofString "timestamp", .str timestamp)]

/-- `hashlib.sha256(jcs_bytes(preimage)).hexdigest()`. The preimage is flat, and the stack lasts for it. -/
def actionRefOf (agentId actionType scope timestamp : Str) : Except Raised Str := do
  let bytes ← fromPy (Jcs.boundlessBytes (preimage agentId actionType scope timestamp))
  return hexOf (Sha256.sha256 bytes)

/-- What a receipt that passed every check says. -/
structure Receipt where
  actionRef : String
  service : Json
  agentId : String
  actionType : Str
  scope : Str
  timestamp : Str
  paymentHash : Json
  negotiationRef : Json
  negotiationRefStatus : Option String
  origin : String
  billingApiKey : Option Str

/-- `negotiation_ref_status not in NEGOTIATION_REF_STATUSES`, and the member it is. -/
def statusMember : Json → Except Raised (Option String)
  | .str s => .ok (negotiationRefStatuses.find? fun status => ofString status = s)
  | .list _ => .error (.python .typeError)
  | .dict _ => .error (.python .typeError)
  | _ => .ok none

/-- The vocabulary of `negotiation_ref_status`, and that `ok` goes with a reference. -/
def checkNegotiation (negotiationRef status : Json) : Except Raised (Except Refusal (Option String)) :=
  if status.isNull then return .ok none
  else do
    match ← statusMember status with
    | none => return .error ⟨400, "invalid negotiation_ref_status"⟩
    | some member =>
        if (member == "ok") != !negotiationRef.isNull then
          return .error ⟨400, "negotiation_ref_status inconsistent with negotiation_ref"⟩
        else return .ok (some member)

/-- `(body.get("api_key") or "").strip() or None` -/
def billingKey (value : Json) : Except Raised (Option Str) :=
  match value.or (.str []) with
  | .str s => .ok (if strip s = [] then none else some (strip s))
  | _ => .error .attributeError

/-- The checks of the handler, up to the first statement. -/
def readReceipt (body : Json) : Except Raised (Except Refusal Receipt) :=
  if !body.isDict then .error .attributeError
  else do
    let field (name : String) := body.getD (ofString name)
    let actionRef := field "action_ref" (.str [])
    let service := field "service" (.str [])
    let paymentHash := (field "payment_hash" (.str [])).or (.str [])
    let negotiationRef := (field "negotiation_ref" .null).or .null
    let declared := field "negotiation_ref_status" .null
    let status :=
      if (field "negotiation_ref" .null).eq (.str []) && declared.isNull then .str (ofString "malformed_empty")
      else declared
    let claimed := (field "preimage" .null).or (.dict [])
    let origin :=
      if (field "origin" (.str (ofString "nexus"))).eq (.str (ofString "pioneer")) then "pioneer" else "nexus"
    let billingApiKey ← billingKey (field "api_key" .null)
    if !claimed.isDict then .error .attributeError
    else do
      let agentId := claimed.getD (ofString "agent_id") (.str [])
      let actionType := claimed.getD (ofString "action_type") (.str [])
      let scope := claimed.getD (ofString "scope") (.str [])
      let ts := (claimed.get (ofString "timestamp")).or (claimed.get (ofString "ts"))
      if !(actionRef.truthy && service.truthy && agentId.truthy && actionType.truthy && !ts.isNull) then
        return .error ⟨400, "action_ref, service, preimage.\x7bagent_id,action_type,scope,timestamp\x7d required"⟩
      else do
        match ← validateDomain agentId actionType scope (pyStr ts) true with
        | some _ => return .error ⟨422, "action_ref mismatch"⟩
        | none =>
            match agentId, actionType, scope with
            | .str agent, .str action, .str extent => do
                let expected ← actionRefOf agent action extent (pyStr ts)
                if !actionRef.eq (.str expected) then return .error ⟨422, "action_ref mismatch"⟩
                else do
                  match ← checkNegotiation negotiationRef status with
                  | .error refusal => return .error refusal
                  | .ok member => do
                      let actionRef ← bindStr expected
                      let agentId ← bindStr agent
                      return .ok { actionRef, service, agentId, actionType := action, scope := extent
                                   timestamp := pyStr ts, paymentHash, negotiationRef
                                   negotiationRefStatus := member, origin, billingApiKey }
            | _, _, _ => .error .attributeError

/-- The trail a receipt asks for; `record_trail` skips the monthly cap for a consumed credit. -/
def Receipt.trail (receipt : Receipt) (settings : Settings) (consumed : Bool) : NewTrail :=
  { agentId := receipt.agentId
    service := receipt.service
    operation := receipt.actionType
    nonce := ofString receipt.actionRef
    rateLimitCap := settings.trailDailyLimit
    scope := if receipt.scope = [] then none else some receipt.scope
    delegationRef := receipt.paymentHash.or .null
    negotiationRef := receipt.negotiationRef
    negotiationRefStatus := receipt.negotiationRefStatus
    skipMonthlyLimit := consumed
    origin := receipt.origin }

end Argentum.Mycelium
