import Argentum.Community.Dispute
import Argentum.Core.Transition

/-! The community server as a machine. A state is the database, the REST
attestations suspended at their awaited marks lookup, and the ledger of the run
so far. A label is one atomic stretch of one handler with everything it takes
from outside; a refused request changes nothing. -/
namespace Argentum.Community
open Argentum

/-- A REST `attest_action` between its checks and its insert, with the row it read. -/
structure Suspended where
  actionId : String
  req : AttestRequest
  action : Action
  deriving DecidableEq, Repr

structure System where
  db : Database
  suspended : List Suspended
  ledger : List LedgerEntry

/-- A fresh server, on tables that may already hold karma. -/
def System.start (wisdom : Table Wisdom) : System := ⟨{ Database.empty with wisdom }, [], []⟩

/-- One atomic stretch of a handler. `creditKarma` stands for the other
endpoints, which reach these tables through `upsert_wisdom` only. -/
inductive Op where
  | submitAction (actionId : String) (req : ActionSubmit) (verified : Bool)
  | attestBegin (now : Instant) (attestId actionId : String) (req : AttestRequest)
  | attestResume (index : Nat) (now : Instant) (attestId : String) (markCount : Nat) (verified : Bool)
  | mcpAttestAction (now : Instant) (attestId actionId attesterId attesterName : String)
  | paymentWebhook (now : Instant) (attestId : String) (authentic : Bool) (event : PaymentEvent)
  | reportAction (now : Instant) (reportId actionId : String) (req : ReportRequest) (verified : Bool)
  | confirmSlash (now : Instant) (actionId confirmerId : String)
  | openDispute (now : Instant) (disputeId actionId : String) (req : DisputeRequest) (verified : Bool)
  | klerosRuling (now : Instant) (authentic : Bool) (actionId : String) (ruling : Int)
  | creditKarma (entityId entityName entityType : String) (karmaDelta : ℚ) (action : Bool)
      (lastAction : Option Instant)

/-- Commit a handler's outcome, or nothing where it refused. -/
def System.commit {R : Type} (s : System) : Except Failure (Outcome R) → System
  | .error _ => s
  | .ok outcome => { s with db := outcome.db, ledger := s.ledger ++ outcome.ledger }

def System.suspend (s : System) (request : Suspended) : System :=
  { s with suspended := s.suspended ++ [request] }

/-- The suspended request at an index runs on and leaves the list. -/
def System.release (s : System) (index : Nat) : System :=
  { s with suspended := s.suspended.eraseIdx index }

/-- A genesis attestor has no await, so its request runs through at once. -/
def System.attestBegin [SqliteSum] (s : System) (now : Instant) (attestId actionId : String) (req : AttestRequest) :
    System :=
  match Rest.attestChecks s.db now actionId req with
  | .error _ => s
  | .ok action =>
      if req.attesterId ∈ genesisAttestors then
        s.commit (Rest.attestFinish s.db now attestId actionId action req 0 false)
      else s.suspend ⟨actionId, req, action⟩

def System.attestResume [SqliteSum] (s : System) (index : Nat) (now : Instant) (attestId : String) (markCount : Nat)
    (verified : Bool) : System :=
  match s.suspended[index]? with
  | none => s
  | some request => (s.release index).commit
      (Rest.attestFinish s.db now attestId request.actionId request.action request.req markCount verified)

def System.creditKarma (s : System) (entityId entityName entityType : String) (karmaDelta : ℚ)
    (action : Bool) (lastAction : Option Instant) : System :=
  { s with db := { s.db with
      wisdom := upsertWisdom s.db.wisdom entityId entityName entityType karmaDelta action false
        lastAction } }

def System.step [SqliteSum] (s : System) : Op → System
  | .submitAction actionId req verified => s.commit (Community.submitAction s.db actionId req verified)
  | .attestBegin now attestId actionId req => s.attestBegin now attestId actionId req
  | .attestResume index now attestId markCount verified =>
      s.attestResume index now attestId markCount verified
  | .mcpAttestAction now attestId actionId attesterId attesterName =>
      s.commit (Mcp.attestAction s.db now attestId actionId attesterId attesterName)
  | .paymentWebhook now attestId authentic event =>
      s.commit (Community.paymentWebhook s.db now attestId authentic event)
  | .reportAction now reportId actionId req verified =>
      s.commit (Community.reportAction s.db now reportId actionId req verified)
  | .confirmSlash now actionId confirmerId =>
      s.commit (Community.confirmSlash s.db now actionId confirmerId)
  | .openDispute now disputeId actionId req verified =>
      s.commit (Community.openDispute s.db now disputeId actionId req verified)
  | .klerosRuling now authentic actionId ruling =>
      s.commit (Community.klerosRuling s.db now authentic actionId ruling)
  | .creditKarma entityId entityName entityType karmaDelta action lastAction =>
      s.creditKarma entityId entityName entityType karmaDelta action lastAction

/-- The attestation of an action a step is about to insert, with its weight.
None where the request is refused, only suspends, or finds its id taken. -/
def System.attests (s : System) : Op → Option (String × ℚ)
  | .attestBegin now attestId actionId req =>
      match Rest.attestChecks s.db now actionId req with
      | .error _ => none
      | .ok _ =>
          if req.attesterId ∈ genesisAttestors ∧ s.db.attestations.find? attestId = none then
            some (actionId, 1)
          else none
  | .attestResume index _ attestId markCount verified =>
      match s.suspended[index]? with
      | none => none
      | some request =>
          match Rest.attestWeight s.db request.req markCount verified with
          | .error _ => none
          | .ok (_, weight) =>
              if s.db.attestations.find? attestId = none then some (request.actionId, weight) else none
  | .mcpAttestAction _ attestId actionId attesterId _ =>
      match Mcp.attestChecks s.db actionId attesterId with
      | .error _ => none
      | .ok _ =>
          if s.db.attestations.find? attestId = none then
            some (actionId, Mcp.attestWeight s.db attesterId)
          else none
  | _ => none

/-- A REST or MCP attestation of the action that brings its weight to the threshold. -/
def System.Reaches [SqliteSum] (s : System) (op : Op) (actionId : String) : Prop :=
  ∃ weight, s.attests op = some (actionId, weight) ∧
    weightThreshold ≤ SqliteSum.sum (s.db.weights actionId ++ [weight])

def LedgerEntry.credits (actionId : String) : LedgerEntry → Bool
  | .credit id _ => id = actionId
  | .debit _ _ => false

def LedgerEntry.debits (actionId : String) : LedgerEntry → Bool
  | .credit _ _ => false
  | .debit id _ => id = actionId

/-- How often the poster was credited for the action, and how often debited. -/
def System.credits (s : System) (actionId : String) : Nat := s.ledger.countP (LedgerEntry.credits actionId)

def System.debits (s : System) (actionId : String) : Nat := s.ledger.countP (LedgerEntry.debits actionId)

end Argentum.Community
