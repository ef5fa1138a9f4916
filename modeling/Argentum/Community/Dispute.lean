import Argentum.Community.Attest
import Mathlib.Data.List.MinMax

/-! Submission, reports, slashes and the Kleros dispute flow. -/
namespace Argentum.Community
open Argentum

structure ActionSubmit where
  entityId : String
  entityName : String
  entityType : String
  actionType : String
  credentials : Credentials
  deriving DecidableEq, Repr

structure SubmitResponse where
  actionId : String
  status : Status
  attestationsNeeded : Nat
  karmaOnVerify : Int
  signed : Bool

/-- The row an action starts as. `status` is the column's default. -/
def ActionSubmit.row (req : ActionSubmit) (actionId : String) (karma : Int) : Action :=
  { id := actionId
    entityId := req.entityId
    entityName := req.entityName
    entityType := req.entityType
    status := .pending
    karmaValue := karma
    verifiedAt := none }

/-- REST `submit_action`. The MCP tool runs the same insert. -/
def submitAction (db : Database) (actionId : String) (req : ActionSubmit) (verified : Bool) :
    Except Failure (Outcome SubmitResponse) :=
  match actionTypes.lookup req.actionType with
  | none => .error (.http 400 ("Unknown action_type. Valid: " ++
      "['HELP', 'BUILD', 'TEACH', 'FIX', 'WITNESS', 'CONNECT', 'RELEASE']"))
  | some karma =>
      match db.actions.insert? (req.row actionId karma) with
      | none => .error .integrityError
      | some actions => .ok
          { db := { db with actions }
            ledger := []
            response :=
              { actionId
                status := .pending
                attestationsNeeded
                karmaOnVerify := karma
                signed := verifyAgentSignature req.credentials verified } }

theorem submitAction_ok {db : Database} {actionId : String} {req : ActionSubmit} {verified : Bool}
    {outcome : Outcome SubmitResponse} (done : submitAction db actionId req verified = .ok outcome) :
    ∃ karma actions, actionTypes.lookup req.actionType = some karma ∧
      db.actions.insert? (req.row actionId karma) = some actions ∧
      outcome.db = { db with actions } ∧ outcome.ledger = [] := by
  unfold submitAction at done
  split at done
  · contradiction
  rename_i karma listed
  split at done
  · contradiction
  rename_i actions inserted
  cases done
  exact ⟨karma, actions, listed, inserted, rfl, rfl⟩

structure ReportRequest where
  reporterId : String
  credentials : Credentials
  deriving DecidableEq, Repr

structure ReportResponse where
  reportId : String
  actionId : String
  status : ReportStatus
  signed : Bool

def reportAction (db : Database) (now : Instant) (reportId actionId : String) (req : ReportRequest)
    (verified : Bool) : Except Failure (Outcome ReportResponse) :=
  match db.actions.find? actionId with
  | none => .error (.http 404 "Action not found")
  | some action =>
      if action.status ≠ .verified then .error (.http 400 "Only verified actions can be reported")
      else if action.entityId = req.reporterId then
        .error (.http 400 "Cannot report your own action")
      else if db.reports.rows.any fun row => row.actionId = actionId ∧ row.reporterId = req.reporterId then
        .error (.http 400 "Already reported")
      else match db.reports.insert? ⟨reportId, actionId, req.reporterId, .opened, now, none⟩ with
        | none => .error .integrityError
        | some reports => .ok
            { db := { db with reports }
              ledger := []
              response :=
                { reportId
                  actionId
                  status := .opened
                  signed := verifyAgentSignature req.credentials verified } }

theorem reportAction_ok {db : Database} {now : Instant} {reportId actionId : String}
    {req : ReportRequest} {verified : Bool} {outcome : Outcome ReportResponse}
    (done : reportAction db now reportId actionId req verified = .ok outcome) :
    db.statusOf actionId = some .verified ∧ ∃ reports,
      db.reports.insert? ⟨reportId, actionId, req.reporterId, .opened, now, none⟩ = some reports ∧
      outcome.db = { db with reports } ∧ outcome.ledger = [] := by
  unfold reportAction at done
  split at done
  · contradiction
  rename_i action found
  split_ifs at done with unverified
  split at done
  · contradiction
  rename_i reports inserted
  cases done
  exact ⟨by simpa [Database.statusOf, found] using unverified, reports, inserted, rfl, rfl⟩

def Action.slash (action : Action) : Action := { action with status := .slashed }

theorem Action.key_slash (action : Action) : Keyed.key action.slash = Keyed.key action := rfl

def Action.dispute (action : Action) : Action := { action with status := .disputed }

theorem Action.key_dispute (action : Action) : Keyed.key action.dispute = Keyed.key action := rfl

/-- The restore branch writes the status only; `verified_at` stays what it was. -/
def Action.restore (action : Action) : Action := { action with status := .verified }

theorem Action.key_restore (action : Action) : Keyed.key action.restore = Keyed.key action := rfl

def Report.confirm (now : Instant) (report : Report) : Report :=
  { report with status := .confirmed, resolvedAt := some now }

theorem Report.key_confirm (now : Instant) (report : Report) :
    Keyed.key (report.confirm now) = Keyed.key report := rfl

structure SlashResponse where
  actionId : String
  status : Status
  posterSlash : Int
  attestorsSlashed : Nat

def confirmSlash (db : Database) (now : Instant) (actionId confirmerId : String) :
    Except Failure (Outcome SlashResponse) :=
  if confirmerId ∉ genesisAttestors then
    .error (.http 403 "Only genesis attestors can confirm a slash")
  else match db.actions.find? actionId with
    | none => .error (.http 404 "Action not found")
    | some action =>
        if action.status = .slashed then .error (.http 400 "Already slashed")
        else if db.hasOpenReport actionId = false then
          .error (.http 400 "No open report for this action")
        else .ok
          { db := { db with
              wisdom := slashWisdom db action
              actions := db.actions.update (fun row => row.id = actionId) Action.slash
                Action.key_slash
              reports := db.reports.update
                (fun row => row.actionId = actionId ∧ row.status = .opened) (Report.confirm now)
                (Report.key_confirm now) }
            ledger := [.debit actionId action.karmaValue]
            response :=
              { actionId
                status := .slashed
                posterSlash := action.karmaValue
                attestorsSlashed := (db.attestors actionId).length } }

theorem confirmSlash_ok {db : Database} {now : Instant} {actionId confirmerId : String}
    {outcome : Outcome SlashResponse} (done : confirmSlash db now actionId confirmerId = .ok outcome) :
    confirmerId ∈ genesisAttestors ∧ ∃ action, db.actions.find? actionId = some action ∧ action.status ≠ .slashed ∧
      db.hasOpenReport actionId = true ∧
      outcome.db = { db with
        wisdom := slashWisdom db action
        actions := db.actions.update (fun row => row.id = actionId) Action.slash Action.key_slash
        reports := db.reports.update (fun row => row.actionId = actionId ∧ row.status = .opened)
          (Report.confirm now) (Report.key_confirm now) } ∧
      outcome.ledger = [.debit actionId action.karmaValue] := by
  unfold confirmSlash at done
  split at done
  · contradiction
  rename_i genesis
  split at done
  · contradiction
  rename_i action found
  split_ifs at done with final unreported
  cases done
  exact ⟨not_not.mp genesis, action, found, final, by simpa using unreported, rfl, rfl⟩

structure DisputeRequest where
  reporterId : String
  credentials : Credentials
  deriving DecidableEq, Repr

structure DisputeResponse where
  disputeId : String
  actionId : String
  status : DisputeStatus
  signed : Bool

def openDispute (db : Database) (now : Instant) (disputeId actionId : String) (req : DisputeRequest)
    (verified : Bool) : Except Failure (Outcome DisputeResponse) :=
  match db.actions.find? actionId with
  | none => .error (.http 404 "Action not found")
  | some action =>
      if action.status ≠ .verified ∧ action.status ≠ .pending then
        .error (.http 400 s!"Cannot dispute an action with status '{action.status.text}'")
      else if action.entityId = req.reporterId then
        .error (.http 400 "Cannot dispute your own action")
      else if req.reporterId ∉ genesisAttestors ∧ db.karmaOf req.reporterId < minimumKarmaToDispute then
        .error (.http 403
          (s!"Opening a dispute requires at least {minimumKarmaToDispute} karma. " ++
            s!"{req.reporterId} has {db.karmaOf req.reporterId}."))
      else if 0 < db.pendingDisputes actionId then
        .error (.http 400 "Dispute already open for this action")
      else match db.disputes.insert? ⟨disputeId, actionId, req.reporterId, .pending, none, now, none⟩ with
        | none => .error .integrityError
        | some disputes => .ok
            { db := { db with
                disputes
                actions := db.actions.update (fun row => row.id = actionId) Action.dispute
                  Action.key_dispute }
              ledger := []
              response :=
                { disputeId
                  actionId
                  status := .pending
                  signed := verifyAgentSignature req.credentials verified } }

theorem openDispute_ok {db : Database} {now : Instant} {disputeId actionId : String}
    {req : DisputeRequest} {verified : Bool} {outcome : Outcome DisputeResponse}
    (done : openDispute db now disputeId actionId req verified = .ok outcome) :
    (db.statusOf actionId = some .verified ∨ db.statusOf actionId = some .pending) ∧
      db.pendingDisputes actionId = 0 ∧ ∃ disputes,
      db.disputes.insert? ⟨disputeId, actionId, req.reporterId, .pending, none, now, none⟩ =
        some disputes ∧
      outcome.db = { db with
        disputes
        actions := db.actions.update (fun row => row.id = actionId) Action.dispute
          Action.key_dispute } ∧
      outcome.ledger = [] := by
  unfold openDispute at done
  split at done
  · contradiction
  rename_i action found
  split_ifs at done with closed own poor already
  split at done
  · contradiction
  rename_i disputes inserted
  cases done
  refine ⟨?_, Nat.eq_zero_of_not_pos already, disputes, inserted, rfl, rfl⟩
  simpa [Database.statusOf, found, or_iff_not_imp_left] using closed

/-- `SELECT * FROM disputes WHERE action_id = ? AND status = 'pending' ORDER BY
created_at DESC LIMIT 1`. -/
def Database.latestPendingDispute (db : Database) (actionId : String) : Option Dispute :=
  (db.disputes.rows.filter fun row => row.actionId = actionId ∧ row.status = .pending).argmax
    Dispute.createdAt

theorem latestPendingDispute_mem {db : Database} {actionId : String} {dispute : Dispute}
    (latest : db.latestPendingDispute actionId = some dispute) :
    dispute ∈ db.disputes.rows ∧ dispute.actionId = actionId ∧ dispute.status = .pending := by
  simpa using List.argmax_mem latest

theorem latestPendingDispute_isSome_iff (db : Database) (actionId : String) :
    (db.latestPendingDispute actionId).isSome ↔ 0 < db.pendingDisputes actionId := by
  rw [Option.isSome_iff_ne_none, Ne, Database.latestPendingDispute, List.argmax_eq_none,
    Database.pendingDisputes, List.countP_eq_length_filter, List.length_pos_iff]

def Dispute.resolve (status : DisputeStatus) (ruling : Int) (now : Instant) (dispute : Dispute) :
    Dispute :=
  { dispute with status, ruling := some ruling, resolvedAt := some now }

theorem Dispute.key_resolve (status : DisputeStatus) (ruling : Int) (now : Instant) (dispute : Dispute) :
    Keyed.key (dispute.resolve status ruling now) = Keyed.key dispute := rfl

/-- The status a ruling that restores leaves in the dispute's record. -/
def disputeOutcome (ruling : Int) : DisputeStatus := if ruling = 2 then .ruledClear else .ruledRefused

theorem disputeOutcome_ne_pending (ruling : Int) : disputeOutcome ruling ≠ .pending := by
  unfold disputeOutcome
  split <;> exact fun same => by cases same

structure RulingResponse where
  actionId : String
  ruling : Int
  actionStatus : Status

/-- `ruling` is 1 to slash; every other value restores, and 2 is told apart
from the rest only in the dispute's record. -/
def klerosRuling (db : Database) (now : Instant) (authentic : Bool) (actionId : String) (ruling : Int) :
    Except Failure (Outcome RulingResponse) :=
  if authentic = false then .error (.http 401 "Invalid Kleros ruling secret")
  else match db.actions.find? actionId with
    | none => .error (.http 404 "Action not found")
    | some action =>
        if action.status ≠ .disputed then
          .error (.http 400 s!"Action is not disputed (current: {action.status.text})")
        else match db.latestPendingDispute actionId with
          | none => .error (.http 404 "No pending dispute for this action")
          | some dispute =>
              if ruling = 1 then .ok
                { db := { db with
                    wisdom := slashWisdom db action
                    actions := db.actions.update (fun row => row.id = actionId) Action.slash
                      Action.key_slash
                    disputes := db.disputes.update (fun row => row.id = dispute.id)
                      (Dispute.resolve .ruledSlash 1 now) (Dispute.key_resolve .ruledSlash 1 now) }
                  ledger := [.debit actionId action.karmaValue]
                  response := ⟨actionId, ruling, .slashed⟩ }
              else .ok
                { db := { db with
                    actions := db.actions.update (fun row => row.id = actionId) Action.restore
                      Action.key_restore
                    disputes := db.disputes.update (fun row => row.id = dispute.id)
                      (Dispute.resolve (disputeOutcome ruling) ruling now)
                      (Dispute.key_resolve (disputeOutcome ruling) ruling now) }
                  ledger := []
                  response := ⟨actionId, ruling, .verified⟩ }

theorem klerosRuling_ok {db : Database} {now : Instant} {authentic : Bool} {actionId : String}
    {ruling : Int} {outcome : Outcome RulingResponse}
    (done : klerosRuling db now authentic actionId ruling = .ok outcome) :
    authentic = true ∧ ∃ action dispute, db.actions.find? actionId = some action ∧
      action.status = .disputed ∧ db.latestPendingDispute actionId = some dispute ∧
      (ruling = 1 ∧ outcome.db = { db with
          wisdom := slashWisdom db action
          actions := db.actions.update (fun row => row.id = actionId) Action.slash Action.key_slash
          disputes := db.disputes.update (fun row => row.id = dispute.id)
            (Dispute.resolve .ruledSlash 1 now) (Dispute.key_resolve .ruledSlash 1 now) } ∧
          outcome.ledger = [.debit actionId action.karmaValue] ∨
        ruling ≠ 1 ∧ ∃ status, status ≠ .pending ∧ outcome.db = { db with
          actions := db.actions.update (fun row => row.id = actionId) Action.restore
            Action.key_restore
          disputes := db.disputes.update (fun row => row.id = dispute.id)
            (Dispute.resolve status ruling now) (Dispute.key_resolve status ruling now) } ∧
          outcome.ledger = []) := by
  unfold klerosRuling at done
  split at done
  · contradiction
  rename_i authentic
  split at done
  · contradiction
  rename_i action found
  split at done
  · contradiction
  rename_i disputed
  split at done
  · contradiction
  rename_i dispute latest
  refine ⟨by simpa using authentic, action, dispute, found, not_not.mp disputed, latest, ?_⟩
  split_ifs at done with slashes
  · cases done
    exact Or.inl ⟨slashes, rfl, rfl⟩
  · cases done
    exact Or.inr ⟨slashes, _, disputeOutcome_ne_pending ruling, rfl, rfl⟩

end Argentum.Community
