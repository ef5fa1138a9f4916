import Argentum.Core.Sums
import Argentum.Core.Table
import Mathlib.Data.Rat.Floor

/-! The community tables, parameters and exceptions of `argentum.py`. A `REAL`
column holds an exact rational, and `SUM` is the one of the database. `now()` is an instant in microseconds: the ISO
texts the columns store share one offset and width, so they compare as the
instants do. Columns and request fields that no modelled handler reads are left
out. -/
namespace Argentum.Community
open Argentum

abbrev Instant := Nat

def microsecondsPerDay : Nat := 86400000000

/-- The UTC day of an instant. -/
def utcDay (now : Instant) : Nat := now / microsecondsPerDay

/-- `now()[:10] + "T00:00:00"`: the first instant of the same UTC day. -/
def todayStart (now : Instant) : Instant := utcDay now * microsecondsPerDay

/-- An instant is compared with a day's start exactly as its day is with that day. -/
theorem todayStart_le_iff (now created : Instant) : todayStart now ≤ created ↔ utcDay now ≤ utcDay created :=
  (Nat.le_div_iff_mul_le (by decide : 0 < microsecondsPerDay)).symm

def weightThreshold : ℚ := 2
def karmaWeightBase : ℚ := 50
def karmaWeightMin : ℚ := 1 / 2
def karmaWeightMax : ℚ := 2
def minimumMarksToAttest : Nat := 1
def minimumKarmaToAttest : Int := 0
def genesisAttestors : List String := ["lightning", "giskard-self"]
def maxAttestationsPerDay : Nat := 5
def minimumKarmaToDispute : Int := 10

/-- `int(WEIGHT_THRESHOLD)`, the row count the Lightning webhook asks for. -/
def attestationsNeeded : Nat := 2

/-- The `karma` entries of `ACTION_TYPES`. -/
def actionTypes : List (String × Int) :=
  [("HELP", 10), ("BUILD", 20), ("TEACH", 15), ("FIX", 12), ("WITNESS", 5), ("CONNECT", 8),
    ("RELEASE", 25)]

/-- `ACTION_TYPES["WITNESS"]["karma"]`. -/
def witnessKarma : Int := 5

def trailAuthorKarmaReward : Int := 3

theorem witnessKarma_listed : actionTypes.lookup "WITNESS" = some witnessKarma := by decide

theorem actionTypes_positive : ∀ entry ∈ actionTypes, 0 < entry.2 := by decide

inductive Status where
  | pending | verified | disputed | slashed
  deriving DecidableEq, Repr

/-- The text the `status` column and the refusals show. -/
def Status.text : Status → String
  | .pending => "pending"
  | .verified => "verified"
  | .disputed => "disputed"
  | .slashed => "slashed"

structure Action where
  id : String
  entityId : String
  entityName : String
  entityType : String
  status : Status
  karmaValue : Int
  verifiedAt : Option Instant
  deriving DecidableEq, Repr

structure Attestation where
  id : String
  actionId : String
  attesterId : String
  attesterName : String
  createdAt : Instant
  weight : ℚ
  deriving DecidableEq, Repr

/-- One row of `wisdom`. Both karma columns are nullable in the schema; only
`total_karma_real` is ever null in a row the handlers can meet. -/
structure Wisdom where
  entityId : String
  entityName : String
  entityType : String
  totalKarma : Int
  totalKarmaReal : Option ℚ
  verifiedActions : Int
  attestationsGiven : Int
  lastAction : Option Instant
  deriving DecidableEq, Repr

inductive ReportStatus where
  | opened | confirmed
  deriving DecidableEq, Repr

structure Report where
  id : String
  actionId : String
  reporterId : String
  status : ReportStatus
  createdAt : Instant
  resolvedAt : Option Instant
  deriving DecidableEq, Repr

inductive DisputeStatus where
  | pending | ruledSlash | ruledClear | ruledRefused
  deriving DecidableEq, Repr

structure Dispute where
  id : String
  actionId : String
  reporterId : String
  status : DisputeStatus
  ruling : Option Int
  createdAt : Instant
  resolvedAt : Option Instant
  deriving DecidableEq, Repr

/-- One row of `trails`, the marketplace recipes. -/
structure Trail where
  id : String
  authorId : String
  authorName : String
  executions : Nat
  successCount : Nat
  ratingSum : Int
  ratingCount : Nat
  deriving DecidableEq, Repr

inductive ExecutionStatus where
  | success | fail
  deriving DecidableEq, Repr

structure TrailExecution where
  id : String
  trailId : String
  executorId : String
  executorName : String
  status : ExecutionStatus
  outputHash : Option String
  paymentHash : Option String
  rating : Option Int
  createdAt : Instant
  deriving DecidableEq, Repr

instance : Keyed Action String := ⟨Action.id⟩
instance : Keyed Attestation String := ⟨Attestation.id⟩
instance : Keyed Wisdom String := ⟨Wisdom.entityId⟩
instance : Keyed Report String := ⟨Report.id⟩
instance : Keyed Dispute String := ⟨Dispute.id⟩
instance : Keyed Trail String := ⟨Trail.id⟩
instance : Keyed TrailExecution String := ⟨TrailExecution.id⟩

structure Database where
  actions : Table Action
  attestations : Table Attestation
  wisdom : Table Wisdom
  reports : Table Report
  disputes : Table Dispute
  trails : Table Trail
  trailExecutions : Table TrailExecution

/-- The tables `init_db` creates. -/
def Database.empty : Database := ⟨.empty, .empty, .empty, .empty, .empty, .empty, .empty⟩

/-- How a handler refuses: an `HTTPException` of the REST surface, the text an
MCP tool returns, or the `sqlite3.IntegrityError` of an insert whose generated
id is taken. Nothing is committed in any of the three. -/
inductive Failure where
  | http (statusCode : Nat) (detail : String)
  | refused (text : String)
  | integrityError
  deriving DecidableEq, Repr

/-- What a handler does to one action's poster, recorded for the statements
about runs. No handler reads it and no table stores it. -/
inductive LedgerEntry where
  | credit (actionId : String) (amount : Int)
  | debit (actionId : String) (amount : Int)
  deriving DecidableEq, Repr

/-- `round(x, 2)` on an exact value: to the nearest hundredth, ties to even. -/
def round2 (x : ℚ) : ℚ :=
  let floor := ⌊x * 100⌋
  let rest := x * 100 - floor
  if rest < 1 / 2 ∨ rest = 1 / 2 ∧ floor % 2 = 0 then floor / 100 else (floor + 1) / 100

/-- The status column of an action, if the action exists. -/
def Database.statusOf (db : Database) (actionId : String) : Option Status :=
  (db.actions.find? actionId).map Action.status

/-- `SELECT id FROM attestations WHERE action_id = ? AND attester_id = ?`. -/
def Database.hasAttested (db : Database) (actionId attesterId : String) : Bool :=
  db.attestations.rows.any fun row => row.actionId = actionId ∧ row.attesterId = attesterId

/-- `SELECT COUNT(*) FROM attestations WHERE action_id = ?`. -/
def Database.attestationCount (db : Database) (actionId : String) : Nat :=
  db.attestations.rows.countP fun row => row.actionId = actionId

/-- The weights of an action's attestations, in the order of their rows. -/
def Database.weights (db : Database) (actionId : String) : List ℚ :=
  (db.attestations.rows.filter fun row => row.actionId = actionId).map Attestation.weight

/-- `SELECT COALESCE(SUM(weight), 0) FROM attestations WHERE action_id = ?`. -/
def Database.totalWeight [SqliteSum] (db : Database) (actionId : String) : ℚ := SqliteSum.sum (db.weights actionId)

/-- `SELECT COUNT(*) FROM attestations WHERE attester_id = ? AND created_at >= ?`. -/
def Database.todayCount (db : Database) (attesterId : String) (now : Instant) : Nat :=
  db.attestations.rows.countP fun row => row.attesterId = attesterId ∧ todayStart now ≤ row.createdAt

/-- `SELECT id FROM reports WHERE action_id = ? AND status = 'open'`. -/
def Database.hasOpenReport (db : Database) (actionId : String) : Bool :=
  db.reports.rows.any fun row => row.actionId = actionId ∧ row.status = .opened

/-- How many dispute rows of an action are pending. -/
def Database.pendingDisputes (db : Database) (actionId : String) : Nat :=
  db.disputes.rows.countP fun row => row.actionId = actionId ∧ row.status = .pending

/-- `SELECT total_karma FROM wisdom WHERE entity_id = ?`, 0 without a row. -/
def Database.karmaOf (db : Database) (entityId : String) : Int :=
  ((db.wisdom.find? entityId).map Wisdom.totalKarma).getD 0

end Argentum.Community
