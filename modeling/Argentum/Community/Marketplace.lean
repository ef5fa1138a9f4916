import Argentum.Community.Attest

/-! Executions of marketplace trails, over REST and over the hand-copied MCP
tool. Both insert the same row and count it; they differ in what a success pays
the trail's author. -/
namespace Argentum.Community
open Argentum

/-- `status in ("success", "fail")`. -/
def ExecutionStatus.parse (status : String) : Option ExecutionStatus :=
  if status = "success" then some .success
  else if status = "fail" then some .fail
  else none

theorem ExecutionStatus.parse_eq_success_iff (status : String) :
    parse status = some .success ↔ status = "success" := by
  unfold parse
  split_ifs <;> simp_all

def Trail.execute (succeeded : Bool) (trail : Trail) : Trail :=
  { trail with
    executions := trail.executions + 1
    successCount := trail.successCount + (if succeeded then 1 else 0) }

theorem Trail.key_execute (succeeded : Bool) (trail : Trail) :
    Keyed.key (trail.execute succeeded) = Keyed.key trail := rfl

/-- The reward of an execution, where there is one. -/
def rewardAuthor (wisdom : Table Wisdom) (now : Instant) (trail : Trail) (karmaReward : Int) :
    Table Wisdom :=
  if 0 < karmaReward then
    upsertWisdom wisdom trail.authorId trail.authorName "unknown" karmaReward false false (some now)
  else wisdom

/-- The statements both surfaces run, with the reward they came to. -/
def commitExecution (db : Database) (now : Instant) (row : TrailExecution) (trail : Trail)
    (karmaReward : Int) : Except Failure Database :=
  match db.trailExecutions.insert? row with
  | none => .error .integrityError
  | some trailExecutions => .ok
      { db with
        trailExecutions
        trails := db.trails.update (fun trail => trail.id = row.trailId)
          (Trail.execute (row.status = .success)) (Trail.key_execute (row.status = .success))
        wisdom := rewardAuthor db.wisdom now trail karmaReward }

structure ExecutionRequest where
  executorId : String
  executorName : String
  status : String
  outputHash : Option String
  paymentHash : Option String
  credentials : Credentials
  deriving DecidableEq, Repr

structure ExecutionResponse where
  executionId : String
  trailId : String
  status : ExecutionStatus
  signed : Bool
  authorKarmaAwarded : Int

namespace Rest

/-- REST `record_trail_execution`: a success pays the author when it is signed. -/
def recordTrailExecution (db : Database) (now : Instant) (execId trailId : String)
    (req : ExecutionRequest) (verified : Bool) : Except Failure (Outcome ExecutionResponse) :=
  match ExecutionStatus.parse req.status with
  | none => .error (.http 400 "status must be 'success' or 'fail'")
  | some status => match db.trails.find? trailId with
    | none => .error (.http 404 "trail not found")
    | some trail =>
        let signed := verifyAgentSignature req.credentials verified
        let karmaReward := if status = .success ∧ signed then trailAuthorKarmaReward else 0
        (commitExecution db now ⟨execId, trailId, req.executorId, req.executorName, status,
          req.outputHash, req.paymentHash, none, now⟩ trail karmaReward).map fun committed =>
            { db := committed
              ledger := []
              response :=
                { executionId := execId
                  trailId
                  status
                  signed
                  authorKarmaAwarded := karmaReward } }

end Rest

namespace Mcp

/-- `output_hash or None`. -/
def orNone (text : String) : Option String := if text = "" then none else some text

structure ExecutionResponse where
  executionId : String
  status : ExecutionStatus
  authorName : String
  karmaAwarded : Int

/-- MCP `execute_trail`: a success pays the author, and nobody signs. -/
def executeTrail (db : Database) (now : Instant) (execId trailId executorId executorName status
    outputHash paymentHash : String) : Except Failure (Outcome ExecutionResponse) :=
  match ExecutionStatus.parse status with
  | none => .error (.refused "status must be 'success' or 'fail'")
  | some status => match db.trails.find? trailId with
    | none => .error (.refused "Trail not found.")
    | some trail =>
        let karmaAwarded := if status = .success then trailAuthorKarmaReward else 0
        (commitExecution db now ⟨execId, trailId, executorId, executorName, status,
          orNone outputHash, orNone paymentHash, none, now⟩ trail karmaAwarded).map fun committed =>
            { db := committed
              ledger := []
              response :=
                { executionId := execId
                  status
                  authorName := trail.authorName
                  karmaAwarded } }

end Mcp

section
variable {db : Database} {now : Instant} {row : TrailExecution} {trail : Trail} {karmaReward : Int}

theorem commitExecution_wisdom {committed : Database}
    (done : commitExecution db now row trail karmaReward = .ok committed) :
    committed.wisdom = rewardAuthor db.wisdom now trail karmaReward := by
  unfold commitExecution at done
  split at done
  · contradiction
  · cases done
    rfl

/-- A taken id is the only way the statements fail. -/
theorem commitExecution_isOk_iff : (∃ committed, commitExecution db now row trail karmaReward = .ok committed) ↔
    db.trailExecutions.find? row.id = none := by
  have fits : (db.trailExecutions.insert? row).isSome ↔ db.trailExecutions.find? row.id = none :=
    Table.insert?_isSome_iff
  unfold commitExecution
  split
  · rename_i taken
    rw [taken] at fits
    simpa using fits
  · rename_i trailExecutions inserted
    rw [inserted] at fits
    simpa using fits

end

end Argentum.Community
