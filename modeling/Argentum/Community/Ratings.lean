import Argentum.Community.Marketplace
import Argentum.Core.Program
import Mathlib.Algebra.Order.BigOperators.Group.List

/-! Executions and ratings of marketplace trails, statement by statement: each read is a
step, and what a handler writes is committed in one. The counters of a trail count its
rows where every rating finds its execution unrated when it is written. -/
namespace Argentum.Community
open Argentum Transition

inductive MarketOp : Type → Type
  /-- `SELECT * FROM trails WHERE id = ?` -/
  | trail (id : String) : MarketOp (Option Trail)
  /-- `SELECT * FROM trail_executions WHERE id = ? AND trail_id = ?` -/
  | execution (executionId trailId : String) : MarketOp (Option TrailExecution)
  /-- The writes of an execution, with the trail row that was read and the reward it came to. -/
  | commitExecution (now : Instant) (row : TrailExecution) (trail : Trail) (karmaReward : Int) :
      MarketOp (Except Failure Unit)
  /-- The writes of a rating. -/
  | commitRating (executionId trailId : String) (rating : Int) : MarketOp Unit

def TrailExecution.rate (rating : Int) (row : TrailExecution) : TrailExecution := { row with rating := some rating }

theorem TrailExecution.key_rate (rating : Int) (row : TrailExecution) :
    Keyed.key (row.rate rating) = Keyed.key row := rfl

def Trail.rate (rating : Int) (trail : Trail) : Trail :=
  { trail with
    ratingSum := trail.ratingSum + rating
    ratingCount := trail.ratingCount + 1 }

theorem Trail.key_rate (rating : Int) (trail : Trail) : Keyed.key (trail.rate rating) = Keyed.key trail := rfl

def Database.rated (db : Database) (executionId trailId : String) (rating : Int) : Database :=
  { db with
    trailExecutions := db.trailExecutions.update (fun row => row.id = executionId)
      (TrailExecution.rate rating) (TrailExecution.key_rate rating)
    trails := db.trails.update (fun trail => trail.id = trailId) (Trail.rate rating) (Trail.key_rate rating) }

def marketExec : Semantics MarketOp Database
  | _, .trail id, db => (db.trails.find? id, db)
  | _, .execution executionId trailId, db =>
      ((db.trailExecutions.find? executionId).filter fun row => row.trailId = trailId, db)
  | _, .commitExecution now row trail karmaReward, db =>
      match commitExecution db now row trail karmaReward with
      | .ok committed => (.ok (), committed)
      | .error failure => (.error failure, db)
  | _, .commitRating executionId trailId rating, db => ((), db.rated executionId trailId rating)

structure RatingRequest where
  executionId : String
  rating : Int
  raterId : Option String
  credentials : Credentials
  deriving DecidableEq, Repr

/-- What the four handlers answer. -/
inductive MarketAnswer where
  | recorded (response : ExecutionResponse)
  | executed (response : Mcp.ExecutionResponse)
  | rated (executionId : String) (rating : Int) (signed : Bool)
  | ratedOverMcp (executionId : String) (rating : Int)

abbrev MarketCode := Program MarketOp (Except Failure MarketAnswer)

/-- An execution: the trail is read, and the row is written with what it comes to. -/
def executionCode (invalid missing : Failure) (now : Instant) (trailId status : String)
    (row : ExecutionStatus → TrailExecution) (karmaReward : ExecutionStatus → Int)
    (answer : ExecutionStatus → Trail → MarketAnswer) : MarketCode :=
  match ExecutionStatus.parse status with
  | none => .done (.error invalid)
  | some status => .perform (.trail trailId) fun
    | none => .done (.error missing)
    | some trail => .perform (.commitExecution now (row status) trail (karmaReward status)) fun committed =>
        .done (committed.map fun _ => answer status trail)

/-- A rating: the execution is read, then the trail's author, and then it is written. -/
def ratingCode (invalid missing already own : Failure) (trailId executionId : String) (rating : Int)
    (answer : MarketAnswer) : MarketCode :=
  if ¬(1 ≤ rating ∧ rating ≤ 5) then .done (.error invalid)
  else .perform (.execution executionId trailId) fun
    | none => .done (.error missing)
    | some execution =>
        if execution.rating ≠ none then .done (.error already)
        else .perform (.trail trailId) fun trail =>
          if trail.map Trail.authorId = some execution.executorId then .done (.error own)
          else .perform (.commitRating executionId trailId rating) fun _ => .done (.ok answer)

namespace Rest

/-- `record_trail_execution`, read and write. -/
def recordTrailExecutionCode (now : Instant) (execId trailId : String) (req : ExecutionRequest) (verified : Bool) :
    MarketCode :=
  let signed := verifyAgentSignature req.credentials verified
  let karmaReward (status : ExecutionStatus) := if status = .success ∧ signed then trailAuthorKarmaReward else 0
  executionCode (.http 400 "status must be 'success' or 'fail'") (.http 404 "trail not found") now trailId req.status
    (fun status => ⟨execId, trailId, req.executorId, req.executorName, status, req.outputHash, req.paymentHash,
      none, now⟩)
    karmaReward
    (fun status _ => .recorded
      { executionId := execId
        trailId
        status
        signed
        authorKarmaAwarded := karmaReward status })

def rateTrailExecution (trailId : String) (req : RatingRequest) (verified : Bool) : MarketCode :=
  ratingCode (.http 400 "rating must be 1..5") (.http 404 "execution not found") (.http 409 "execution already rated")
    (.http 403 "author cannot rate own trail execution") trailId req.executionId req.rating
    (.rated req.executionId req.rating
      (if req.raterId.any (· ≠ "") then verifyAgentSignature req.credentials verified else false))

end Rest

namespace Mcp

/-- `execute_trail`, read and write. -/
def executeTrailCode (now : Instant) (execId trailId executorId executorName status outputHash
    paymentHash : String) : MarketCode :=
  let karmaAwarded (status : ExecutionStatus) := if status = .success then trailAuthorKarmaReward else 0
  executionCode (.refused "status must be 'success' or 'fail'") (.refused "Trail not found.") now trailId status
    (fun status => ⟨execId, trailId, executorId, executorName, status, orNone outputHash, orNone paymentHash,
      none, now⟩)
    karmaAwarded
    (fun status trail => .executed
      { executionId := execId
        status
        authorName := trail.authorName
        karmaAwarded := karmaAwarded status })

def rateTrail (trailId executionId : String) (rating : Int) : MarketCode :=
  ratingCode (.refused "rating must be 1..5") (.refused "Execution not found.") (.refused "Execution already rated.")
    (.refused "Author cannot rate own trail execution.") trailId executionId rating
    (.ratedOverMcp executionId rating)

end Mcp

inductive MarketCall where
  | recordTrailExecution (now : Instant) (execId trailId : String) (req : ExecutionRequest) (verified : Bool)
  | executeTrail (now : Instant) (execId trailId executorId executorName status outputHash paymentHash : String)
  | rateTrailExecution (trailId : String) (req : RatingRequest) (verified : Bool)
  | rateTrail (trailId executionId : String) (rating : Int)

def MarketCall.code : MarketCall → MarketCode
  | .recordTrailExecution now execId trailId req verified =>
      Rest.recordTrailExecutionCode now execId trailId req verified
  | .executeTrail now execId trailId executorId executorName status outputHash paymentHash =>
      Mcp.executeTrailCode now execId trailId executorId executorName status outputHash paymentHash
  | .rateTrailExecution trailId req verified => Rest.rateTrailExecution trailId req verified
  | .rateTrail trailId executionId rating => Mcp.rateTrail trailId executionId rating

/-- Calls of the four handlers in any interleaving of their statements. -/
abbrev Market := Pool MarketCall MarketOp (Except Failure MarketAnswer) Database

def Market.step (market : Market) (move : Move MarketCall) : Market := Pool.step marketExec MarketCall.code market move

/-- The statements of a handler are what it does alone, where nothing comes between them. -/
theorem run_recordTrailExecutionCode (db : Database) (now : Instant) (execId trailId : String)
    (req : ExecutionRequest) (verified : Bool) :
    (Rest.recordTrailExecutionCode now execId trailId req verified).run marketExec db =
      ((Rest.recordTrailExecution db now execId trailId req verified).map fun outcome =>
        .recorded outcome.response, db.commit (Rest.recordTrailExecution db now execId trailId req verified)) := by
  unfold Rest.recordTrailExecutionCode executionCode Rest.recordTrailExecution
  cases ExecutionStatus.parse req.status with
  | none => rfl
  | some status =>
      simp only [Program.run, marketExec]
      cases db.trails.find? trailId with
      | none => rfl
      | some trail =>
          simp only [Program.run, marketExec]
          cases commitExecution db now ⟨execId, trailId, req.executorId, req.executorName, status, req.outputHash,
            req.paymentHash, none, now⟩ trail
            (if status = .success ∧ verifyAgentSignature req.credentials verified then trailAuthorKarmaReward else 0)
            <;> rfl

theorem run_executeTrailCode (db : Database) (now : Instant) (execId trailId executorId executorName status
    outputHash paymentHash : String) :
    (Mcp.executeTrailCode now execId trailId executorId executorName status outputHash paymentHash).run marketExec db =
      ((Mcp.executeTrail db now execId trailId executorId executorName status outputHash paymentHash).map fun outcome =>
        .executed outcome.response,
        db.commit (Mcp.executeTrail db now execId trailId executorId executorName status outputHash paymentHash)) := by
  unfold Mcp.executeTrailCode executionCode Mcp.executeTrail
  cases ExecutionStatus.parse status with
  | none => rfl
  | some status =>
      simp only [Program.run, marketExec]
      cases db.trails.find? trailId with
      | none => rfl
      | some trail =>
          simp only [Program.run, marketExec]
          cases commitExecution db now ⟨execId, trailId, executorId, executorName, status, Mcp.orNone outputHash,
            Mcp.orNone paymentHash, none, now⟩ trail (if status = .success then trailAuthorKarmaReward else 0) <;> rfl

section
variable (db : Database) (trailId : String)

/-- The rows of a trail, its successes, its rated rows and the sum of their ratings. -/
def Database.executionCount : Nat := db.trailExecutions.rows.countP fun row => row.trailId = trailId

def Database.successfulCount : Nat :=
  db.trailExecutions.rows.countP fun row => row.trailId = trailId ∧ row.status = .success

def Database.ratedCount : Nat :=
  db.trailExecutions.rows.countP fun row => row.trailId = trailId ∧ row.rating.isSome

def TrailExecution.rating? (trailId : String) (row : TrailExecution) : Option Int :=
  if row.trailId = trailId then row.rating else none

def Database.ratingTotal : Int := (db.trailExecutions.rows.filterMap (TrailExecution.rating? trailId)).sum

end

/-- The counters of a trail count its rows. -/
structure Trail.Matches (trail : Trail) (db : Database) : Prop where
  executions : trail.executions = db.executionCount trail.id
  successCount : trail.successCount = db.successfulCount trail.id
  ratingCount : trail.ratingCount = db.ratedCount trail.id
  ratingSum : trail.ratingSum = db.ratingTotal trail.id

/-- `success_rate` and `avg_rating`, before they are rounded. -/
def Trail.successRate (trail : Trail) : Option ℚ :=
  if trail.executions = 0 then none else some (trail.successCount / trail.executions)

def Trail.avgRating (trail : Trail) : Option ℚ :=
  if trail.ratingCount = 0 then none else some (trail.ratingSum / trail.ratingCount)

/-- The statistics of every trail are those of its rows, and within their bounds. -/
def StatisticsMatch (db : Database) : Prop :=
  ∀ trail ∈ db.trails.rows, trail.Matches db ∧ (∀ rate ∈ trail.successRate, rate ≤ 1) ∧
    ∀ average ∈ trail.avgRating, average ≤ 5

/-- The counters match, and every rating is one of the five. -/
structure Database.Counted (db : Database) : Prop where
  matched : ∀ trail ∈ db.trails.rows, trail.Matches db
  rated : ∀ row ∈ db.trailExecutions.rows, ∀ rating ∈ row.rating, 1 ≤ rating ∧ rating ≤ 5

/-- What other handlers leave of an execution: its row and the trail it is of. -/
def KeepsExecutions (db later : Database) : Prop :=
  ∀ row ∈ db.trailExecutions.rows, ∃ kept ∈ later.trailExecutions.rows, kept.id = row.id ∧ kept.trailId = row.trailId

/-- What a handler writes: a new row that is unrated, or a rating within its bounds of a row
that is there. -/
def MarketOp.Sound (db : Database) : ∀ {β : Type}, MarketOp β → Prop
  | _, .commitExecution _ row _ _ => row.rating = none
  | _, .commitRating executionId trailId rating => (1 ≤ rating ∧ rating ≤ 5) ∧
      ∃ row ∈ db.trailExecutions.rows, row.id = executionId ∧ row.trailId = trailId
  | _, _ => True

/-- A rating finds its execution unrated when it is written. -/
def MarketOp.StillUnrated (db : Database) : ∀ {β : Type}, MarketOp β → Prop
  | _, .commitRating executionId _ _ => ∀ row ∈ db.trailExecutions.rows, row.id = executionId → row.rating = none
  | _, _ => True

instance (db : Database) : ∀ {β : Type} (op : MarketOp β), Decidable (op.StillUnrated db)
  | _, .commitRating executionId _ _ =>
      inferInstanceAs (Decidable (∀ row ∈ db.trailExecutions.rows, row.id = executionId → row.rating = none))
  | _, .trail _ => isTrue trivial
  | _, .execution _ _ => isTrue trivial
  | _, .commitExecution _ _ _ _ => isTrue trivial

section
variable {db next : Database} {now : Instant} {row : TrailExecution} {trail : Trail} {karmaReward : Int}

theorem commitExecution_tables (done : commitExecution db now row trail karmaReward = .ok next) :
    next.trailExecutions.rows = db.trailExecutions.rows ++ [row] ∧
      next.trails.rows = db.trails.rows.map fun trail =>
        if trail.id = row.trailId then trail.execute (row.status = .success) else trail := by
  unfold commitExecution at done
  split at done
  · cases done
  · rename_i inserted
    cases done
    refine ⟨Table.rows_insert inserted, ?_⟩
    simp only [Table.rows_update, decide_eq_true_eq]

/-- An execution that is inserted unrated is counted by its trail. -/
theorem Database.Counted.execute (counted : db.Counted) (unrated : row.rating = none)
    (done : commitExecution db now row trail karmaReward = .ok next) : next.Counted := by
  obtain ⟨executions, trails⟩ := commitExecution_tables done
  constructor
  · intro updated member
    rw [trails] at member
    obtain ⟨old, stored, rfl⟩ := List.mem_map.mp member
    obtain ⟨total, successes, count, sum⟩ := counted.matched old stored
    by_cases own : old.id = row.trailId
    · rw [if_pos own]
      constructor
      · simp [Trail.execute, executionCount, executions, total, own, List.countP_append]
      · simp [Trail.execute, successfulCount, executions, successes, own, List.countP_append, List.countP_cons]
      · simp [Trail.execute, ratedCount, executions, count, unrated, List.countP_append]
      · simp [Trail.execute, ratingTotal, executions, sum, TrailExecution.rating?, unrated]
    · rw [if_neg own]
      constructor
      · simp [executionCount, executions, total, Ne.symm own, List.countP_append]
      · simp [successfulCount, executions, successes, Ne.symm own, List.countP_append]
      · simp [ratedCount, executions, count, Ne.symm own, List.countP_append]
      · simp [ratingTotal, executions, sum, TrailExecution.rating?, Ne.symm own]
  · intro other member
    rw [executions] at member
    rcases List.mem_append.mp member with earlier | new
    · exact counted.rated other earlier
    · rw [List.mem_singleton.mp new, unrated]
      exact fun rating given => by cases given

/-- A rating of an unrated row is counted by the row's trail. -/
theorem Database.Counted.rate (counted : db.Counted) {rating : Int} (bounds : 1 ≤ rating ∧ rating ≤ 5)
    (stored : row ∈ db.trailExecutions.rows) (unrated : row.rating = none) :
    (db.rated row.id row.trailId rating).Counted := by
  have found : db.trailExecutions.find? row.id = some row := Table.find?_eq_some_iff.mpr ⟨stored, rfl⟩
  obtain ⟨before, after, rows, updated⟩ := Table.rows_update_key (TrailExecution.key_rate rating)
    (p := fun other => other.id = row.id) (fun _ _ => rfl) found
  change (db.rated row.id row.trailId rating).trailExecutions.rows = _ at updated
  constructor
  · intro changed member
    obtain ⟨old, held, rfl⟩ := List.mem_map.mp member
    obtain ⟨total, successes, count, sum⟩ := counted.matched old held
    simp only [executionCount, successfulCount, ratedCount, ratingTotal, rows] at total successes count sum
    by_cases own : old.id = row.trailId
    · rw [if_pos (decide_eq_true own)]
      constructor
      · simp [Trail.rate, executionCount, updated, total, List.countP_append, List.countP_cons, TrailExecution.rate]
      · simp [Trail.rate, successfulCount, updated, successes, List.countP_append, List.countP_cons,
          TrailExecution.rate]
      · simp [Trail.rate, ratedCount, updated, count, own, unrated, List.countP_append, TrailExecution.rate]
        omega
      · simp [Trail.rate, ratingTotal, updated, sum, own, unrated, TrailExecution.rating?, TrailExecution.rate]
        omega
    · rw [if_neg (by simpa using own)]
      constructor
      · simp [executionCount, updated, total, List.countP_append, List.countP_cons, TrailExecution.rate]
      · simp [successfulCount, updated, successes, List.countP_append, List.countP_cons, TrailExecution.rate]
      · simp [ratedCount, updated, count, Ne.symm own, List.countP_append, TrailExecution.rate]
      · simp [ratingTotal, updated, sum, Ne.symm own, TrailExecution.rating?, TrailExecution.rate]
  · intro other member
    rw [updated] at member
    rcases List.mem_append.mp member with earlier | later
    · exact counted.rated other (by rw [rows]; exact List.mem_append_left _ earlier)
    · rcases List.mem_cons.mp later with rfl | later
      · rintro _ ⟨⟩
        exact bounds
      · exact counted.rated other (by rw [rows]; exact List.mem_append_right _ (List.mem_cons_of_mem _ later))

theorem ratedCount_eq (db : Database) (trailId : String) :
    db.ratedCount trailId = (db.trailExecutions.rows.filterMap (TrailExecution.rating? trailId)).length := by
  rw [List.length_filterMap_eq_countP]
  apply List.countP_congr
  intro row _
  by_cases own : row.trailId = trailId <;> simp [TrailExecution.rating?, own]

/-- Ratings of five at most sum up to five for each at most. -/
theorem Database.Counted.ratingTotal_le (counted : db.Counted) (trailId : String) :
    db.ratingTotal trailId ≤ 5 * db.ratedCount trailId := by
  have each : ∀ rating ∈ db.trailExecutions.rows.filterMap (TrailExecution.rating? trailId), rating ≤ 5 := by
    intro rating member
    obtain ⟨row, stored, given⟩ := List.mem_filterMap.mp member
    unfold TrailExecution.rating? at given
    split at given
    · exact (counted.rated row stored rating given).2
    · cases given
  rw [ratedCount_eq, mul_comm, ← nsmul_eq_mul]
  exact List.sum_le_card_nsmul _ _ each

/-- Counters that match give statistics within their bounds. -/
theorem Database.Counted.statistics (counted : db.Counted) : StatisticsMatch db := by
  intro trail member
  have matched := counted.matched trail member
  refine ⟨matched, ?_, ?_⟩
  · intro rate shown
    unfold Trail.successRate at shown
    split at shown
    · cases shown
    · rename_i some
      rw [← Option.some.inj shown, div_le_one (by exact_mod_cast Nat.pos_of_ne_zero some), matched.executions,
        matched.successCount]
      have fewer : db.successfulCount trail.id ≤ db.executionCount trail.id :=
        List.countP_mono_left fun row _ success => by simp_all
      exact_mod_cast fewer
  · intro average shown
    unfold Trail.avgRating at shown
    split at shown
    · cases shown
    · rename_i some
      rw [← Option.some.inj shown, div_le_iff₀ (by exact_mod_cast Nat.pos_of_ne_zero some), matched.ratingSum,
        matched.ratingCount]
      exact_mod_cast counted.ratingTotal_le trail.id

theorem KeepsExecutions.trans {middle : Database} (first : KeepsExecutions db middle)
    (second : KeepsExecutions middle next) : KeepsExecutions db next := by
  intro row member
  obtain ⟨kept, stored, id, trailId⟩ := first row member
  obtain ⟨last, stays, id', trailId'⟩ := second kept stored
  exact ⟨last, stays, id'.trans id, trailId'.trans trailId⟩

theorem KeepsExecutions.refl (db : Database) : KeepsExecutions db db := fun row member => ⟨row, member, rfl, rfl⟩

/-- No statement takes an execution away, or moves it to another trail. -/
theorem keepsExecutions_exec {β : Type} (db : Database) (op : MarketOp β) :
    KeepsExecutions db (marketExec op db).2 := by
  cases op with
  | trail | execution => exact .refl db
  | commitExecution now row trail karmaReward =>
      unfold marketExec
      dsimp only
      split
      · rename_i committed done
        intro row member
        rw [(commitExecution_tables done).1]
        exact ⟨row, List.mem_append_left _ member, rfl, rfl⟩
      · exact .refl db
  | commitRating executionId trailId rating =>
      intro row member
      refine ⟨_, List.mem_map_of_mem member, ?_, ?_⟩ <;> split <;> rfl

/-- A sound statement keeps the counters, where a rating finds its row unrated. -/
theorem Database.Counted.exec {β : Type} (counted : db.Counted) (op : MarketOp β) (sound : op.Sound db)
    (unrated : op.StillUnrated db) : (marketExec op db).2.Counted := by
  cases op with
  | trail | execution => exact counted
  | commitExecution now row trail karmaReward =>
      unfold marketExec
      dsimp only
      split
      · rename_i committed done
        exact counted.execute sound done
      · exact counted
  | commitRating executionId trailId rating =>
      obtain ⟨bounds, row, stored, rfl, rfl⟩ := sound
      exact counted.rate bounds stored (unrated row stored rfl)

/-- The row a rating read is one of its execution and its trail. -/
theorem execution_found {executionId trailId : String}
    (read : (marketExec (.execution executionId trailId) db).1 = some row) :
    row ∈ db.trailExecutions.rows ∧ row.id = executionId ∧ row.trailId = trailId := by
  obtain ⟨found, own⟩ := Option.filter_eq_some_iff.mp read
  obtain ⟨stored, named⟩ := Table.find?_eq_some_iff.mp found
  exact ⟨stored, named, of_decide_eq_true own⟩

/-- An execution writes its row unrated. -/
theorem safeAmong_executionCode {invalid missing : Failure} {trailId status : String}
    {new : ExecutionStatus → TrailExecution} {reward : ExecutionStatus → Int}
    {answer : ExecutionStatus → Trail → MarketAnswer} (unrated : ∀ status, (new status).rating = none) (db : Database) :
    (executionCode invalid missing now trailId status new reward answer).SafeAmong marketExec KeepsExecutions
      (fun db op => op.Sound db) db := by
  unfold executionCode
  cases ExecutionStatus.parse status with
  | none => trivial
  | some status =>
      intro now _
      refine ⟨trivial, ?_⟩
      cases (marketExec (.trail trailId) now).1 with
      | none => trivial
      | some trail => exact fun _ _ => ⟨unrated status, trivial⟩

/-- A rating is written for a row that was read: no other handler takes it away. -/
theorem safeAmong_ratingCode {invalid missing already own : Failure} {trailId executionId : String} {rating : Int}
    {answer : MarketAnswer} (db : Database) :
    (ratingCode invalid missing already own trailId executionId rating answer).SafeAmong marketExec KeepsExecutions
      (fun db op => op.Sound db) db := by
  unfold ratingCode
  split
  · trivial
  · rename_i bounds
    intro first _
    refine ⟨trivial, ?_⟩
    cases read : (marketExec (.execution executionId trailId) first).1 with
    | none => trivial
    | some execution =>
        obtain ⟨stored, named, placed⟩ := execution_found read
        dsimp only
        split
        · trivial
        · intro second between
          refine ⟨trivial, ?_⟩
          dsimp only
          split
          · trivial
          · intro third later
            refine ⟨⟨not_not.mp bounds, ?_⟩, trivial⟩
            obtain ⟨kept, stays, id, trail⟩ := (between.trans later) execution stored
            exact ⟨kept, stays, id.trans named, trail.trans placed⟩

theorem safeAmong_code (call : MarketCall) (db : Database) :
    call.code.SafeAmong marketExec KeepsExecutions (fun db op => op.Sound db) db := by
  cases call with
  | recordTrailExecution | executeTrail => exact safeAmong_executionCode (fun _ => rfl) db
  | rateTrailExecution | rateTrail => exact safeAmong_ratingCode db

end

/-- In every interleaving of executions and ratings in which each rating finds its row
unrated when it is written, the statistics of every trail are those of its rows. -/
theorem statisticsMatch_of_stillUnrated (db : Database) (counted : db.Counted) (moves : List (Move MarketCall))
    (admitted : Admits Market.step (Pool.Performs fun db op => op.StillUnrated db) ⟨db, []⟩ moves) :
    StatisticsMatch (run Market.step ⟨db, []⟩ moves).state :=
  (Pool.safe_run .refl .trans safeAmong_code (fun db op _ => keepsExecutions_exec db op)
    (fun _ op counted sound unrated => Database.Counted.exec counted op sound unrated) counted admitted).statistics

/-- A trail as it is posted. -/
def postedTrail : Database :=
  { Database.empty with trails := ⟨[⟨"trail", "author", "Author", 0, 0, 0, 0⟩], List.nodup_singleton _⟩ }

theorem counted_postedTrail : postedTrail.Counted where
  matched := by
    intro trail member
    rw [List.mem_singleton.mp member]
    exact ⟨rfl, rfl, rfl, rfl⟩
  rated _ member := absurd member List.not_mem_nil

/-- An execution, and two ratings of it on the two surfaces. -/
def marketCalls : List (Move MarketCall) :=
  [.start (.executeTrail 10 "run" "trail" "carol" "Carol" "success" "" ""),
    .start (.rateTrailExecution "trail" ⟨"run", 5, none, ⟨none, none, none⟩⟩ false),
    .start (.rateTrail "trail" "run" 3), .advance 0, .advance 0]

/-- One rating after the other, and both before either is written. -/
def ratedInTurn : List (Move MarketCall) :=
  marketCalls ++ [.advance 1, .advance 1, .advance 1, .advance 2]

def ratedAtOnce : List (Move MarketCall) :=
  marketCalls ++ [.advance 1, .advance 1, .advance 2, .advance 2, .advance 1, .advance 2]

theorem statisticsMatch_ratedInTurn : StatisticsMatch (run Market.step ⟨postedTrail, []⟩ ratedInTurn).state :=
  statisticsMatch_of_stillUnrated postedTrail counted_postedTrail ratedInTurn (by decide +kernel)

/-- Two ratings are counted, and one row is rated. -/
theorem not_statisticsMatch_ratedAtOnce :
    ¬ StatisticsMatch (run Market.step ⟨postedTrail, []⟩ ratedAtOnce).state := by
  intro matched
  have counts : ∀ trail ∈ (run Market.step ⟨postedTrail, []⟩ ratedAtOnce).state.trails.rows,
      trail.ratingCount = (run Market.step ⟨postedTrail, []⟩ ratedAtOnce).state.ratedCount trail.id :=
    fun trail member => (matched trail member).1.ratingCount
  exact absurd counts (by decide +kernel)

end Argentum.Community
