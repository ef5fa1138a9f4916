import Argentum.Community.Ratings
import Argentum.Core.Json

/-! Who rates a trail. Both copies of the guard against an author's own ratings compare the
author with the one who executed, and neither asks who rates: an author rates what others
executed, and what the author executed is rated by nobody. -/
namespace Argentum.Community
open Argentum Transition Text

def maxTrailSteps : Nat := 12

def minTrailPrice : Int := 1

/-- A step names a service and a tool. -/
def isTrailStep (step : Json) : Bool := step.isDict && step.has (ofString "service") && step.has (ofString "tool")

/-- `INSERT INTO trails`: the counters begin at zero. -/
def Database.insertTrail (db : Database) (trailId authorId authorName : String) : Except Failure Database :=
  match db.trails.insert? ⟨trailId, authorId, authorName, 0, 0, 0, 0⟩ with
  | some trails => .ok { db with trails }
  | none => .error .integrityError

structure TrailRegister where
  authorId : String
  authorName : String
  name : String
  steps : List Json
  priceSats : Int
  credentials : Credentials

structure TrailResponse where
  trailId : String
  name : String
  steps : Nat
  priceSats : Int
  signed : Bool

namespace Rest

/-- REST `register_trail`. -/
def registerTrail (db : Database) (trailId : String) (req : TrailRegister) (verified : Bool) :
    Except Failure (Outcome TrailResponse) :=
  if req.steps = [] ∨ maxTrailSteps < req.steps.length then .error (.http 400 "steps must be 1..12")
  else if req.priceSats < minTrailPrice then .error (.http 400 "price_sats must be >= 1")
  else if ¬req.steps.all isTrailStep then .error (.http 400 "each step needs \x7bservice, tool\x7d")
  else (db.insertTrail trailId req.authorId req.authorName).map fun committed =>
    { db := committed
      ledger := []
      response :=
        { trailId
          name := req.name
          steps := req.steps.length
          priceSats := req.priceSats
          signed := verifyAgentSignature req.credentials verified } }

end Rest

namespace Mcp

/-- MCP `register_trail`, with what `json.loads` reads of the steps, or the error it raises. -/
def registerTrail (db : Database) (trailId authorId authorName name : String) (steps : Except String Json)
    (priceSats : Int) : Except Failure (Outcome TrailResponse) :=
  match steps with
  | .error raised => .error (.refused ("Invalid steps_json: " ++ raised))
  | .ok (.list steps) =>
      if steps = [] ∨ maxTrailSteps < steps.length then
        .error (.refused "steps must be a non-empty list of <= 12 items")
      else if ¬steps.all isTrailStep then .error (.refused "each step needs \x7bservice, tool\x7d")
      else if priceSats < minTrailPrice then .error (.refused "price_sats must be >= 1")
      else (db.insertTrail trailId authorId authorName).map fun committed =>
        { db := committed
          ledger := []
          response :=
            { trailId
              name
              steps := steps.length
              priceSats
              signed := false } }
  | .ok _ => .error (.refused "steps must be a non-empty list of <= 12 items")

end Mcp

/-- A call on either surface. Who makes a call of the market is known to nobody but the
caller, save for the rater a REST rating may name. -/
inductive TrailCall where
  | registerOverRest (trailId : String) (req : TrailRegister) (verified : Bool)
  | registerOverMcp (trailId authorId authorName name : String) (steps : Except String Json) (priceSats : Int)
  | market (caller : String) (call : MarketCall)

namespace TrailCall

def step (db : Database) : TrailCall → Database
  | .registerOverRest trailId req verified => db.commit (Rest.registerTrail db trailId req verified)
  | .registerOverMcp trailId authorId authorName name steps priceSats =>
      db.commit (Mcp.registerTrail db trailId authorId authorName name steps priceSats)
  | .market _ call => (call.code.run marketExec db).2

/-- A rating: the party that rates, what it rates, and how the surface refuses an author. -/
structure Rating where
  party : String
  trailId : String
  executionId : String
  rating : Int
  own : Failure

def rating? : TrailCall → Option Rating
  | .market caller (.rateTrailExecution trailId req _) =>
      some ⟨(req.raterId.filter (· ≠ "")).getD caller, trailId, req.executionId, req.rating,
        .http 403 "author cannot rate own trail execution"⟩
  | .market caller (.rateTrail trailId executionId rating) =>
      some ⟨caller, trailId, executionId, rating, .refused "Author cannot rate own trail execution."⟩
  | _ => none

/-- What a call of the market answers. -/
def answer (db : Database) : TrailCall → Option (Except Failure MarketAnswer)
  | .market _ call => some (call.code.run marketExec db).1
  | _ => none

/-- A recorded rating is not one of the author, and one that is refused as the author's own is. -/
def AuthorApart (db : Database) (call : TrailCall) : Prop :=
  ∀ rating ∈ call.rating?, ∀ trail ∈ db.trails.find? rating.trailId,
    (∀ recorded, call.answer db = some (.ok recorded) → rating.party ≠ trail.authorId) ∧
      (call.answer db = some (.error rating.own) → rating.party = trail.authorId)

/-- A rating comes to the guard for this execution. -/
structure Rating.Guarded (rating : Rating) (db : Database) (execution : TrailExecution) : Prop where
  bounds : 1 ≤ rating.rating ∧ rating.rating ≤ 5
  found : db.trailExecutions.find? rating.executionId = some execution
  placed : execution.trailId = rating.trailId
  unrated : execution.rating = none

/-- Where a rating comes to the guard, the party that rates is the author exactly if the
one who executed is. -/
def ExecutorRates (db : Database) (call : TrailCall) : Prop :=
  ∀ rating ∈ call.rating?, ∀ execution, rating.Guarded db execution →
    ∀ trail ∈ db.trails.find? rating.trailId, (execution.executorId = trail.authorId ↔ rating.party = trail.authorId)

end TrailCall

/-- No call of the run records a rating of the author, or refuses another's as one. -/
def AuthorsApart (db : Database) (calls : List TrailCall) : Prop :=
  ∀ before call after, calls = before ++ call :: after → call.AuthorApart (run TrailCall.step db before)

section
variable {db : Database} {trail : Trail} {call : TrailCall} {rating : TrailCall.Rating}

/-- How a rating of a trail is answered: at the guard, by who executed, or before it. -/
def Judged (db : Database) (trail : Trail) (rating : TrailCall.Rating)
    (answered : Except Failure MarketAnswer) : Prop :=
  (∃ execution recorded, rating.Guarded db execution ∧
      answered = if execution.executorId = trail.authorId then .error rating.own else .ok recorded) ∨
    ((∀ execution, ¬ rating.Guarded db execution) ∧ ∃ failure, answered = .error failure ∧ failure ≠ rating.own)

theorem judged_ratingCode {invalid missing already : Failure} (posted : db.trails.find? rating.trailId = some trail)
    (others : ∀ failure ∈ [invalid, missing, already], failure ≠ rating.own) (answer : MarketAnswer) :
    Judged db trail rating ((ratingCode invalid missing already rating.own rating.trailId rating.executionId
      rating.rating answer).run marketExec db).1 := by
  by_cases bounds : 1 ≤ rating.rating ∧ rating.rating ≤ 5
  · rw [ratingCode, if_neg (not_not.mpr bounds), Program.run]
    cases found : (db.trailExecutions.find? rating.executionId).filter fun row => row.trailId = rating.trailId with
    | none =>
        refine Or.inr ⟨fun execution guarded => ?_, missing, by simp [marketExec, found], others _ (by simp)⟩
        exact absurd (decide_eq_true guarded.placed) (Option.filter_eq_none_iff.mp found execution guarded.found)
    | some execution =>
        obtain ⟨there, placed⟩ := Option.filter_eq_some_iff.mp found
        by_cases unrated : execution.rating = none
        · refine Or.inl ⟨execution, answer, ⟨bounds, there, of_decide_eq_true placed, unrated⟩, ?_⟩
          simp only [marketExec, found, unrated, ne_eq, not_true, if_false, Program.run, posted, Option.map_some]
          by_cases executed : execution.executorId = trail.authorId
          · rw [if_pos executed, if_pos (congrArg some executed.symm)]
            rfl
          · rw [if_neg executed, if_neg fun same => executed (Option.some.inj same).symm]
            rfl
        · refine Or.inr ⟨fun other guarded => ?_, already, by simp [marketExec, found, unrated], others _ (by simp)⟩
          cases there.symm.trans guarded.found
          exact unrated guarded.unrated
  · refine Or.inr ⟨fun _ guarded => bounds guarded.bounds, invalid, ?_, others _ (by simp)⟩
    rw [ratingCode, if_pos bounds, Program.run]

theorem answer_rating (rates : call.rating? = some rating) (posted : db.trails.find? rating.trailId = some trail) :
    ∃ answered, call.answer db = some answered ∧ Judged db trail rating answered := by
  cases call with
  | registerOverRest | registerOverMcp => cases rates
  | market caller call =>
      cases call with
      | recordTrailExecution | executeTrail => cases rates
      | rateTrailExecution trailId req verified =>
          cases rates
          exact ⟨_, rfl, judged_ratingCode posted (by dsimp only; decide) _⟩
      | rateTrail trailId executionId rating =>
          cases rates
          exact ⟨_, rfl, judged_ratingCode posted (by dsimp only; decide) _⟩

/-- At the guard a rating is judged by who rates exactly where that is who executed. -/
theorem authorApart_iff : call.AuthorApart db ↔ call.ExecutorRates db := by
  constructor
  · intro apart rating rates execution guarded trail posted
    obtain ⟨recorded, refused⟩ := apart rating rates trail posted
    obtain ⟨answered, answer, ⟨execution', response, guarded', judged⟩ | ⟨unguarded, _⟩⟩ := answer_rating rates posted
    · have same : execution' = execution := Option.some.inj (guarded'.found.symm.trans guarded.found)
      subst same
      rw [judged] at answer
      constructor
      · intro executed
        rw [if_pos executed] at answer
        exact refused answer
      · intro author
        by_contra executed
        rw [if_neg executed] at answer
        exact recorded response answer author
    · exact absurd guarded (unguarded execution)
  · intro rates rating rated trail posted
    obtain ⟨answered, answer, judged⟩ := answer_rating rated posted
    rw [answer]
    rcases judged with ⟨execution, response, guarded, judged⟩ | ⟨_, failure, judged, other⟩
    · have rater := rates rating rated execution guarded trail posted
      rw [judged]
      by_cases executed : execution.executorId = trail.authorId
      · rw [if_pos executed]
        exact ⟨fun _ recorded => (by cases recorded), fun _ => rater.mp executed⟩
      · rw [if_neg executed]
        exact ⟨fun _ _ author => executed (rater.mpr author), fun refused => (by cases refused)⟩
    · rw [judged]
      exact ⟨fun _ recorded => (by cases recorded),
        fun refused => absurd (Except.error.inj (Option.some.inj refused)) other⟩

end

/-- Over every run on both surfaces, authors and they alone are kept from rating exactly
where each rating that comes to the guard is made by the author if and only if the author
executed. -/
theorem authorsApart_iff (db : Database) (calls : List TrailCall) :
    AuthorsApart db calls ↔ Admits TrailCall.step (fun db call => call.ExecutorRates db) db calls := by
  rw [admits_iff_split]
  constructor
  · intro apart before call after split
    exact authorApart_iff.mp (apart before call after split)
  · intro rates before call after split
    exact authorApart_iff.mpr (rates before call after split)

/-- A trail is registered, another agent executes it, and its author rates the execution
under the author's own name. -/
def ratedByAuthor : List TrailCall :=
  [.registerOverMcp "trail" "author" "Author" "Recipe"
      (.ok (.list [.dict [(ofString "service", .null), (ofString "tool", .null)]])) 1,
    .market "carol" (.executeTrail 10 "run" "trail" "carol" "Carol" "success" "" ""),
    .market "author" (.rateTrailExecution "trail" ⟨"run", 5, some "author", ⟨none, none, none⟩⟩ false)]

theorem not_authorsApart_author : ¬ AuthorsApart .empty ratedByAuthor := by
  intro apart
  have judged := apart (ratedByAuthor.take 2) ratedByAuthor[2] [] rfl _ rfl ⟨"trail", "author", "Author", 1, 1, 0, 0⟩
    (by decide +kernel)
  exact judged.1 _ rfl rfl

end Argentum.Community
