import Argentum.Core.Calendar
import Argentum.Core.Sha256
import Argentum.Mycelium.Accounts

/-! How a trail is recorded: the guards and the caps that refuse it, and the `INSERT`
that binds whatever a caller hands over. A refusal and an exception both leave the
tables alone, but only a refusal is answered. -/
namespace Argentum.Mycelium
open Argentum Text Calendar

/-- What the deployment configures. `utcOffset` is that of the local midnight of a day. -/
structure Settings where
  trailDailyLimit : Int
  enterpriseAgents : List String
  utcOffset : Int → Seconds
  arbPayOk : Bool
  webhookOk : Bool

def genesisAgentsDefault : List String := ["giskard-self", "lightning"]

def monthlyLimitFree : Nat := 1000

def negotiationRefStatuses : List String :=
  ["ok", "no_document", "not_allowlisted", "unreachable", "http_error", "empty_body", "malformed_empty"]

def startOfDayTs (now : Seconds) : Seconds := now - now % 86400

/-- The local midnight that begins the month of `now` in UTC. -/
def startOfMonthTs (utcOffset : Int → Seconds) (now : Seconds) : Seconds :=
  let first := now / 86400 - (dayOfMonth (now / 86400) - 1)
  first * 86400 - utcOffset first

def countTrailsToday (agentId : String) (now : Seconds) : Script Nat :=
  sql (.countSince agentId (startOfDayTs now))

def countTrailsThisMonth (settings : Settings) (agentId : String) (now : Seconds) : Script Nat :=
  sql (.countBilledSince agentId (startOfMonthTs settings.utcOffset now))

/-- The arguments of `record_trail`, as its callers hand them over. -/
structure NewTrail where
  agentId : String
  service : Json
  operation : Str
  nonce : Str
  rateLimitCap : Int
  scope : Option Str := none
  delegationRef : Json := .null
  negotiationRef : Json := .null
  negotiationRefStatus : Option String := none
  skipMonthlyLimit : Bool := false
  origin : String := "internal"
  karmaAtTime : Option Int := none
  parentTrailId : Option Str := none

/-- `_sig_ref` -/
def sigRef (nonce : Str) : Except Raised String :=
  match utf8 nonce with
  | none => .error .unicodeEncodeError
  | some bytes => bindStr (hexOf (Sha256.sha256 bytes))

/-- The row as SQLite takes it; `service` is NOT NULL. -/
def NewTrail.row (trail : NewTrail) (trailId : String) (timestamp : Seconds) : Except Raised TrailRow := do
  let signatureRef ← sigRef trail.nonce
  let service ← bindText trail.service
  let operation ← bindStr trail.operation
  let karmaAtTime ← trail.karmaAtTime.mapM bindInt
  let scope ← trail.scope.mapM bindStr
  let delegationRef ← bindText trail.delegationRef
  let parentTrailId ← trail.parentTrailId.mapM bindStr
  let negotiationRef ← bindText trail.negotiationRef
  match service with
  | none => .error .integrityError
  | some service =>
      return { trailId, agentId := trail.agentId, service, operation, timestamp, signatureRef, scope
               delegationRef, negotiationRef, negotiationRefStatus := trail.negotiationRefStatus
               origin := trail.origin, karmaAtTime, parentTrailId }

/-- The first guards: an argument is missing, or the status is not of the vocabulary. -/
def NewTrail.invalid (trail : NewTrail) : Bool :=
  trail.agentId = "" || !trail.service.truthy || trail.operation = [] || trail.nonce = [] ||
    trail.negotiationRefStatus.any (· ∉ negotiationRefStatuses)

/-- The daily cap, and the monthly one unless a credit was consumed. Each count reads the clock. -/
def rateLimitedAt (settings : Settings) (trail : NewTrail) (counted billed : Seconds) : Script Bool :=
  if trail.agentId ∈ genesisAgentsDefault ∨ trail.agentId ∈ settings.enterpriseAgents ∨ trail.rateLimitCap ≤ 0 then
    return false
  else do
    let usedToday ← countTrailsToday trail.agentId counted
    if trail.rateLimitCap ≤ usedToday then return true
    else if trail.skipMonthlyLimit then return false
    else do
      let usedMonth ← countTrailsThisMonth settings trail.agentId billed
      return decide (monthlyLimitFree ≤ usedMonth)

/-- `record_trail`, which reads the clock for each count and for the row. `trail_id` is the
`uuid4` the call draws. -/
def recordTrailAt (settings : Settings) (trailId : String) (trail : NewTrail) (counted billed stored : Seconds) :
    Script (Option String) :=
  if trail.invalid then return none
  else do
    if ← rateLimitedAt settings trail counted billed then return none
    else do
      let row ← bound (trail.row trailId stored)
      sqlOrRaise (.insertTrail row)
      return some trailId

/-- The caps and `record_trail` of a call whose clock stands still. -/
def rateLimited (settings : Settings) (trail : NewTrail) (now : Seconds) : Script Bool :=
  rateLimitedAt settings trail now now

def recordTrail (settings : Settings) (trailId : String) (trail : NewTrail) (now : Seconds) :
    Script (Option String) :=
  recordTrailAt settings trailId trail now now now

/-- `record_trail` counts the trails of its agent, and inserts its own row where nothing is missing. -/
theorem uses_recordTrailAt {allowed : ∀ {β : Type}, Sql β → Prop} {settings : Settings} {trailId : String}
    {trail : NewTrail} {counted billed stored : Seconds} (days : ∀ start, allowed (.countSince trail.agentId start))
    (months : ∀ start, allowed (.countBilledSince trail.agentId start))
    (inserts : trail.invalid = false → ∀ row, trail.row trailId stored = .ok row → allowed (.insertTrail row)) :
    (recordTrailAt settings trailId trail counted billed stored).Uses allowed := by
  unfold recordTrailAt
  split
  · exact Script.uses_pure none
  rename_i valid
  refine Script.Uses.bind ?_ fun limited => ?_
  · unfold rateLimitedAt
    split
    · exact Script.uses_pure false
    refine Script.Uses.bind (Script.uses_sql (days _)) fun usedToday => ?_
    split
    · exact Script.uses_pure true
    split
    · exact Script.uses_pure false
    · exact Script.Uses.bind (Script.uses_sql (months _)) fun usedMonth => Script.uses_pure _
  split
  · exact Script.uses_pure none
  · refine Script.uses_bound_bind fun row made => ?_
    exact Script.Uses.bind (Script.uses_sqlOrRaise (inserts (by simpa using valid) row made)) fun _ =>
      Script.uses_pure _

/-- `record_trail` returns None. -/
def Settings.refuses (settings : Settings) (trail : NewTrail) (now : Seconds) (w : World) : Bool :=
  trail.invalid || ((rateLimited settings trail now).run w).1.toOption.getD false

/-- `record_trail` executes its `INSERT` without an exception. -/
def NewTrail.fits (trail : NewTrail) (trailId : String) (now : Seconds) (w : World) : Bool :=
  match trail.row trailId now with
  | .ok row => (w.trails.insert? row).isSome
  | .error _ => false

section
variable {settings : Settings} {trailId : String} {trail : NewTrail} {now : Seconds} {w : World}

theorem run_rateLimited (settings : Settings) (trail : NewTrail) (now : Seconds) (w : World) :
    ∃ limited, (rateLimited settings trail now).run w = (.ok limited, w) := by
  unfold rateLimited rateLimitedAt
  split
  · exact ⟨false, rfl⟩
  rw [countTrailsToday, Script.run_sql_bind]
  split
  · exact ⟨true, rfl⟩
  split
  · exact ⟨false, rfl⟩
  exact ⟨_, rfl⟩

/-- A trail is refused, or inserted, or its row cannot be bound or stored. -/
theorem run_recordTrail (settings : Settings) (trailId : String) (trail : NewTrail) (now : Seconds) (w : World) :
    (recordTrail settings trailId trail now).run w =
    if settings.refuses trail now w then (.ok none, w)
    else
      match trail.row trailId now with
      | .error raised => (.error raised, w)
      | .ok row =>
          match w.trails.insert? row with
          | none => (.error .integrityError, w)
          | some trails => (.ok (some trailId), { w with trails }) := by
  obtain ⟨limited, caps⟩ := run_rateLimited settings trail now w
  rw [recordTrail, recordTrailAt, Settings.refuses, caps]
  rw [rateLimited] at caps
  cases invalid : trail.invalid with
  | true => rfl
  | false =>
      rw [if_neg Bool.false_ne_true, Script.run_bind, caps]
      cases limited with
      | true => rfl
      | false =>
          dsimp only
          rw [if_neg Bool.false_ne_true, Script.run_bind, Script.run_bound]
          cases trail.row trailId now with
          | error raised => rfl
          | ok row =>
              dsimp only
              rw [Script.run_bind, Script.run_sqlOrRaise]
              cases inserted : w.trails.insert? row with
              | none => simp [exec, inserted, constrained, Except.toOption]
              | some trails => simp [exec, inserted, constrained, Except.toOption]

/-- What a row keeps of the call that made it; it is not anchored yet. -/
structure NewTrail.Stored (trail : NewTrail) (trailId : String) (now : Seconds) (row : TrailRow) : Prop where
  named : row.trailId = trailId
  agent : row.agentId = trail.agentId
  origin : row.origin = trail.origin
  submitted : row.anchorStatus = none
  timestamp : row.timestamp = now
  parent : trail.parentTrailId.mapM bindStr = .ok row.parentTrailId

theorem row_stored {row : TrailRow} (made : trail.row trailId now = .ok row) : trail.Stored trailId now row := by
  obtain ⟨_, _, made⟩ := bind_ok made
  obtain ⟨service, _, made⟩ := bind_ok made
  obtain ⟨_, _, made⟩ := bind_ok made
  obtain ⟨_, _, made⟩ := bind_ok made
  obtain ⟨_, _, made⟩ := bind_ok made
  obtain ⟨_, _, made⟩ := bind_ok made
  obtain ⟨_, parent, made⟩ := bind_ok made
  obtain ⟨_, _, made⟩ := bind_ok made
  cases service with
  | none => cases made
  | some service =>
      cases made
      exact ⟨rfl, rfl, rfl, rfl, rfl, parent⟩

/-- An update of the row that was inserted last. -/
theorem rows_updateTrail_last {w : World} {trailId : String} {f : TrailRow → TrailRow}
    {keeps : ∀ row, Keyed.key (f row) = Keyed.key row} {rows : List TrailRow} {row : TrailRow}
    (last : w.trails.rows = rows ++ [row]) (named : row.trailId = trailId)
    (fresh : ∀ other ∈ rows, other.trailId ≠ trailId) :
    (w.updateTrail trailId f keeps).trails.rows = rows ++ [f row] := by
  have others : rows.map (fun other => if decide (other.trailId = trailId) = true then f other else other) = rows :=
    (List.map_congr_left fun other member => by simp [fresh other member]).trans (List.map_id rows)
  rw [World.updateTrail, Table.rows_update, last, List.map_append, others]
  simp [named]

/-- The caps read the trails alone. -/
theorem refuses_congr {v : World} (same : v.trails = w.trails) :
    settings.refuses trail now v = settings.refuses trail now w := by
  have day : ∀ agentId start, (exec (.countSince agentId start) v).1 = (exec (.countSince agentId start) w).1 := by
    simp only [exec, same, implies_true]
  have month : ∀ agentId start,
      (exec (.countBilledSince agentId start) v).1 = (exec (.countBilledSince agentId start) w).1 := by
    simp only [exec, same, implies_true]
  have answer : ((rateLimited settings trail now).run v).1 = ((rateLimited settings trail now).run w).1 := by
    unfold rateLimited rateLimitedAt
    split
    · rfl
    rw [countTrailsToday, Script.run_sql_bind, Script.run_sql_bind, day]
    split
    · rfl
    split
    · rfl
    exact congrArg (fun used => Except.ok (decide (monthlyLimitFree ≤ used))) (month trail.agentId _)
  rw [Settings.refuses, Settings.refuses, answer]

end
end Argentum.Mycelium
