import Argentum.Community.Wisdom

/-! The three ways an attestation enters the database: REST `attest_action`,
which suspends at the awaited marks lookup, the hand-copied MCP tool, and the
Lightning `payment_webhook`. What a handler asks outside the database is an
argument: the clock, the generated id, the mark count, and the answer of
`agent_signing.verify_request`. -/
namespace Argentum.Community
open Argentum

/-- What a handler answers, with the database it commits and the entries it
makes on the poster's account for an action. -/
structure Outcome (R : Type) where
  db : Database
  ledger : List LedgerEntry
  response : R

/-- The database a handler commits, or the old one where it refused. -/
def Database.commit {R : Type} (db : Database) : Except Failure (Outcome R) → Database
  | .error _ => db
  | .ok outcome => outcome.db

structure Credentials where
  signature : Option String
  timestamp : Option Int
  nonce : Option String
  deriving DecidableEq, Repr

/-- `_verify_agent_signature`: all three fields present and truthy, and
`verify_request` accepts. An unsigned request is never asked about. -/
def verifyAgentSignature (credentials : Credentials) (verified : Bool) : Bool :=
  match credentials with
  | ⟨some signature, some timestamp, some nonce⟩ =>
      signature ≠ "" && timestamp ≠ 0 && nonce ≠ "" && verified
  | _ => false

@[simp] theorem verifyAgentSignature_unsigned (timestamp : Option Int) (nonce : Option String)
    (verified : Bool) : verifyAgentSignature ⟨none, timestamp, nonce⟩ verified = false := rfl

structure AttestRequest where
  attesterId : String
  attesterName : String
  credentials : Credentials
  deriving DecidableEq, Repr

structure AttestResponse where
  attestationId : String
  actionId : String
  attestationsSoFar : Nat
  totalWeight : ℚ
  weightThreshold : ℚ
  thisAttestationWeight : ℚ
  verified : Bool
  witnessKarmaEarned : Int
  attesterKarma : Int

def Action.verify (now : Instant) (action : Action) : Action :=
  { action with status := .verified, verifiedAt := some now }

theorem Action.key_verify (now : Instant) (action : Action) :
    Keyed.key (action.verify now) = Keyed.key action := rfl

/-- The two statements every verifying handler runs: the status update and the
poster's credit. `action` is the row the handler read first. -/
def verifyAction (db : Database) (now : Instant) (actionId : String) (action : Action) : Database :=
  { db with
    actions := db.actions.update (fun row => row.id = actionId) (Action.verify now)
      (Action.key_verify now)
    wisdom := upsertWisdom db.wisdom action.entityId action.entityName action.entityType
      action.karmaValue true false (some now) }

/-- What the insert, the weight sum and the two upserts leave behind. -/
structure Attested where
  db : Database
  ledger : List LedgerEntry
  totalWeight : ℚ
  count : Nat
  verifiedNow : Bool

/-- From the insert on, REST and MCP `attest_action` run the same statements.
Neither reads the action's status again. -/
def commitAttestation [SqliteSum] (db : Database) (now : Instant) (attestId actionId : String) (action : Action)
    (attesterId attesterName : String) (weight : ℚ) : Except Failure Attested :=
  match db.attestations.insert? ⟨attestId, actionId, attesterId, attesterName, now, weight⟩ with
  | none => .error .integrityError
  | some attestations =>
      let inserted := { db with attestations }
      let totalWeight := inserted.totalWeight actionId
      let verifiedNow := decide (weightThreshold ≤ totalWeight)
      let settled := if verifiedNow then verifyAction inserted now actionId action else inserted
      .ok
        { db := { settled with
            wisdom := upsertWisdom settled.wisdom attesterId attesterName "unknown" witnessKarma
              false true none }
          ledger := if verifiedNow then [.credit actionId action.karmaValue] else []
          totalWeight
          count := inserted.attestationCount actionId
          verifiedNow }

/-- `max(KARMA_WEIGHT_MIN, min(KARMA_WEIGHT_MAX, attester_karma / KARMA_WEIGHT_BASE))`. -/
def karmaWeight (attesterKarma : Int) : ℚ :=
  max karmaWeightMin (min karmaWeightMax (doubleOf (attesterKarma / karmaWeightBase)))

section
variable [SqliteSum] {db : Database} {now : Instant} {attestId actionId attesterId attesterName : String}
  {action : Action} {weight : ℚ} {attested : Attested}

/-- The only way from the insert on to fail is a taken id. -/
theorem commitAttestation_isOk_iff :
    (∃ attested, commitAttestation db now attestId actionId action attesterId attesterName weight =
      .ok attested) ↔ db.attestations.find? attestId = none := by
  have fits : (db.attestations.insert? ⟨attestId, actionId, attesterId, attesterName, now, weight⟩).isSome ↔
      db.attestations.find? attestId = none := Table.insert?_isSome_iff
  unfold commitAttestation
  split
  · rename_i taken
    rw [taken] at fits
    simpa using fits
  · rename_i attestations inserted
    rw [inserted] at fits
    simpa using fits

theorem commitAttestation_attestations
    (done : commitAttestation db now attestId actionId action attesterId attesterName weight =
      .ok attested) :
    attested.db.attestations.rows =
      db.attestations.rows ++ [⟨attestId, actionId, attesterId, attesterName, now, weight⟩] := by
  unfold commitAttestation at done
  split at done
  · contradiction
  · rename_i attestations inserted
    rw [Except.ok.injEq] at done
    subst done
    rw [← Table.rows_insert inserted]
    dsimp only
    split <;> rfl

end

/-- The stored row is found under its generated id. -/
theorem commitAttestation_find? [SqliteSum] {db : Database} {now : Instant}
    {attestId actionId attesterId attesterName : String} {action : Action} {weight : ℚ}
    {attested : Attested}
    (done : commitAttestation db now attestId actionId action attesterId attesterName weight =
      .ok attested) :
    attested.db.attestations.find? attestId =
      some ⟨attestId, actionId, attesterId, attesterName, now, weight⟩ := by
  refine Table.find?_eq_some_iff.mpr ⟨?_, rfl⟩
  rw [commitAttestation_attestations done]
  simp

theorem karmaWeight_pos (attesterKarma : Int) : 0 < karmaWeight attesterKarma :=
  lt_of_lt_of_le (by norm_num [karmaWeightMin]) (le_max_left _ _)

namespace Rest

/-- REST `attest_action` up to its await: the refusals, in order, and the row
the rest of the handler keeps using. -/
def attestChecks (db : Database) (now : Instant) (actionId : String) (req : AttestRequest) :
    Except Failure Action :=
  match db.actions.find? actionId with
  | none => .error (.http 404 "Action not found")
  | some action =>
      if action.status = .verified then .error (.http 400 "Action already verified")
      else if action.entityId = req.attesterId then
        .error (.http 400 "Cannot attest your own action")
      else if db.hasAttested actionId req.attesterId then .error (.http 400 "Already attested")
      else if req.attesterId ∉ genesisAttestors ∧
          maxAttestationsPerDay ≤ db.todayCount req.attesterId now then
        .error (.http 429
          s!"Rate limit: max {maxAttestationsPerDay} attestations per day. Try again tomorrow.")
      else .ok action

/-- The attester's karma and weight. Genesis attestors skip the await and both
gates; anyone else needs a mark and is halved when unsigned. -/
def attestWeight (db : Database) (req : AttestRequest) (markCount : Nat) (verified : Bool) :
    Except Failure (Int × ℚ) :=
  if req.attesterId ∈ genesisAttestors then .ok (0, 1)
  else if markCount < minimumMarksToAttest then
    .error (.http 403
      (s!"Attestor needs at least {minimumMarksToAttest} Mark to attest. " ++
        s!"{req.attesterId} has {markCount}. Earn marks through verified actions."))
  else if db.karmaOf req.attesterId < minimumKarmaToAttest then
    .error (.http 403
      (s!"Attestor needs at least {minimumKarmaToAttest} karma to attest. " ++
        s!"{req.attesterId} has {db.karmaOf req.attesterId}."))
  else .ok (db.karmaOf req.attesterId,
    if verifyAgentSignature req.credentials verified then karmaWeight (db.karmaOf req.attesterId)
    else karmaWeight (db.karmaOf req.attesterId) * (1 / 2))

theorem attestChecks_eq_ok_iff {db : Database} {now : Instant} {actionId : String} {req : AttestRequest}
    {action : Action} : attestChecks db now actionId req = .ok action ↔
      db.actions.find? actionId = some action ∧ action.status ≠ .verified ∧
        action.entityId ≠ req.attesterId ∧ db.hasAttested actionId req.attesterId = false ∧
        (req.attesterId ∉ genesisAttestors →
          db.todayCount req.attesterId now < maxAttestationsPerDay) := by
  unfold attestChecks
  cases db.actions.find? actionId with
  | none => simp
  | some row =>
      dsimp only
      split_ifs with verified own attested limited
      · simp only [Option.some.injEq, false_iff]
        rintro ⟨rfl, unverified, _⟩
        exact unverified verified
      · simp only [Option.some.injEq, false_iff]
        rintro ⟨rfl, _, other, _⟩
        exact other own
      · simp only [attested, Bool.true_eq_false, false_and, and_false]
      · simp only [false_iff]
        rintro ⟨_, _, _, _, room⟩
        exact absurd (room limited.1) (Nat.not_lt.mpr limited.2)
      · simp only [Except.ok.injEq, Option.some.injEq]
        constructor
        · rintro rfl
          refine ⟨rfl, verified, own, by simpa using attested, ?_⟩
          intro outside
          exact Nat.lt_of_not_le fun full => limited ⟨outside, full⟩
        · exact And.left

theorem attestWeight_pos {db : Database} {req : AttestRequest} {markCount : Nat} {verified : Bool}
    {attesterKarma : Int} {weight : ℚ}
    (granted : attestWeight db req markCount verified = .ok (attesterKarma, weight)) : 0 < weight := by
  unfold attestWeight at granted
  split_ifs at granted <;> cases granted
  · norm_num
  · exact karmaWeight_pos _
  · exact mul_pos (karmaWeight_pos _) (by norm_num)

/-- REST `attest_action` after its await, on the database of that moment and
the action row read before it. -/
def attestFinish [SqliteSum] (db : Database) (now : Instant) (attestId actionId : String) (action : Action)
    (req : AttestRequest) (markCount : Nat) (verified : Bool) : Except Failure (Outcome AttestResponse) :=
  match attestWeight db req markCount verified with
  | .error failure => .error failure
  | .ok (attesterKarma, weight) =>
      match commitAttestation db now attestId actionId action req.attesterId req.attesterName weight with
      | .error failure => .error failure
      | .ok attested => .ok
          { db := attested.db
            ledger := attested.ledger
            response :=
              { attestationId := attestId
                actionId
                attestationsSoFar := attested.count
                totalWeight := round2 attested.totalWeight
                weightThreshold
                thisAttestationWeight := round2 weight
                verified := attested.verifiedNow
                witnessKarmaEarned := witnessKarma
                attesterKarma } }

theorem attestFinish_ok [SqliteSum] {db : Database} {now : Instant} {attestId actionId : String} {action : Action}
    {req : AttestRequest} {markCount : Nat} {verified : Bool} {outcome : Outcome AttestResponse}
    (done : attestFinish db now attestId actionId action req markCount verified = .ok outcome) :
    ∃ attesterKarma weight attested,
      attestWeight db req markCount verified = .ok (attesterKarma, weight) ∧
      commitAttestation db now attestId actionId action req.attesterId req.attesterName weight =
        .ok attested ∧
      outcome.db = attested.db ∧ outcome.ledger = attested.ledger := by
  unfold attestFinish at done
  split at done
  · contradiction
  rename_i attesterKarma weight granted
  split at done
  · contradiction
  rename_i attested committed
  cases done
  exact ⟨attesterKarma, weight, attested, granted, committed, rfl, rfl⟩

/-- REST `attest_action` with nothing running between its two steps. -/
def attestAction [SqliteSum] (db : Database) (now : Instant) (attestId actionId : String) (req : AttestRequest)
    (markCount : Nat) (verified : Bool) : Except Failure (Outcome AttestResponse) :=
  match attestChecks db now actionId req with
  | .error failure => .error failure
  | .ok action => attestFinish db now attestId actionId action req markCount verified

theorem attestAction_of_checks [SqliteSum] {db : Database} {now : Instant} {attestId actionId : String}
    {req : AttestRequest} {markCount : Nat} {verified : Bool} {action : Action} {attesterKarma : Int}
    {weight : ℚ} {attested : Attested} (checked : attestChecks db now actionId req = .ok action)
    (granted : attestWeight db req markCount verified = .ok (attesterKarma, weight))
    (committed : commitAttestation db now attestId actionId action req.attesterId req.attesterName
      weight = .ok attested) :
    ∃ outcome, attestAction db now attestId actionId req markCount verified = .ok outcome ∧
      outcome.db = attested.db := by
  simp [attestAction, checked, attestFinish, granted, committed]

end Rest

namespace Mcp

/-- What the text of MCP `attest_action` reports. -/
structure AttestResponse where
  attestWeight : ℚ
  totalWeight : ℚ
  verified : Bool
  witnessKarmaEarned : Int

/-- The guards of MCP `attest_action`: no daily count and no marks. -/
def attestChecks (db : Database) (actionId attesterId : String) : Except Failure Action :=
  match db.actions.find? actionId with
  | none => .error (.refused "Action not found.")
  | some action =>
      if action.status = .verified then .error (.refused "Action already verified.")
      else if action.entityId = attesterId then .error (.refused "Cannot attest your own action.")
      else if db.hasAttested actionId attesterId then .error (.refused "Already attested.")
      else .ok action

/-- The weight of MCP `attest_action`: no karma floor and no discount. -/
def attestWeight (db : Database) (attesterId : String) : ℚ :=
  if attesterId ∈ genesisAttestors then 1 else karmaWeight (db.karmaOf attesterId)

theorem attestWeight_pos (db : Database) (attesterId : String) : 0 < attestWeight db attesterId := by
  unfold attestWeight
  split
  · norm_num
  · exact karmaWeight_pos _

theorem attestChecks_eq_ok_iff {db : Database} {actionId attesterId : String} {action : Action} :
    attestChecks db actionId attesterId = .ok action ↔
      db.actions.find? actionId = some action ∧ action.status ≠ .verified ∧
        action.entityId ≠ attesterId ∧ db.hasAttested actionId attesterId = false := by
  unfold attestChecks
  cases db.actions.find? actionId with
  | none => simp
  | some row =>
      dsimp only
      split_ifs with verified own attested
      · simp only [Option.some.injEq, false_iff]
        rintro ⟨rfl, unverified, _⟩
        exact unverified verified
      · simp only [Option.some.injEq, false_iff]
        rintro ⟨rfl, _, other, _⟩
        exact other own
      · simp only [attested, Bool.true_eq_false, and_false]
      · simp only [Except.ok.injEq, Option.some.injEq]
        constructor
        · rintro rfl
          exact ⟨rfl, verified, own, by simpa using attested⟩
        · exact And.left

def attestAction [SqliteSum] (db : Database) (now : Instant)
    (attestId actionId attesterId attesterName : String) :
    Except Failure (Outcome AttestResponse) :=
  match attestChecks db actionId attesterId with
  | .error failure => .error failure
  | .ok action =>
      match commitAttestation db now attestId actionId action attesterId attesterName
          (attestWeight db attesterId) with
      | .error failure => .error failure
      | .ok attested => .ok
          { db := attested.db
            ledger := attested.ledger
            response :=
              { attestWeight := round2 (attestWeight db attesterId)
                totalWeight := round2 attested.totalWeight
                verified := attested.verifiedNow
                witnessKarmaEarned := witnessKarma } }

theorem attestAction_ok [SqliteSum] {db : Database} {now : Instant}
    {attestId actionId attesterId attesterName : String} {outcome : Outcome AttestResponse}
    (done : attestAction db now attestId actionId attesterId attesterName = .ok outcome) :
    ∃ action attested, attestChecks db actionId attesterId = .ok action ∧
      commitAttestation db now attestId actionId action attesterId attesterName
        (attestWeight db attesterId) = .ok attested ∧
      outcome.db = attested.db ∧ outcome.ledger = attested.ledger := by
  unfold attestAction at done
  split at done
  · contradiction
  rename_i action checked
  split at done
  · contradiction
  rename_i attested committed
  cases done
  exact ⟨action, attested, checked, committed, rfl, rfl⟩

end Mcp

/-- The fields of a phoenixd delivery. -/
structure PaymentEvent where
  type : String
  externalId : String
  amountSat : Int
  paymentHash : String
  deriving DecidableEq, Repr

inductive WebhookResponse where
  | ignored
  | ok (amountSat : Int) (externalId : String)
  deriving DecidableEq, Repr

/-- `external_id.split(":", 1)[1]`, for an id that starts with `action:`. -/
def externalActionId (externalId : String) : Option String :=
  if "action:".toList.isPrefixOf externalId.toList then
    some (String.ofList (externalId.toList.drop "action:".toList.length))
  else none

/-- The row a payment inserts. Its weight is the column's default. -/
def lightningAttestation (now : Instant) (attestId actionId : String) : Attestation :=
  { id := attestId
    actionId
    attesterId := "lightning"
    attesterName := "Lightning Network"
    createdAt := now
    weight := 1 }

/-- The body of the webhook's `try` block, for an action read as pending. Its
`except` swallows a taken id, which commits nothing. The threshold here counts
rows. -/
def lightningAttest (db : Database) (now : Instant) (attestId actionId : String) (action : Action) :
    Database × List LedgerEntry :=
  if db.hasAttested actionId "lightning" then (db, [])
  else match db.attestations.insert? (lightningAttestation now attestId actionId) with
    | none => (db, [])
    | some attestations =>
        let inserted := { db with attestations }
        if attestationsNeeded ≤ inserted.attestationCount actionId then
          (verifyAction inserted now actionId action, [.credit actionId action.karmaValue])
        else (inserted, [])

/-- A payment leaves everything as it was, or inserts the one Lightning row and
verifies the action when that makes two rows. -/
theorem lightningAttest_cases (db : Database) (now : Instant) (attestId actionId : String)
    (action : Action) :
    lightningAttest db now attestId actionId action = (db, []) ∨
      db.hasAttested actionId "lightning" = false ∧ ∃ attestations,
        db.attestations.insert? (lightningAttestation now attestId actionId) = some attestations ∧
        lightningAttest db now attestId actionId action =
          if attestationsNeeded ≤ ({ db with attestations } : Database).attestationCount actionId then
            (verifyAction { db with attestations } now actionId action,
              [.credit actionId action.karmaValue])
          else ({ db with attestations }, []) := by
  unfold lightningAttest
  split_ifs with paid
  · exact Or.inl rfl
  · split
    · exact Or.inl rfl
    · rename_i attestations inserted
      exact Or.inr ⟨by simpa using paid, attestations, inserted, rfl⟩

def paymentWebhook (db : Database) (now : Instant) (attestId : String) (authentic : Bool)
    (event : PaymentEvent) : Except Failure (Outcome WebhookResponse) :=
  if authentic = false then .error (.http 401 "Invalid webhook signature")
  else if event.type ≠ "payment_received" then .ok ⟨db, [], .ignored⟩
  else match externalActionId event.externalId with
    | none => .ok ⟨db, [], .ok event.amountSat event.externalId⟩
    | some actionId => match db.actions.find? actionId with
      | none => .ok ⟨db, [], .ok event.amountSat event.externalId⟩
      | some action =>
          if action.status = .pending then
            let paid := lightningAttest db now attestId actionId action
            .ok ⟨paid.1, paid.2, .ok event.amountSat event.externalId⟩
          else .ok ⟨db, [], .ok event.amountSat event.externalId⟩

theorem paymentWebhook_ok {db : Database} {now : Instant} {attestId : String} {authentic : Bool}
    {event : PaymentEvent} {outcome : Outcome WebhookResponse}
    (done : paymentWebhook db now attestId authentic event = .ok outcome) :
    outcome.db = db ∧ outcome.ledger = [] ∨
      ∃ actionId action, db.actions.find? actionId = some action ∧ action.status = .pending ∧
        (outcome.db, outcome.ledger) = lightningAttest db now attestId actionId action := by
  unfold paymentWebhook at done
  split_ifs at done
  · cases done
    exact Or.inl ⟨rfl, rfl⟩
  split at done
  · cases done
    exact Or.inl ⟨rfl, rfl⟩
  rename_i actionId _
  split at done
  · cases done
    exact Or.inl ⟨rfl, rfl⟩
  rename_i action found
  split_ifs at done with pending
  · cases done
    exact Or.inr ⟨actionId, action, found, pending, rfl⟩
  · cases done
    exact Or.inl ⟨rfl, rfl⟩

end Argentum.Community
