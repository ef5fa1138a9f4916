import Argentum.Community.Lifecycle

/-! The server refines the life of each action: whatever a step does to the
tables, one action sees one `Life.Step`, with a cause that names the operation
behind it. Each handler is followed once, here; later proofs cite `step_refines`
and never unfold a handler. -/
namespace Argentum.Community
open Argentum
variable [SqliteSum]

/-- Some life step, with a cause that explains the operation, leads to `next`. -/
def System.Takes (s : System) (op : Op) (a : String) (next : Life) : Prop :=
  ∃ cause, s.Explains op a cause ∧ Life.Step cause (s.life a) next

section
variable {s : System} {op : Op} {a : String}

theorem takes_idle : s.Takes op a (s.life a) := ⟨.idle, trivial, .idle⟩

/-- A write about one action leaves every other action alone. -/
theorem takes_ite {k : String} {next : Life} (moved : k = a → s.Takes op a next) :
    s.Takes op a (if k = a then next else s.life a) := by
  by_cases same : k = a
  · rw [if_pos same]
    exact moved same
  · rw [if_neg same]
    exact takes_idle

end

section Attestations
variable {db : Database} {ledger : List LedgerEntry} {a k : String} {now : Instant}
  {attestId attesterId attesterName : String} {action : Action} {weight : ℚ} {attested : Attested}

/-- Attesting and, where the weight sum reaches the threshold, verifying. -/
theorem lifeOf_commitAttestation
    (done : commitAttestation db now attestId k action attesterId attesterName weight = .ok attested)
    (known : (db.statusOf k).isSome) :
    lifeOf attested.db (ledger ++ attested.ledger) a =
      if k = a then
        if weightThreshold ≤ SqliteSum.sum (db.weights k ++ [weight]) then
          ((lifeOf db ledger a).attest weight (attesterId = "lightning")).verify
        else (lifeOf db ledger a).attest weight (attesterId = "lightning")
      else lifeOf db ledger a := by
  unfold commitAttestation at done
  split at done
  · contradiction
  rename_i attestations inserted
  have attest : lifeOf { db with attestations } ledger a = _ := lifeOf_insert_attestation (a := a) inserted
  have total : ({ db with attestations } : Database).totalWeight k = SqliteSum.sum (db.weights k ++ [weight]) := by
    rw [Database.totalWeight, weights_insert inserted, if_pos rfl]
  simp only [total, Except.ok.injEq] at done
  subst done
  by_cases reached : weightThreshold ≤ SqliteSum.sum (db.weights k ++ [weight])
  · simp only [reached, decide_true, if_true]
    have verify : lifeOf (verifyAction { db with attestations } now k action)
        (ledger ++ [.credit k action.karmaValue]) a =
        if k = a then (lifeOf { db with attestations } ledger a).verify
        else lifeOf { db with attestations } ledger a := lifeOf_verify known
    refine Eq.trans verify ?_
    rw [attest]
    by_cases same : k = a <;> simp [same]
  · simp only [reached, decide_false, Bool.false_eq_true, if_false, List.append_nil]
    exact attest

omit [SqliteSum] in
/-- A payment that makes two rows finds another attestation already there. -/
theorem hasOtherAttestation_of_count {attestations : Table Attestation}
    (unpaid : db.hasAttested k "lightning" = false)
    (inserted : db.attestations.insert? (lightningAttestation now attestId k) = some attestations)
    (enough : attestationsNeeded ≤ ({ db with attestations } : Database).attestationCount k) :
    db.hasOtherAttestation k = true := by
  simp only [Database.attestationCount, Table.rows_insert inserted, List.countP_append,
    List.countP_singleton, lightningAttestation, decide_true, if_true, attestationsNeeded] at enough
  have some_row : 0 < db.attestations.rows.countP fun row => row.actionId = k := by omega
  obtain ⟨row, stored, mine⟩ := List.countP_pos_iff.mp some_row
  have other : row.attesterId ≠ "lightning" := by
    intro payment
    simp only [Database.hasAttested, List.any_eq_false] at unpaid
    exact unpaid row stored (by simpa [payment] using mine)
  exact List.any_eq_true.mpr ⟨row, stored, by simpa [other] using mine⟩

theorem lifeOf_lightningAttest {event : Database × List LedgerEntry}
    (found : db.actions.find? k = some action) (pending : action.status = .pending)
    (paid : event = lightningAttest db now attestId k action) :
    ∃ cause, (cause = .idle ∨ cause = .pay) ∧
      Life.Step cause (lifeOf db ledger a) (lifeOf event.1 (ledger ++ event.2) a) := by
  have known : (db.statusOf k).isSome := statusOf_isSome.mpr ⟨action, found⟩
  have status : db.statusOf k = some .pending := by simp [Database.statusOf, found, pending]
  rcases lightningAttest_cases db now attestId k action with same | ⟨unpaid, attestations, inserted, settled⟩
  · rw [paid, same, List.append_nil]
    exact ⟨.idle, Or.inl rfl, .idle⟩
  rw [paid, settled]
  have attest : lifeOf { db with attestations } ledger a =
      if k = a then (lifeOf db ledger a).attest 1 true else lifeOf db ledger a :=
    lifeOf_insert_attestation inserted
  by_cases same : k = a
  · subst same
    rw [if_pos rfl] at attest
    split_ifs with enough
    · have verify : lifeOf (verifyAction { db with attestations } now k action)
          (ledger ++ [.credit k action.karmaValue]) k =
          if k = k then (lifeOf { db with attestations } ledger k).verify
          else lifeOf { db with attestations } ledger k := lifeOf_verify known
      rw [verify, if_pos rfl, attest]
      exact ⟨.pay, Or.inr rfl, .payVerify status (hasOtherAttestation_of_count unpaid inserted enough)⟩
    · rw [List.append_nil, attest]
      exact ⟨.pay, Or.inr rfl, .pay status⟩
  · rw [if_neg same] at attest
    refine ⟨.idle, Or.inl rfl, ?_⟩
    split_ifs with enough
    · have verify : lifeOf (verifyAction { db with attestations } now k action)
          (ledger ++ [.credit k action.karmaValue]) a =
          if k = a then (lifeOf { db with attestations } ledger a).verify
          else lifeOf { db with attestations } ledger a := lifeOf_verify known
      rw [verify, if_neg same, attest]
      exact .idle
    · rw [List.append_nil, attest]
      exact .idle

end Attestations

section Handlers
variable {s : System} {op : Op} {a : String}

theorem takes_commit {R : Type} {result : Except Failure (Outcome R)}
    (done : ∀ outcome, result = .ok outcome →
      s.Takes op a (lifeOf outcome.db (s.ledger ++ outcome.ledger) a)) :
    s.Takes op a ((s.commit result).life a) := by
  cases result with
  | error failure => exact takes_idle
  | ok outcome => exact done outcome rfl

theorem takes_submitAction {actionId : String} {req : ActionSubmit} {verified : Bool}
    (done : submitAction s.db actionId req verified = .ok outcome) :
    s.Takes op a (lifeOf outcome.db (s.ledger ++ outcome.ledger) a) := by
  obtain ⟨karma, actions, _, inserted, db, ledger⟩ := submitAction_ok done
  have fresh : s.db.actions.find? actionId = none := (Table.insert?_eq_some_iff.mp inserted).2
  have submitted : lifeOf { s.db with actions } s.ledger a =
      if actionId = a then (s.life a).submit else s.life a := by
    have found : actions.find? a =
        if actionId = a then some (req.row actionId karma) else s.db.actions.find? a :=
      Table.find?_insert inserted a
    by_cases same : actionId = a
    · simp only [lifeOf, Database.statusOf, Database.everVerified, found, same, if_true]
      rfl
    · simp only [lifeOf, Database.statusOf, Database.everVerified, found, same, if_false]
      rfl
  rw [db, ledger, List.append_nil, submitted]
  refine takes_ite ?_
  rintro rfl
  exact ⟨.submit, trivial, .submit (by simp [System.life, lifeOf, Database.statusOf, fresh])⟩

/-- A REST or MCP attestation, explained as a verification when it reaches the threshold. -/
theorem takes_attestation {k attestId attesterId attesterName : String} {now : Instant}
    {action : Action} {weight : ℚ} {attested : Attested}
    (committed : commitAttestation s.db now attestId k action attesterId attesterName weight =
      .ok attested)
    (known : (s.db.statusOf k).isSome) (positive : 0 < weight)
    (planned : s.attests op = some (k, weight)) :
    s.Takes op a (lifeOf attested.db (s.ledger ++ attested.ledger) a) := by
  rw [lifeOf_commitAttestation committed known]
  refine takes_ite ?_
  rintro rfl
  split_ifs with reached
  · exact ⟨.verify, ⟨weight, planned, reached⟩, .verify positive known reached⟩
  · exact ⟨.attest, trivial, .attest positive (not_le.mp reached)⟩

theorem takes_attestFinish {k attestId : String} {now : Instant} {action : Action}
    {req : AttestRequest} {markCount : Nat} {verified : Bool} {outcome : Outcome AttestResponse}
    (done : Rest.attestFinish s.db now attestId k action req markCount verified = .ok outcome)
    (known : (s.db.statusOf k).isSome)
    (planned : ∀ attesterKarma weight,
      Rest.attestWeight s.db req markCount verified = .ok (attesterKarma, weight) →
      s.db.attestations.find? attestId = none → s.attests op = some (k, weight)) :
    s.Takes op a (lifeOf outcome.db (s.ledger ++ outcome.ledger) a) := by
  obtain ⟨attesterKarma, weight, attested, granted, committed, db, ledger⟩ := Rest.attestFinish_ok done
  rw [db, ledger]
  exact takes_attestation committed known (Rest.attestWeight_pos granted)
    (planned _ _ granted (commitAttestation_isOk_iff.mp ⟨attested, committed⟩))

theorem takes_attestBegin {k attestId : String} {now : Instant} {req : AttestRequest} :
    s.Takes (.attestBegin now attestId k req) a ((s.attestBegin now attestId k req).life a) := by
  unfold System.attestBegin
  split
  · exact takes_idle
  rename_i action checked
  obtain ⟨found, _⟩ := Rest.attestChecks_eq_ok_iff.mp checked
  split_ifs with genesis
  · refine takes_commit fun outcome done => ?_
    refine takes_attestFinish done (statusOf_isSome.mpr ⟨action, found⟩) ?_
    intro attesterKarma weight granted fresh
    simp only [Rest.attestWeight, genesis, if_true, Except.ok.injEq, Prod.mk.injEq] at granted
    simp [System.attests, checked, genesis, fresh, granted]
  · exact takes_idle

theorem takes_attestResume (known : s.Known) {index : Nat} {attestId : String} {now : Instant}
    {markCount : Nat} {verified : Bool} :
    s.Takes (.attestResume index now attestId markCount verified) a
      ((s.attestResume index now attestId markCount verified).life a) := by
  unfold System.attestResume
  split
  · exact takes_idle
  rename_i request waiting
  have takes : s.Takes (.attestResume index now attestId markCount verified) a
      ((s.commit (Rest.attestFinish s.db now attestId request.actionId request.action request.req
        markCount verified)).life a) := by
    refine takes_commit fun outcome done => ?_
    refine takes_attestFinish done (known request (List.mem_of_getElem? waiting)) ?_
    intro attesterKarma weight granted fresh
    simp [System.attests, waiting, granted, fresh]
  -- the released request leaves the list of suspended ones, which no life reads
  cases result : Rest.attestFinish s.db now attestId request.actionId request.action request.req
    markCount verified <;> rw [result] at takes <;> exact takes

theorem takes_mcpAttestAction {k attestId attesterId attesterName : String} {now : Instant}
    {outcome : Outcome Mcp.AttestResponse}
    (done : Mcp.attestAction s.db now attestId k attesterId attesterName = .ok outcome) :
    s.Takes (.mcpAttestAction now attestId k attesterId attesterName) a
      (lifeOf outcome.db (s.ledger ++ outcome.ledger) a) := by
  obtain ⟨action, attested, checked, committed, db, ledger⟩ := Mcp.attestAction_ok done
  obtain ⟨found, _⟩ := Mcp.attestChecks_eq_ok_iff.mp checked
  have fresh := commitAttestation_isOk_iff.mp ⟨attested, committed⟩
  rw [db, ledger]
  refine takes_attestation committed (statusOf_isSome.mpr ⟨action, found⟩)
    (Mcp.attestWeight_pos _ _) ?_
  simp [System.attests, checked, fresh]

theorem takes_paymentWebhook {now : Instant} {attestId : String} {authentic : Bool}
    {event : PaymentEvent} {outcome : Outcome WebhookResponse}
    (done : paymentWebhook s.db now attestId authentic event = .ok outcome) :
    s.Takes op a (lifeOf outcome.db (s.ledger ++ outcome.ledger) a) := by
  obtain ⟨db, ledger⟩ | ⟨k, action, found, pending, paid⟩ := paymentWebhook_ok done
  · rw [db, ledger, List.append_nil]
    exact takes_idle
  · have moved : ∃ cause, (cause = .idle ∨ cause = .pay) ∧
        Life.Step cause (s.life a) (lifeOf outcome.db (s.ledger ++ outcome.ledger) a) :=
      lifeOf_lightningAttest found pending paid
    obtain ⟨cause, rfl | rfl, step⟩ := moved
    · exact ⟨.idle, trivial, step⟩
    · exact ⟨.pay, trivial, step⟩

theorem takes_reportAction {k reportId : String} {now : Instant} {req : ReportRequest}
    {verified : Bool} {outcome : Outcome ReportResponse}
    (done : reportAction s.db now reportId k req verified = .ok outcome) :
    s.Takes op a (lifeOf outcome.db (s.ledger ++ outcome.ledger) a) := by
  obtain ⟨status, reports, inserted, db, ledger⟩ := reportAction_ok done
  rw [db, ledger, List.append_nil, lifeOf_insert_report inserted rfl]
  refine takes_ite ?_
  rintro rfl
  exact ⟨.report, trivial, .report status⟩

theorem takes_confirmSlash {k confirmerId : String} {now : Instant} {outcome : Outcome SlashResponse}
    (done : confirmSlash s.db now k confirmerId = .ok outcome) :
    s.Takes (.confirmSlash now k confirmerId) a
      (lifeOf outcome.db (s.ledger ++ outcome.ledger) a) := by
  obtain ⟨genesis, action, found, unslashed, reported, db, ledger⟩ := confirmSlash_ok done
  have known : (s.db.statusOf k).isSome := statusOf_isSome.mpr ⟨action, found⟩
  have final : s.db.statusOf k ≠ some .slashed := by simpa [Database.statusOf, found] using unslashed
  have slash := @lifeOf_slash s.db s.ledger a k (slashWisdom s.db action) action.karmaValue known
  have closed := @lifeOf_confirm_reports
    { s.db with
      wisdom := slashWisdom s.db action
      actions := s.db.actions.update (fun row => row.id = k) Action.slash Action.key_slash }
    (s.ledger ++ [.debit k action.karmaValue]) a k now
  rw [db, ledger, closed, slash]
  by_cases same : k = a
  · subst same
    simp only [if_true]
    exact ⟨.slash, ⟨now, confirmerId, genesis, rfl⟩, .slash known final reported⟩
  · simp only [same, if_false]
    exact takes_idle

theorem takes_openDispute {k disputeId : String} {now : Instant} {req : DisputeRequest}
    {verified : Bool} {outcome : Outcome DisputeResponse}
    (done : openDispute s.db now disputeId k req verified = .ok outcome) :
    s.Takes op a (lifeOf outcome.db (s.ledger ++ outcome.ledger) a) := by
  obtain ⟨status, undisputed, disputes, inserted, db, ledger⟩ := openDispute_ok done
  have known : (s.db.statusOf k).isSome := by
    rcases status with status | status <;> simp [status]
  have opened := @lifeOf_insert_dispute s.db s.ledger a disputes _ inserted rfl
  have set := @lifeOf_set_status { s.db with disputes } s.ledger a k Action.dispute
    Action.key_dispute .disputed known (fun _ => rfl) (fun _ => rfl)
  rw [db, ledger, List.append_nil, set, opened]
  by_cases same : k = a
  · subst same
    simp only [if_true]
    exact ⟨.dispute, trivial, .dispute status undisputed⟩
  · simp only [same, if_false]
    exact takes_idle

theorem takes_klerosRuling {k : String} {now : Instant} {authentic : Bool} {ruling : Int}
    {outcome : Outcome RulingResponse}
    (done : klerosRuling s.db now authentic k ruling = .ok outcome) :
    s.Takes (.klerosRuling now authentic k ruling) a
      (lifeOf outcome.db (s.ledger ++ outcome.ledger) a) := by
  obtain ⟨rfl, action, dispute, found, disputed, latest, settled⟩ := klerosRuling_ok done
  have known : (s.db.statusOf k).isSome := statusOf_isSome.mpr ⟨action, found⟩
  have status : s.db.statusOf k = some .disputed := by simp [Database.statusOf, found, disputed]
  have waiting : 0 < s.db.pendingDisputes k :=
    (latestPendingDispute_isSome_iff s.db k).mp (by simp [latest])
  rcases settled with ⟨rfl, db, ledger⟩ | ⟨restores, outcomeStatus, resolved, db, ledger⟩
  · have slash := @lifeOf_slash s.db s.ledger a k (slashWisdom s.db action) action.karmaValue known
    have resolve := @lifeOf_resolve_dispute
      { s.db with
        wisdom := slashWisdom s.db action
        actions := s.db.actions.update (fun row => row.id = k) Action.slash Action.key_slash }
      (s.ledger ++ [.debit k action.karmaValue]) a k dispute .ruledSlash 1 now latest
      (fun same => by cases same)
    rw [db, ledger, resolve, slash]
    by_cases same : k = a
    · subst same
      simp only [if_true]
      exact ⟨.ruleSlash, ⟨now, rfl⟩, .ruleSlash status waiting⟩
    · simp only [same, if_false]
      exact takes_idle
  · have set := @lifeOf_set_status s.db s.ledger a k Action.restore Action.key_restore .verified
      known (fun _ => rfl) (fun _ => rfl)
    have resolve := @lifeOf_resolve_dispute
      { s.db with
        actions := s.db.actions.update (fun row => row.id = k) Action.restore Action.key_restore }
      s.ledger a k dispute outcomeStatus ruling now latest resolved
    rw [db, ledger, List.append_nil, resolve, set]
    by_cases same : k = a
    · subst same
      simp only [if_true]
      exact ⟨.restore, ⟨now, ruling, restores, rfl⟩, .restore status waiting⟩
    · simp only [same, if_false]
      exact takes_idle

/-- The server refines the life of every action. -/
theorem step_refines (known : s.Known) (op : Op) (a : String) :
    s.Takes op a ((s.step op).life a) := by
  cases op with
  | submitAction => exact takes_commit fun _ done => takes_submitAction done
  | attestBegin => exact takes_attestBegin
  | attestResume => exact takes_attestResume known
  | mcpAttestAction => exact takes_commit fun _ done => takes_mcpAttestAction done
  | paymentWebhook => exact takes_commit fun _ done => takes_paymentWebhook done
  | reportAction => exact takes_commit fun _ done => takes_reportAction done
  | confirmSlash => exact takes_commit fun _ done => takes_confirmSlash done
  | openDispute => exact takes_commit fun _ done => takes_openDispute done
  | klerosRuling => exact takes_commit fun _ done => takes_klerosRuling done
  | creditKarma => exact takes_idle

end Handlers

/-- No life step forgets that the action exists. -/
theorem Life.Step.status_isSome {cause : Life.Cause} {before after : Life}
    (step : Life.Step cause before after) (known : before.status.isSome) : after.status.isSome := by
  cases step with
  | idle | attest | pay | report => exact known
  | submit | verify | payVerify | slash | dispute | ruleSlash | restore => rfl

/-- A step suspends nothing but a request whose action it has just read. -/
theorem mem_suspended_step {s : System} {op : Op} {request : Suspended}
    (waiting : request ∈ (s.step op).suspended) :
    request ∈ s.suspended ∨ (s.db.statusOf request.actionId).isSome := by
  have committed : ∀ {R : Type} (s : System) (result : Except Failure (Outcome R)),
      (s.commit result).suspended = s.suspended := fun s result => by cases result <;> rfl
  cases op with
  | attestBegin now attestId actionId req =>
      simp only [System.step, System.attestBegin] at waiting
      split at waiting
      · exact Or.inl waiting
      rename_i action checked
      split_ifs at waiting
      · rw [committed] at waiting
        exact Or.inl waiting
      · rcases List.mem_append.mp waiting with earlier | new
        · exact Or.inl earlier
        · obtain rfl := List.mem_singleton.mp new
          exact Or.inr (statusOf_isSome.mpr ⟨action, (Rest.attestChecks_eq_ok_iff.mp checked).1⟩)
  | attestResume index now attestId markCount verified =>
      simp only [System.step, System.attestResume] at waiting
      split at waiting
      · exact Or.inl waiting
      · rw [committed] at waiting
        exact Or.inl (List.mem_of_mem_eraseIdx waiting)
  | creditKarma => exact Or.inl waiting
  | submitAction | mcpAttestAction | paymentWebhook | reportAction | confirmSlash | openDispute
  | klerosRuling =>
      rw [System.step, committed] at waiting
      exact Or.inl waiting

theorem known_step {s : System} (known : s.Known) (op : Op) : (s.step op).Known := by
  intro request waiting
  obtain ⟨cause, _, step⟩ := step_refines known op request.actionId
  exact step.status_isSome ((mem_suspended_step waiting).elim (known request) id)

theorem known_run {start : System} (known : start.Known) (ops : List Op) :
    (Transition.run System.step start ops).Known := by
  induction ops generalizing start with
  | nil => exact known
  | cons op rest ih => exact ih (known_step known op)

/-- The run rule for one action: a property of the server that depends on one
action's life, holds at the start and is kept by every life step a guard admits,
holds wherever an admitted run ends. -/
theorem life_invariant {guard : System → Op → Prop} {Inv : Life → Prop} {a : String} {start : System}
    {ops : List Op} (admitted : Transition.Admits System.step guard start ops)
    (known : start.Known) (initial : Inv (start.life a))
    (preserves : ∀ s op cause next, guard s op → s.Explains op a cause → Inv (s.life a) →
      Life.Step cause (s.life a) next → Inv next) :
    Inv ((Transition.run System.step start ops).life a) := by
  refine (admitted.invariant (P := fun s => Inv (s.life a) ∧ s.Known) ?_ ⟨initial, known⟩).1
  rintro s op ⟨holds, known⟩ allowed
  obtain ⟨cause, explained, step⟩ := step_refines known op a
  exact ⟨preserves s op cause _ allowed explained holds step, known_step known op⟩

end Argentum.Community
