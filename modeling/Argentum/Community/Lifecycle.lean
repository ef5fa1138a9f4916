import Argentum.Community.System

/-! One action seen alone: its status, its evidence, its open report and pending
disputes, and what its poster was paid. `Life.Step` says everything a server
step can do to it, whichever handler takes the step; `step_refines` connects the
two. Invariants are proved of `Life.Step`, case by case. -/
namespace Argentum.Community
open Argentum

structure Life where
  status : Option Status
  everVerified : Bool
  weights : List ℚ
  lightning : Bool
  others : Bool
  openReport : Bool
  pendingDisputes : Nat
  credits : Nat
  debits : Nat

namespace Life

def submit (l : Life) : Life := { l with status := some .pending, everVerified := false }

/-- One more attestation, from Lightning or from another attester. -/
def attest (l : Life) (weight : ℚ) (lightning : Bool) : Life :=
  { l with
    weights := l.weights ++ [weight]
    lightning := l.lightning || lightning
    others := l.others || !lightning }

def verify (l : Life) : Life :=
  { l with status := some .verified, everVerified := true, credits := l.credits + 1 }

def report (l : Life) : Life := { l with openReport := true }

def slash (l : Life) : Life := { l with status := some .slashed, debits := l.debits + 1 }

def closeReports (l : Life) : Life := { l with openReport := false }

def dispute (l : Life) : Life :=
  { l with status := some .disputed, pendingDisputes := l.pendingDisputes + 1 }

def restore (l : Life) : Life := { l with status := some .verified }

def resolve (l : Life) : Life := { l with pendingDisputes := l.pendingDisputes - 1 }

/-- What a step did to the action. `verify` is a REST or MCP attestation that
reached the weight threshold, `pay` a Lightning payment whatever it led to. -/
inductive Cause where
  | idle | submit | attest | verify | pay | report | slash | dispute | ruleSlash | restore
  deriving DecidableEq, Repr

inductive Step [SqliteSum] : Cause → Life → Life → Prop where
  | idle : Step .idle l l
  | submit : l.status = none → Step .submit l l.submit
  | attest : 0 < added → SqliteSum.sum (l.weights ++ [added]) < weightThreshold →
      Step .attest l (l.attest added fromLightning)
  | verify : 0 < added → l.status.isSome → weightThreshold ≤ SqliteSum.sum (l.weights ++ [added]) →
      Step .verify l (l.attest added fromLightning).verify
  | pay : l.status = some .pending → Step .pay l (l.attest 1 true)
  | payVerify : l.status = some .pending → l.others = true → Step .pay l (l.attest 1 true).verify
  | report : l.status = some .verified → Step .report l l.report
  | slash : l.status.isSome → l.status ≠ some .slashed → l.openReport = true →
      Step .slash l l.slash.closeReports
  | dispute : l.status = some .verified ∨ l.status = some .pending → l.pendingDisputes = 0 →
      Step .dispute l l.dispute
  | ruleSlash : l.status = some .disputed → 0 < l.pendingDisputes →
      Step .ruleSlash l l.slash.resolve
  | restore : l.status = some .disputed → 0 < l.pendingDisputes →
      Step .restore l l.restore.resolve

theorem Step.disputed [SqliteSum] {l next : Life} (step : Step .restore l next) : l.status = some .disputed := by
  cases step
  assumption

end Life

/-- `verified_at` of an action. Every verification sets it and nothing clears it. -/
def Database.everVerified (db : Database) (actionId : String) : Bool :=
  ((db.actions.find? actionId).bind Action.verifiedAt).isSome

/-- An attestation of the action by anyone but `lightning`. -/
def Database.hasOtherAttestation (db : Database) (actionId : String) : Bool :=
  db.attestations.rows.any fun row => row.actionId = actionId ∧ row.attesterId ≠ "lightning"

/-- The life of an action, on a database and the ledger that led to it. -/
def lifeOf (db : Database) (ledger : List LedgerEntry) (actionId : String) : Life :=
  { status := db.statusOf actionId
    everVerified := db.everVerified actionId
    weights := db.weights actionId
    lightning := db.hasAttested actionId "lightning"
    others := db.hasOtherAttestation actionId
    openReport := db.hasOpenReport actionId
    pendingDisputes := db.pendingDisputes actionId
    credits := ledger.countP (LedgerEntry.credits actionId)
    debits := ledger.countP (LedgerEntry.debits actionId) }

def System.life (s : System) (actionId : String) : Life := lifeOf s.db s.ledger actionId

/-- Which operation stands behind a cause. -/
def System.Explains [SqliteSum] (s : System) (op : Op) (actionId : String) : Life.Cause → Prop
  | .verify => s.Reaches op actionId
  | .slash => ∃ now confirmerId, confirmerId ∈ genesisAttestors ∧
      op = .confirmSlash now actionId confirmerId
  | .ruleSlash => ∃ now, op = .klerosRuling now true actionId 1
  | .restore => ∃ now ruling, ruling ≠ 1 ∧ op = .klerosRuling now true actionId ruling
  | _ => True

/-- Every suspended request read an action that is still there. -/
def System.Known (s : System) : Prop :=
  ∀ request ∈ s.suspended, (s.db.statusOf request.actionId).isSome

/-! What one write does to the life of an action. -/

section
variable {db : Database} {ledger : List LedgerEntry} {a k : String}

theorem find?_update_action {actions : Table Action} {f : Action → Action}
    {keeps : ∀ row, Keyed.key (f row) = Keyed.key row} :
    (actions.update (fun row => row.id = k) f keeps).find? a =
      if k = a then (actions.find? a).map f else actions.find? a :=
  Table.find?_update_key fun _ => rfl

theorem statusOf_isSome : (db.statusOf k).isSome ↔ ∃ row, db.actions.find? k = some row := by
  rw [Database.statusOf, Option.isSome_map, Option.isSome_iff_exists]

theorem weights_insert {attestations : Table Attestation} {row : Attestation}
    (inserted : db.attestations.insert? row = some attestations) :
    ({ db with attestations } : Database).weights a =
      db.weights a ++ if row.actionId = a then [row.weight] else [] := by
  simp only [Database.weights, Table.rows_insert inserted, List.filter_append, List.map_append]
  by_cases same : row.actionId = a <;> simp [same]

theorem lifeOf_insert_attestation {attestations : Table Attestation} {row : Attestation}
    (inserted : db.attestations.insert? row = some attestations) :
    lifeOf { db with attestations } ledger a =
      if row.actionId = a then
        (lifeOf db ledger a).attest row.weight (row.attesterId = "lightning")
      else lifeOf db ledger a := by
  have rows := Table.rows_insert inserted
  have weights := weights_insert (a := a) inserted
  have lightning : ({ db with attestations } : Database).hasAttested a "lightning" =
      (db.hasAttested a "lightning" || decide (row.actionId = a ∧ row.attesterId = "lightning")) := by
    simp [Database.hasAttested, rows]
  have others : ({ db with attestations } : Database).hasOtherAttestation a =
      (db.hasOtherAttestation a || decide (row.actionId = a ∧ row.attesterId ≠ "lightning")) := by
    simp [Database.hasOtherAttestation, rows]
  by_cases same : row.actionId = a
  · simp only [lifeOf, Life.attest, weights, lightning, others, same, if_true, true_and, decide_not]
    rfl
  · simp only [lifeOf, weights, lightning, others, same, if_false, false_and, decide_false,
      Bool.or_false, List.append_nil]
    rfl

/-- A write to one action's row, whatever it assigns. -/
theorem lifeOf_update {f : Action → Action} {keeps : ∀ row, Keyed.key (f row) = Keyed.key row} :
    lifeOf { db with actions := db.actions.update (fun row => row.id = k) f keeps } ledger a =
      if k = a then
        { lifeOf db ledger a with
          status := (db.actions.find? a).map fun row => (f row).status
          everVerified := ((db.actions.find? a).bind fun row => (f row).verifiedAt).isSome }
      else lifeOf db ledger a := by
  by_cases same : k = a
  · simp only [lifeOf, Database.statusOf, Database.everVerified, find?_update_action, same, if_true,
      Option.map_map, Option.bind_map]
    rfl
  · simp only [lifeOf, Database.statusOf, Database.everVerified, find?_update_action, same, if_false]
    rfl

/-- Slashing, disputing and restoring set the status alone. -/
theorem lifeOf_set_status {f : Action → Action} {keeps : ∀ row, Keyed.key (f row) = Keyed.key row}
    {status : Status} (known : (db.statusOf k).isSome) (sets : ∀ row, (f row).status = status)
    (kept : ∀ row, (f row).verifiedAt = row.verifiedAt) :
    lifeOf { db with actions := db.actions.update (fun row => row.id = k) f keeps } ledger a =
      if k = a then { lifeOf db ledger a with status := some status } else lifeOf db ledger a := by
  obtain ⟨row, found⟩ := statusOf_isSome.mp known
  rw [lifeOf_update]
  by_cases same : k = a
  · subst same
    simp [lifeOf, Database.everVerified, found, sets, kept]
  · simp [same]

theorem lifeOf_verify {now : Instant} {amount : Int} (known : (db.statusOf k).isSome) :
    lifeOf { db with
        actions := db.actions.update (fun row => row.id = k) (Action.verify now) (Action.key_verify now) }
        (ledger ++ [.credit k amount]) a =
      if k = a then (lifeOf db ledger a).verify else lifeOf db ledger a := by
  obtain ⟨row, found⟩ := statusOf_isSome.mp known
  rw [lifeOf_update]
  by_cases same : k = a
  · subst same
    simp [lifeOf, Life.verify, Action.verify, found, LedgerEntry.credits, LedgerEntry.debits]
  · simp [lifeOf, same, LedgerEntry.credits, LedgerEntry.debits]

/-- The writes a confirmed slash and a ruling to slash share. -/
theorem lifeOf_slash {wisdom : Table Wisdom} {amount : Int} (known : (db.statusOf k).isSome) :
    lifeOf { db with
        wisdom
        actions := db.actions.update (fun row => row.id = k) Action.slash Action.key_slash }
        (ledger ++ [.debit k amount]) a =
      if k = a then (lifeOf db ledger a).slash else lifeOf db ledger a := by
  have set : lifeOf { db with
      wisdom
      actions := db.actions.update (fun row => row.id = k) Action.slash Action.key_slash } ledger a =
      if k = a then { lifeOf db ledger a with status := some .slashed } else lifeOf db ledger a :=
    lifeOf_set_status known (fun _ => rfl) (fun _ => rfl)
  by_cases same : k = a
  · subst same
    rw [if_pos rfl] at set ⊢
    simpa [lifeOf, Life.slash, LedgerEntry.credits, LedgerEntry.debits] using set
  · rw [if_neg same] at set ⊢
    simpa [lifeOf, same, LedgerEntry.credits, LedgerEntry.debits] using set

theorem lifeOf_insert_report {reports : Table Report} {row : Report}
    (inserted : db.reports.insert? row = some reports) (opened : row.status = .opened) :
    lifeOf { db with reports } ledger a =
      if row.actionId = a then (lifeOf db ledger a).report else lifeOf db ledger a := by
  have reported : ({ db with reports } : Database).hasOpenReport a =
      (db.hasOpenReport a || decide (row.actionId = a)) := by
    simp [Database.hasOpenReport, Table.rows_insert inserted, opened]
  by_cases same : row.actionId = a
  · simp only [lifeOf, Life.report, reported, same, decide_true, Bool.or_true, if_true]
    rfl
  · simp only [lifeOf, reported, same, decide_false, Bool.or_false, if_false]
    rfl

/-- A confirmed slash confirms every open report of its action. -/
theorem lifeOf_confirm_reports {now : Instant} :
    lifeOf { db with
        reports := db.reports.update (fun row => row.actionId = k ∧ row.status = .opened)
          (Report.confirm now) (Report.key_confirm now) } ledger a =
      if k = a then (lifeOf db ledger a).closeReports else lifeOf db ledger a := by
  have closed : (db.reports.update (fun row => row.actionId = k ∧ row.status = .opened)
      (Report.confirm now) (Report.key_confirm now)).rows.any
        (fun row => row.actionId = a ∧ row.status = .opened) =
      (decide (k ≠ a) && db.hasOpenReport a) := by
    rw [Table.rows_update, List.any_map, Database.hasOpenReport]
    by_cases same : k = a
    · subst same
      simp only [ne_eq, not_true_eq_false, decide_false, Bool.false_and, List.any_eq_false,
        Function.comp_apply]
      intro row _
      by_cases mine : row.actionId = k ∧ row.status = .opened
      · simp [mine, Report.confirm]
      · simp [mine]
    · simp only [ne_eq, same, not_false_eq_true, decide_true, Bool.true_and]
      congr 1
      funext row
      by_cases mine : row.actionId = k
      · by_cases opened : row.status = .opened <;> simp [mine, opened, same, Report.confirm]
      · simp [mine]
  by_cases same : k = a
  · subst same
    simp only [lifeOf, Life.closeReports, Database.hasOpenReport, closed, ne_eq, not_true_eq_false,
      decide_false, Bool.false_and, if_true]
    rfl
  · simp only [lifeOf, Database.hasOpenReport, closed, same, ne_eq, not_false_eq_true, decide_true,
      Bool.true_and, if_false]
    rfl

theorem lifeOf_insert_dispute {disputes : Table Dispute} {row : Dispute}
    (inserted : db.disputes.insert? row = some disputes) (pending : row.status = .pending) :
    lifeOf { db with disputes } ledger a =
      if row.actionId = a then
        { lifeOf db ledger a with pendingDisputes := db.pendingDisputes a + 1 }
      else lifeOf db ledger a := by
  have counted : ({ db with disputes } : Database).pendingDisputes a =
      db.pendingDisputes a + if row.actionId = a then 1 else 0 := by
    rw [Database.pendingDisputes, Table.rows_insert inserted, List.countP_append,
      List.countP_singleton, Database.pendingDisputes]
    simp [pending]
  by_cases same : row.actionId = a
  · simp only [lifeOf, counted, same, if_true]
    rfl
  · simp only [lifeOf, counted, same, if_false, add_zero]
    rfl

/-- A ruling resolves one pending dispute of its action. -/
theorem lifeOf_resolve_dispute {dispute : Dispute} {status : DisputeStatus} {ruling : Int} {now : Instant}
    (latest : db.latestPendingDispute k = some dispute) (resolved : status ≠ .pending) :
    lifeOf { db with
        disputes := db.disputes.update (fun row => row.id = dispute.id)
          (Dispute.resolve status ruling now) (Dispute.key_resolve status ruling now) } ledger a =
      if k = a then (lifeOf db ledger a).resolve else lifeOf db ledger a := by
  obtain ⟨stored, rfl, waiting⟩ := latestPendingDispute_mem latest
  have found : db.disputes.find? dispute.id = some dispute := Table.find?_eq_some_iff.mpr ⟨stored, rfl⟩
  have selects : ∀ row : Dispute, decide (row.id = dispute.id) =
      decide (Keyed.key row = dispute.id) := fun _ => rfl
  obtain ⟨before, after, split, written⟩ := Table.rows_update_key
    (Dispute.key_resolve status ruling now) (fun row _ => selects row) found
  have counted : ({ db with
      disputes := db.disputes.update (fun row => row.id = dispute.id)
        (Dispute.resolve status ruling now) (Dispute.key_resolve status ruling now) } :
      Database).pendingDisputes a =
      db.pendingDisputes a - if dispute.actionId = a then 1 else 0 := by
    simp only [Database.pendingDisputes, split, written, List.countP_append, List.countP_cons]
    by_cases same : dispute.actionId = a <;> simp [same, waiting, resolved, Dispute.resolve]
  by_cases same : dispute.actionId = a
  · simp only [lifeOf, Life.resolve, counted, same, if_true]
    rfl
  · simp only [lifeOf, counted, same, if_false, Nat.sub_zero]
    rfl

end

end Argentum.Community
