import Argentum.Community.Refinement

/-! How often an action's poster is paid over a whole run. The statement holds of
the runs whose steps meet a condition on the state they start from, and a run
that breaks the condition breaks the statement. -/
namespace Argentum.Community
open Argentum Transition

/-- The server's state after a run from a fresh start. -/
abbrev System.after [SqliteSum] (start : System) (ops : List Op) : System := run System.step start ops

/-- An authentic ruling on the action. -/
def Op.Rules (op : Op) (a : String) : Prop := ∃ now ruling, op = .klerosRuling now true a ruling

theorem known_start (wisdom : Table Wisdom) : (System.start wisdom).Known := by
  intro request waiting
  cases waiting

/-- The poster's account for an action, by where the action stands; an open
report is always of an action that was verified. -/
structure Life.Balanced (l : Life) : Prop where
  account : match l.status with
    | none | some .pending => l.everVerified = false ∧ l.credits = 0 ∧ l.debits = 0
    | some .verified => l.everVerified = true ∧ l.credits = 1 ∧ l.debits = 0
    | some .disputed => l.credits = (if l.everVerified then 1 else 0) ∧ l.debits = 0
    | some .slashed => l.everVerified = true ∧ l.credits = 1 ∧ l.debits = 1
  reported : l.openReport = true → l.everVerified = true

section
variable [SqliteSum]

theorem Life.Step.balanced {cause : Life.Cause} {l next : Life} (step : Life.Step cause l next)
    (pays : cause = .verify →
      l.status = some .pending ∨ l.status = some .disputed ∧ l.everVerified = false)
    (rules : cause = .ruleSlash ∨ cause = .restore → l.everVerified = true)
    (held : l.Balanced) : next.Balanced := by
  obtain ⟨account, reported⟩ := held
  cases step with
  | idle => exact ⟨account, reported⟩
  | attest => exact ⟨account, reported⟩
  | pay => exact ⟨account, reported⟩
  | submit fresh =>
      rw [fresh] at account
      exact ⟨⟨rfl, account.2⟩, fun opened => absurd (reported opened) (by simp [account.1])⟩
  | verify positive known reached =>
      rcases pays rfl with status | ⟨status, unverified⟩ <;> rw [status] at account
      · exact ⟨by simp [Life.verify, Life.attest, account], fun _ => rfl⟩
      · exact ⟨by simp [Life.verify, Life.attest, account, unverified], fun _ => rfl⟩
  | payVerify status =>
      rw [status] at account
      exact ⟨by simp [Life.verify, Life.attest, account], fun _ => rfl⟩
  | report status =>
      rw [status] at account
      exact ⟨by simp [Life.report, status, account], fun _ => account.1⟩
  | slash known unslashed opened =>
      have ever := reported opened
      refine ⟨?_, fun closed => by cases closed⟩
      cases status : l.status with
      | none => simp [status] at known
      | some status' =>
          rw [status] at account
          cases status' <;> simp_all [Life.slash, Life.closeReports]
  | dispute status =>
      refine ⟨?_, reported⟩
      rcases status with status | status <;> rw [status] at account <;>
        simp [Life.dispute, account]
  | ruleSlash status =>
      rw [status] at account
      exact ⟨by simp [Life.slash, Life.resolve, account, rules], reported⟩
  | restore status =>
      rw [status] at account
      exact ⟨by simp [Life.restore, Life.resolve, account, rules], reported⟩

/-- An attestation brings the action's weight to the threshold only while the
action was never verified, and a ruling falls only on one that was. -/
def PaysOnce (a : String) (s : System) (op : Op) : Prop :=
  (s.Reaches op a → s.db.statusOf a = some .pending ∨
    s.db.statusOf a = some .disputed ∧ s.db.everVerified a = false) ∧
  (op.Rules a → s.db.statusOf a = some .disputed → s.db.everVerified a = true)

theorem balanced_after {wisdom : Table Wisdom} {ops : List Op} {a : String}
    (admitted : Admits System.step (PaysOnce a) (System.start wisdom) ops) :
    (((System.start wisdom).after ops).life a).Balanced := by
  refine life_invariant admitted (known_start wisdom)
    ⟨⟨rfl, rfl, rfl⟩, fun opened => by cases opened⟩ ?_
  intro s op cause next prudent explained held step
  refine step.balanced ?_ ?_ held
  · rintro rfl
    exact prudent.1 explained
  · intro rules
    have disputed : s.db.statusOf a = some .disputed := by
      rcases rules with rfl | rfl <;> cases step <;> assumption
    refine prudent.2 ?_ disputed
    rcases rules with rfl | rfl
    · obtain ⟨now, rfl⟩ := explained
      exact ⟨now, 1, rfl⟩
    · obtain ⟨now, ruling, _, rfl⟩ := explained
      exact ⟨now, ruling, rfl⟩

theorem Life.Step.everVerified_iff {cause : Life.Cause} {l next : Life} (step : Life.Step cause l next)
    (before : l.Balanced) (after : next.Balanced) :
    next.everVerified = true ↔ l.everVerified = true ∨ next.status = some .verified := by
  have stands : next.status = some .verified → next.everVerified = true := by
    intro verified
    have account := after.account
    rw [verified] at account
    exact account.1
  refine ⟨?_, fun earlier => earlier.elim ?_ stands⟩
  · cases step with
    | verify | payVerify => exact fun _ => Or.inr rfl
    | submit => exact fun ever => by cases ever
    | idle | attest | pay | report | slash | dispute | ruleSlash | restore => exact Or.inl
  · cases step with
    | submit fresh =>
        have account := before.account
        rw [fresh] at account
        exact fun ever => absurd ever (by simp [account.1])
    | verify | payVerify => exact fun _ => rfl
    | idle | attest | pay | report | slash | dispute | ruleSlash | restore => exact id

/-- `verified_at` is set exactly on the actions that have been verified. -/
theorem everVerified_after {wisdom : Table Wisdom} {ops : List Op} {a : String}
    (admitted : Admits System.step (PaysOnce a) (System.start wisdom) ops) :
    ((System.start wisdom).after ops).db.everVerified a = true ↔
      Passed System.step (System.start wisdom) ops fun s => s.db.statusOf a = some .verified := by
  induction ops using List.reverseRecOn with
  | nil => simp [passed_nil, Database.everVerified, Database.statusOf, System.start, Database.empty]
  | append_singleton ops op ih =>
      obtain ⟨earlier, _⟩ := admits_concat.mp admitted
      rw [passed_concat, ← ih earlier]
      obtain ⟨cause, _, step⟩ := step_refines (known_run (known_start wisdom) ops) op a
      have step : Life.Step cause (((System.start wisdom).after ops).life a)
          (((System.start wisdom).after (ops ++ [op])).life a) := by
        rw [System.after, System.after, run_concat]
        exact step
      exact step.everVerified_iff (balanced_after earlier) (balanced_after admitted)

/-- Every action of the run is paid at most once, and its poster is never
debited for what was not paid. -/
def Conserved (wisdom : Table Wisdom) (ops : List Op) (a : String) : Prop :=
  let s := (System.start wisdom).after ops
  s.debits a ≤ s.credits a ∧ s.credits a ≤ s.debits a + 1 ∧
  (s.credits a = s.debits a + 1 ↔ s.db.statusOf a = some .verified ∨
    s.db.statusOf a = some .disputed ∧
      Passed System.step (System.start wisdom) ops fun s => s.db.statusOf a = some .verified) ∧
  s.credits a ≤ 1

theorem conserved {wisdom : Table Wisdom} {ops : List Op} {a : String}
    (admitted : Admits System.step (PaysOnce a) (System.start wisdom) ops) : Conserved wisdom ops a := by
  have account := (balanced_after admitted).account
  unfold Conserved
  rw [← everVerified_after admitted]
  generalize (System.start wisdom).after ops = s at account
  simp only [System.life, lifeOf] at account
  simp only [System.credits, System.debits]
  cases status : s.db.statusOf a with
  | none =>
      rw [status] at account
      simp [account]
  | some status' =>
      rw [status] at account
      cases status' with
      | pending => simp [account]
      | verified => simp [account]
      | slashed => simp [account]
      | disputed => cases ever : s.db.everVerified a <;> simp [account, ever]

end

section
open Sqlite

/-- An action posted, attested once and paid for: the payment verifies it. -/
def firstVerification : List Op :=
  [.submitAction "act" ⟨"poster", "Poster", "agent", "BUILD", ⟨none, none, none⟩⟩ false,
    .mcpAttestAction 10 "att-1" "act" "giskard-self" "Giskard",
    .paymentWebhook 20 "att-2" true ⟨"payment_received", "action:act", 21, "hash"⟩]

theorem conserved_firstVerification : Conserved .empty firstVerification "act" := by
  have undisputed : ∀ count, count ≤ 3 → ((System.start .empty).after
      (firstVerification.take count)).db.statusOf "act" ≠ some .disputed := by decide +kernel
  refine conserved ⟨⟨?_, ?_⟩, ⟨?_, ?_⟩, ⟨?_, ?_⟩, trivial⟩
  · rintro ⟨weight, planned, _⟩
    cases planned
  · exact fun _ disputed => absurd disputed (undisputed 0 (by decide))
  · exact fun _ => Or.inl (by decide +kernel)
  · exact fun _ disputed => absurd disputed (undisputed 1 (by decide))
  · exact fun _ => Or.inl (by decide +kernel)
  · exact fun _ disputed => absurd disputed (undisputed 2 (by decide))

/-- A verified action disputed and then attested once more through MCP, which
refuses no status but `verified`. -/
def attestedInDispute : List Op :=
  firstVerification ++
    [.openDispute 30 "dispute" "act" ⟨"giskard-self", ⟨none, none, none⟩⟩ false,
      .mcpAttestAction 40 "att-3" "act" "witness" "Witness"]

theorem not_conserved_attestedInDispute : ¬ Conserved .empty attestedInDispute "act" := by
  rintro ⟨_, _, _, once⟩
  exact absurd once (by decide +kernel)

/-- An action disputed before anyone attested it, and cleared. -/
def clearedDispute : List Op :=
  [.submitAction "act" ⟨"poster", "Poster", "agent", "BUILD", ⟨none, none, none⟩⟩ false,
    .openDispute 10 "dispute" "act" ⟨"giskard-self", ⟨none, none, none⟩⟩ false,
    .klerosRuling 20 true "act" 2]

/-- A ruling that restores a never verified action does not pay for it. -/
theorem not_conserved_clearedDispute : ¬ Conserved .empty clearedDispute "act" := by
  rintro ⟨_, _, verified, _⟩
  exact absurd (verified.mpr (Or.inl (by decide +kernel))) (by decide +kernel)

end

end Argentum.Community
