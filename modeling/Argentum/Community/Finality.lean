import Argentum.Community.Conservation

/-! The status of an action over a whole run: a slash is final, and a dispute
freezes the action until the ruling. Both are promised by one endpoint and have
to be kept by the guards of all the others, so each holds of the runs in which
the attestation handlers, which look for `verified` only, are kept away. -/
namespace Argentum.Community
open Argentum Transition

/-- Where the status column of an action may move. -/
inductive Status.Moves : Option Status → Option Status → Prop where
  | stay : Moves status status
  | post : Moves none (some .pending)
  | verify : Moves (some .pending) (some .verified)
  | dispute : Moves (some .pending) (some .disputed)
  | contest : Moves (some .verified) (some .disputed)
  | slash : Moves (some .verified) (some .slashed)
  | clear : Moves (some .disputed) (some .verified)
  | rule : Moves (some .disputed) (some .slashed)

/-- No open report waits on an action that was never verified. -/
def Life.ReportsPosted (l : Life) : Prop :=
  l.openReport = true → l.status ≠ none ∧ l.status ≠ some .pending

section
variable [SqliteSum]

theorem Life.Step.moves {cause : Life.Cause} {l next : Life} (step : Life.Step cause l next)
    (spares : cause = .verify → l.status ≠ some .slashed) (held : l.ReportsPosted) :
    next.ReportsPosted ∧ Status.Moves l.status next.status ∧
      (l.status = some .slashed → next.status = some .slashed ∧ next.credits = l.credits) := by
  cases step with
  | idle => exact ⟨held, .stay, fun slashed => ⟨slashed, rfl⟩⟩
  | attest => exact ⟨held, .stay, fun slashed => ⟨slashed, rfl⟩⟩
  | pay => exact ⟨held, .stay, fun slashed => ⟨slashed, rfl⟩⟩
  | submit fresh =>
      rw [fresh]
      exact ⟨fun opened => absurd fresh (held opened).1, .post, fun slashed => by cases slashed⟩
  | verify positive known reached =>
      refine ⟨fun _ => by simp [Life.verify], ?_, fun slashed => absurd slashed (spares rfl)⟩
      cases status : l.status with
      | none => simp [status] at known
      | some status' =>
          cases status' with
          | pending => exact .verify
          | verified => exact .stay
          | disputed => exact .clear
          | slashed => exact absurd status (spares rfl)
  | payVerify status =>
      rw [status]
      exact ⟨fun _ => by simp [Life.verify], .verify, fun slashed => by cases slashed⟩
  | report status =>
      exact ⟨fun _ => by simp [Life.report, status], .stay, fun slashed => ⟨slashed, rfl⟩⟩
  | slash known unslashed opened =>
      refine ⟨fun closed => (by cases closed), ?_, fun slashed => absurd slashed unslashed⟩
      obtain ⟨posted, unpending⟩ := held opened
      cases status : l.status with
      | none => exact absurd status posted
      | some status' =>
          cases status' with
          | pending => exact absurd status unpending
          | verified => exact .slash
          | disputed => exact .rule
          | slashed => exact absurd status unslashed
  | dispute status =>
      refine ⟨fun _ => by simp [Life.dispute], ?_, fun slashed => by
        rcases status with status | status <;> simp [status] at slashed⟩
      rcases status with status | status <;> rw [status]
      · exact .contest
      · exact .dispute
  | ruleSlash status =>
      rw [status]
      exact ⟨fun _ => by simp [Life.slash, Life.resolve], .rule, fun slashed => by cases slashed⟩
  | restore status =>
      rw [status]
      exact ⟨fun _ => by simp [Life.restore, Life.resolve], .clear, fun slashed => by cases slashed⟩

/-- No attestation brings a slashed action's weight to the threshold. -/
def SparesSlashed (a : String) (s : System) (op : Op) : Prop :=
  s.Reaches op a → s.db.statusOf a ≠ some .slashed

/-- Every step moves the status along `Status.Moves`, and whatever the run does
after a slash leaves the status and the credits alone. -/
def SlashFinal (wisdom : Table Wisdom) (ops : List Op) (a : String) : Prop :=
  ∀ before op later, ops = before ++ op :: later →
    let s := (System.start wisdom).after before
    let final := (System.start wisdom).after ops
    Status.Moves (s.db.statusOf a) ((s.step op).db.statusOf a) ∧
    (s.db.statusOf a = some .slashed →
      final.db.statusOf a = some .slashed ∧ final.credits a = s.credits a)

theorem step_moves {s : System} {op : Op} {a : String} (known : s.Known)
    (spares : SparesSlashed a s op) (held : (s.life a).ReportsPosted) :
    ((s.step op).life a).ReportsPosted ∧
      Status.Moves (s.db.statusOf a) ((s.step op).db.statusOf a) ∧
      (s.db.statusOf a = some .slashed →
        (s.step op).db.statusOf a = some .slashed ∧ (s.step op).credits a = s.credits a) := by
  obtain ⟨cause, explained, step⟩ := step_refines known op a
  refine step.moves ?_ held
  rintro rfl
  exact spares explained

theorem slashFinal {wisdom : Table Wisdom} {ops : List Op} {a : String}
    (admitted : Admits System.step (SparesSlashed a) (System.start wisdom) ops) :
    SlashFinal wisdom ops a := by
  rintro before op later rfl
  obtain ⟨earlier, rest⟩ := admits_append.mp admitted
  let P := fun s : System => (s.life a).ReportsPosted ∧ s.Known
  let R := fun s t : System => s.db.statusOf a = some .slashed →
    t.db.statusOf a = some .slashed ∧ t.credits a = s.credits a
  have preserves : ∀ s op, P s → SparesSlashed a s op → P (s.step op) :=
    fun s op held spares => ⟨(step_moves held.2 spares held.1).1, known_step held.2 op⟩
  have stays : ∀ s op, P s → SparesSlashed a s op → R s (s.step op) :=
    fun s op held spares => (step_moves held.2 spares held.1).2.2
  have initial : P (System.start wisdom) := ⟨fun opened => (by cases opened), known_start wisdom⟩
  have held : P ((System.start wisdom).after before) := earlier.invariant preserves initial
  refine ⟨(step_moves held.2 rest.1 held.1).2.1, ?_⟩
  have kept : R ((System.start wisdom).after before)
      (((System.start wisdom).after before).after (op :: later)) := by
    refine rest.relates (fun _ slashed => ⟨slashed, rfl⟩) ?_ preserves stays held
    intro first second third earlier later slashed
    obtain ⟨slashed, credits⟩ := earlier slashed
    exact ⟨(later slashed).1, (later slashed).2.trans credits⟩
  have final : (System.start wisdom).after (before ++ op :: later) =
      ((System.start wisdom).after before).after (op :: later) := run_append before (op :: later)
  rw [final]
  exact kept

end

section
open Sqlite

/-- A verified action reported and slashed. -/
def slashedAction : List Op :=
  firstVerification ++
    [.reportAction 30 "report" "act" ⟨"reporter", ⟨none, none, none⟩⟩ false,
      .confirmSlash 40 "act" "giskard-self"]

theorem slashFinal_slashedAction : SlashFinal .empty slashedAction "act" := by
  refine slashFinal ⟨?_, ?_, ?_, ?_, ?_, trivial⟩ <;> exact fun _ => by decide +kernel

/-- MCP `attest_action` takes the slashed action's third attestation, whose
weight is past the threshold. -/
theorem not_slashFinal_attested : ¬ SlashFinal .empty
    (slashedAction ++ [.mcpAttestAction 50 "att-3" "act" "witness" "Witness"]) "act" := by
  intro final
  have after := (final slashedAction _ [] rfl).2 (by decide +kernel)
  exact absurd after.1 (by decide +kernel)

end

/-! ### The freeze of a dispute -/

/-- One dispute is pending while the action is disputed, none otherwise. -/
def Life.Frozen (l : Life) : Prop :=
  l.pendingDisputes = if l.status = some .disputed then 1 else 0

section
variable [SqliteSum]

theorem Life.Step.frozen {cause : Life.Cause} {l next : Life} (step : Life.Step cause l next)
    (frees : l.status = some .disputed → cause ≠ .verify ∧ cause ≠ .slash) (held : l.Frozen) :
    next.Frozen ∧ (l.status = some .disputed → cause = .ruleSlash ∨ cause = .restore ∨
      next.status = l.status ∧ next.credits = l.credits ∧ next.debits = l.debits) := by
  unfold Life.Frozen at held
  cases step with
  | idle | attest | pay | report =>
      exact ⟨held, fun _ => Or.inr (Or.inr ⟨rfl, rfl, rfl⟩)⟩
  | submit fresh =>
      refine ⟨?_, fun disputed => by simp [fresh] at disputed⟩
      simpa [Life.Frozen, Life.submit, fresh] using held
  | verify =>
      have undisputed : l.status ≠ some .disputed := fun disputed => (frees disputed).1 rfl
      refine ⟨?_, fun disputed => absurd disputed undisputed⟩
      simpa [Life.Frozen, Life.verify, Life.attest, undisputed] using held
  | payVerify status =>
      refine ⟨?_, fun disputed => by simp [status] at disputed⟩
      simpa [Life.Frozen, Life.verify, Life.attest, status] using held
  | slash =>
      have undisputed : l.status ≠ some .disputed := fun disputed => (frees disputed).2 rfl
      refine ⟨?_, fun disputed => absurd disputed undisputed⟩
      simpa [Life.Frozen, Life.slash, Life.closeReports, undisputed] using held
  | dispute status undisputed =>
      refine ⟨by simp [Life.Frozen, Life.dispute, undisputed], fun disputed => ?_⟩
      rcases status with status | status <;> simp [status] at disputed
  | ruleSlash status =>
      refine ⟨?_, fun _ => Or.inl rfl⟩
      simp [Life.Frozen, Life.slash, Life.resolve, held, status]
  | restore status =>
      refine ⟨?_, fun _ => Or.inr (Or.inl rfl)⟩
      simp [Life.Frozen, Life.restore, Life.resolve, held, status]

theorem Life.Step.reported {l next : Life} (step : Life.Step .slash l next) : l.openReport = true := by
  cases step
  assumption

/-- While the action is disputed no attestation brings its weight to the
threshold, and no genesis attestor confirms a slash of it. -/
def RespectsDispute (a : String) (s : System) (op : Op) : Prop :=
  s.db.statusOf a = some .disputed → ¬ s.Reaches op a ∧
    ∀ now confirmerId, op = .confirmSlash now a confirmerId → confirmerId ∈ genesisAttestors →
      s.db.hasOpenReport a = false

theorem step_frozen {s : System} {op : Op} {a : String} (known : s.Known)
    (respects : RespectsDispute a s op) (held : (s.life a).Frozen) :
    ((s.step op).life a).Frozen ∧ (s.db.statusOf a = some .disputed → op.Rules a ∨
      (s.step op).db.statusOf a = s.db.statusOf a ∧ (s.step op).credits a = s.credits a ∧
        (s.step op).debits a = s.debits a) := by
  obtain ⟨cause, explained, step⟩ := step_refines known op a
  have frees : s.db.statusOf a = some .disputed → cause ≠ .verify ∧ cause ≠ .slash := by
    intro disputed
    obtain ⟨unreached, unslashed⟩ := respects disputed
    constructor
    · rintro rfl
      exact unreached explained
    · rintro rfl
      obtain ⟨now, confirmerId, genesis, rfl⟩ := explained
      exact absurd step.reported (by simp [System.life, lifeOf, unslashed now confirmerId rfl genesis])
  obtain ⟨frozen, moved⟩ := step.frozen frees held
  refine ⟨frozen, fun disputed => ?_⟩
  rcases moved disputed with rfl | rfl | same
  · obtain ⟨now, rfl⟩ := explained
    exact Or.inl ⟨now, 1, rfl⟩
  · obtain ⟨now, ruling, _, rfl⟩ := explained
    exact Or.inl ⟨now, ruling, rfl⟩
  · exact Or.inr same

omit [SqliteSum] in
/-- A disputed action with a pending dispute is accepted for any ruling. -/
theorem klerosRuling_accepted {db : Database} {a : String} (disputed : db.statusOf a = some .disputed)
    (waiting : 0 < db.pendingDisputes a) (now : Instant) (ruling : Int) :
    ∃ outcome, klerosRuling db now true a ruling = .ok outcome := by
  obtain ⟨action, found⟩ := statusOf_isSome.mp (by rw [disputed]; rfl)
  have status : action.status = .disputed := by simpa [Database.statusOf, found] using disputed
  obtain ⟨dispute, latest⟩ := Option.isSome_iff_exists.mp
    ((latestPendingDispute_isSome_iff db a).mpr waiting)
  by_cases slashes : ruling = 1
  · simp [klerosRuling, found, status, latest, slashes]
  · simp [klerosRuling, found, status, latest, slashes]

/-- A disputed action is frozen until the ruling, which stays possible. -/
def FrozenUntilRuling (wisdom : Table Wisdom) (ops : List Op) (a : String) : Prop :=
  let s := (System.start wisdom).after ops
  (s.db.statusOf a = some .disputed ↔ s.db.pendingDisputes a = 1) ∧
  (∀ before op later, ops = before ++ op :: later →
    let t := (System.start wisdom).after before
    t.db.statusOf a = some .disputed → op.Rules a ∨
      (t.step op).db.statusOf a = t.db.statusOf a ∧ (t.step op).credits a = t.credits a ∧
        (t.step op).debits a = t.debits a) ∧
  ∀ dispute ∈ s.db.disputes.rows, dispute.actionId = a → dispute.status = .pending →
    ∀ now ruling, ∃ outcome, klerosRuling s.db now true a ruling = .ok outcome

theorem frozenUntilRuling {wisdom : Table Wisdom} {ops : List Op} {a : String}
    (admitted : Admits System.step (RespectsDispute a) (System.start wisdom) ops) :
    FrozenUntilRuling wisdom ops a := by
  let P := fun s : System => (s.life a).Frozen ∧ s.Known
  have preserves : ∀ s op, P s → RespectsDispute a s op → P (s.step op) :=
    fun s op held respects => ⟨(step_frozen held.2 respects held.1).1, known_step held.2 op⟩
  have initial : P (System.start wisdom) := ⟨rfl, known_start wisdom⟩
  have frozen : (((System.start wisdom).after ops).life a).Frozen :=
    (admitted.invariant preserves initial).1
  have one : ((System.start wisdom).after ops).db.statusOf a = some .disputed ↔
      ((System.start wisdom).after ops).db.pendingDisputes a = 1 := by
    simp only [Life.Frozen, System.life, lifeOf] at frozen
    rw [frozen]
    split_ifs with disputed <;> simp [disputed]
  refine ⟨one, ?_, ?_⟩
  · rintro before op later rfl
    obtain ⟨earlier, rest⟩ := admits_append.mp admitted
    have held := earlier.invariant preserves initial
    exact (step_frozen held.2 rest.1 held.1).2
  · rintro dispute stored rfl pending
    have waiting : 0 < ((System.start wisdom).after ops).db.pendingDisputes dispute.actionId :=
      List.countP_pos_iff.mpr ⟨dispute, stored, by simp [pending]⟩
    have atMost : ((System.start wisdom).after ops).db.pendingDisputes dispute.actionId ≤ 1 := by
      refine frozen.le.trans ?_
      split <;> omega
    exact klerosRuling_accepted (one.mpr (by omega)) waiting

end

section
open Sqlite

theorem frozenUntilRuling_clearedDispute : FrozenUntilRuling .empty clearedDispute "act" := by
  refine frozenUntilRuling ⟨?_, ?_, ?_, trivial⟩
  · exact fun disputed => absurd disputed (by decide +kernel)
  · exact fun disputed => absurd disputed (by decide +kernel)
  · intro _
    refine ⟨?_, fun now confirmerId same => by cases same⟩
    rintro ⟨weight, planned, _⟩
    cases planned

/-- The attestation that pays a disputed action again also leaves its dispute
pending where no ruling can reach it. -/
theorem not_frozenUntilRuling_attestedInDispute :
    ¬ FrozenUntilRuling .empty attestedInDispute "act" := by
  rintro ⟨frozen, _⟩
  exact absurd (frozen.mpr (by decide +kernel)) (by decide +kernel)

end

end Argentum.Community
