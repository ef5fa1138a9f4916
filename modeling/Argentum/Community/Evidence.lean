import Argentum.Community.Conservation

/-! The evidence behind a verified action. Attestations and payments only add to
it, and each verifying handler asks for its own part; a ruling that restores
asks for none. -/
namespace Argentum.Community
open Argentum Transition

section
variable [SqliteSum]

/-- Weight at the threshold, or a Lightning payment with another attestation. -/
def Life.Evidenced (l : Life) : Prop :=
  weightThreshold ≤ SqliteSum.sum l.weights ∨ l.lightning = true ∧ l.others = true

def Life.Justified (l : Life) : Prop := l.status = some .verified → l.Evidenced

theorem Life.Evidenced.attest {l : Life} (evidenced : l.Evidenced) {weight : ℚ} (positive : 0 < weight)
    (lightning : Bool) : (l.attest weight lightning).Evidenced := by
  rcases evidenced with heavy | ⟨paid, other⟩
  · exact Or.inl (heavy.trans (SqliteSum.sum_le_concat l.weights weight positive.le))
  · exact Or.inr ⟨by simp [Life.attest, paid], by simp [Life.attest, other]⟩

theorem Life.Step.evidenced {cause : Life.Cause} {l next : Life} (step : Life.Step cause l next)
    (restores : cause = .restore → l.Evidenced) (held : l.Justified) : next.Justified := by
  intro verified
  cases step with
  | idle => exact held verified
  | submit => cases verified
  | attest positive => exact (held verified).attest positive _
  | verify _ _ reached => exact Or.inl reached
  | pay status => cases status.symm.trans verified
  | payVerify _ other => exact Or.inr ⟨by simp [Life.verify, Life.attest], by simp [Life.verify, Life.attest, other]⟩
  | report => exact held verified
  | slash => cases verified
  | dispute => cases verified
  | ruleSlash => cases verified
  | restore => exact restores rfl

/-- The attestations of an action that the threshold or the Lightning shortcut asks for. -/
def Database.Evidenced (db : Database) (a : String) : Prop :=
  weightThreshold ≤ db.totalWeight a ∨
    db.hasAttested a "lightning" = true ∧ db.hasOtherAttestation a = true

/-- A ruling that does not slash finds the disputed action with its evidence. -/
def RestoresEvidenced (a : String) (s : System) (op : Op) : Prop :=
  ∀ now ruling, ruling ≠ 1 → op = .klerosRuling now true a ruling →
    s.db.statusOf a = some .disputed → s.db.Evidenced a

def VerifiedByEvidence (wisdom : Table Wisdom) (ops : List Op) (a : String) : Prop :=
  let s := (System.start wisdom).after ops
  s.db.statusOf a = some .verified → s.db.Evidenced a

theorem verifiedByEvidence {wisdom : Table Wisdom} {ops : List Op} {a : String}
    (admitted : Admits System.step (RestoresEvidenced a) (System.start wisdom) ops) :
    VerifiedByEvidence wisdom ops a := by
  have justified : (((System.start wisdom).after ops).life a).Justified := by
    refine life_invariant admitted (known_start wisdom) (fun verified => by cases verified) ?_
    intro s op cause next evidenced explained held step
    refine step.evidenced ?_ held
    rintro rfl
    obtain ⟨now, ruling, restores, rfl⟩ := explained
    exact evidenced now ruling restores rfl step.disputed
  exact justified

end

section
open Sqlite

theorem verifiedByEvidence_firstVerification : VerifiedByEvidence .empty firstVerification "act" := by
  refine verifiedByEvidence ⟨?_, ?_, ?_, trivial⟩ <;> exact fun _ _ _ same => by cases same

theorem not_verifiedByEvidence_clearedDispute :
    ¬ VerifiedByEvidence .empty clearedDispute "act" := by
  intro evidenced
  rcases evidenced (by decide +kernel) with heavy | ⟨paid, _⟩
  · exact absurd heavy (by decide +kernel)
  · exact absurd paid (by decide +kernel)

end

end Argentum.Community
