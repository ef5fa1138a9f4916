import Argentum.Community.Schema
import Mathlib.Data.List.Sort
import Mathlib.Tactic.Linarith

/-! The writers and readers of the `wisdom` table: the one credit path, the two
debits of a slash, the signed karma value and the leaderboard. -/
namespace Argentum.Community
open Argentum

/-- SQLite's `CAST(x AS INTEGER)` and Python's `int(x)` on an exact value: toward zero. -/
def trunc (x : ℚ) : Int := if 0 ≤ x then ⌊x⌋ else ⌈x⌉

theorem trunc_mono {x y : ℚ} (ordered : x ≤ y) : trunc x ≤ trunc y := by
  unfold trunc
  split
  · rename_i nonneg
    rw [if_pos (nonneg.trans ordered)]
    exact Int.floor_le_floor ordered
  · rename_i negative
    split
    · rename_i nonneg
      have low : ⌈x⌉ ≤ 0 := Int.ceil_le.mpr (by push_cast; linarith)
      exact low.trans (Int.floor_nonneg.mpr nonneg)
    · exact Int.ceil_le_ceil ordered

@[simp] theorem trunc_intCast (n : Int) : trunc (n : ℚ) = n := by
  unfold trunc
  split
  · exact Int.floor_intCast n
  · exact Int.ceil_intCast n

@[simp] theorem trunc_zero : trunc 0 = 0 := by simpa using trunc_intCast 0

/-- `COALESCE(total_karma_real, total_karma)`: the karma a credit adds to. -/
def Wisdom.karma (row : Wisdom) : ℚ := row.totalKarmaReal.getD row.totalKarma

/-- The `UPDATE` of `upsert_wisdom`. Both columns are recomputed from `total_karma_real`;
`plus` is how the karma adds up. -/
def Wisdom.credit (plus : ℚ → ℚ → ℚ) (row : Wisdom) (entityName : String) (karmaDelta : ℚ)
    (action attestation : Bool) (lastAction : Option Instant) : Wisdom :=
  { row with
    totalKarma := trunc (plus row.karma karmaDelta)
    totalKarmaReal := some (plus row.karma karmaDelta)
    verifiedActions := row.verifiedActions + (if action then 1 else 0)
    attestationsGiven := row.attestationsGiven + (if attestation then 1 else 0)
    lastAction := lastAction.or row.lastAction
    entityName := entityName }

theorem Wisdom.key_credit (plus : ℚ → ℚ → ℚ) (entityName : String) (karmaDelta : ℚ) (action attestation : Bool)
    (lastAction : Option Instant) (row : Wisdom) :
    Keyed.key (row.credit plus entityName karmaDelta action attestation lastAction) = Keyed.key row := rfl

/-- The row `upsert_wisdom` inserts for an entity it has not met. -/
def Wisdom.opening (entityId entityName entityType : String) (karmaDelta : ℚ)
    (action attestation : Bool) (lastAction : Option Instant) : Wisdom :=
  { entityId, entityName, entityType
    totalKarma := trunc karmaDelta
    totalKarmaReal := some karmaDelta
    verifiedActions := if action then 1 else 0
    attestationsGiven := if attestation then 1 else 0
    lastAction }

def upsertWisdomWith (plus : ℚ → ℚ → ℚ) (wisdom : Table Wisdom) (entityId entityName entityType : String)
    (karmaDelta : ℚ) (action attestation : Bool) (lastAction : Option Instant) : Table Wisdom :=
  match wisdom.find? entityId with
  | some _ => wisdom.update (fun row => row.entityId = entityId)
      (fun row => row.credit plus entityName karmaDelta action attestation lastAction)
      (Wisdom.key_credit plus entityName karmaDelta action attestation lastAction)
  | none => (wisdom.insert?
      (.opening entityId entityName entityType karmaDelta action attestation lastAction)).getD wisdom

/-- The row an upsert leaves for its entity. -/
def upserted (plus : ℚ → ℚ → ℚ) (wisdom : Table Wisdom) (entityId entityName entityType : String) (karmaDelta : ℚ)
    (action attestation : Bool) (lastAction : Option Instant) : Wisdom :=
  match wisdom.find? entityId with
  | some row => row.credit plus entityName karmaDelta action attestation lastAction
  | none => .opening entityId entityName entityType karmaDelta action attestation lastAction

/-- `upsert_wisdom`, the karma taken as exact. -/
def upsertWisdom : Table Wisdom → String → String → String → ℚ → Bool → Bool → Option Instant → Table Wisdom :=
  upsertWisdomWith (· + ·)

section
variable {plus : ℚ → ℚ → ℚ} {wisdom : Table Wisdom} {entityId entityName entityType : String} {karmaDelta : ℚ}
  {action attestation : Bool} {lastAction : Option Instant}

/-- An upsert writes its entity's row and no other. -/
theorem find?_upsertWisdomWith (k : String) :
    (upsertWisdomWith plus wisdom entityId entityName entityType karmaDelta action attestation lastAction).find? k =
      if entityId = k then
        some (upserted plus wisdom entityId entityName entityType karmaDelta action attestation lastAction)
      else wisdom.find? k := by
  unfold upsertWisdomWith upserted
  cases found : wisdom.find? entityId with
  | some row =>
      dsimp only
      have selects : ∀ row : Wisdom, decide (row.entityId = entityId) =
          decide (Keyed.key row = entityId) := fun _ => rfl
      rw [Table.find?_update_key selects]
      by_cases same : entityId = k
      · subst same
        simp [found]
      · simp [same]
  | none =>
      have fits : (wisdom.insert? (.opening entityId entityName entityType karmaDelta action
          attestation lastAction)).isSome := Table.insert?_isSome_iff.mpr found
      obtain ⟨next, inserted⟩ := Option.isSome_iff_exists.mp fits
      rw [inserted, Option.getD_some, Table.find?_insert inserted]
      rfl

theorem find?_upsertWisdom (k : String) :
    (upsertWisdom wisdom entityId entityName entityType karmaDelta action attestation lastAction).find? k =
      if entityId = k then
        some (upserted (· + ·) wisdom entityId entityName entityType karmaDelta action attestation lastAction)
      else wisdom.find? k :=
  find?_upsertWisdomWith k

theorem totalKarmaReal_upserted : (upserted plus wisdom entityId entityName entityType karmaDelta action attestation
    lastAction).totalKarmaReal =
      some (((wisdom.find? entityId).map Wisdom.karma).elim karmaDelta fun karma => plus karma karmaDelta) := by
  unfold upserted
  cases wisdom.find? entityId <;> rfl

theorem upserted_karma : (upserted (· + ·) wisdom entityId entityName entityType karmaDelta action attestation
    lastAction).totalKarmaReal = some (((wisdom.find? entityId).map Wisdom.karma).getD 0 + karmaDelta) := by
  rw [totalKarmaReal_upserted]
  cases wisdom.find? entityId <;> simp

end

/-- The assignments of a slash's `UPDATE`. `total_karma_real` is not among
them; `verified_actions` is only where the poster is debited. -/
def Wisdom.debit (row : Wisdom) (amount : Int) (poster : Bool) : Wisdom :=
  { row with
    totalKarma := max 0 (row.totalKarma - amount)
    verifiedActions := if poster then max 0 (row.verifiedActions - 1) else row.verifiedActions }

theorem Wisdom.key_debit (amount : Int) (poster : Bool) (row : Wisdom) :
    Keyed.key (row.debit amount poster) = Keyed.key row := rfl

def debitWisdom (wisdom : Table Wisdom) (entityId : String) (amount : Int) (poster : Bool) :
    Table Wisdom :=
  wisdom.update (fun row => row.entityId = entityId) (fun row => row.debit amount poster)
    (Wisdom.key_debit amount poster)

theorem find?_debitWisdom (wisdom : Table Wisdom) (entityId : String) (amount : Int) (poster : Bool)
    (k : String) : (debitWisdom wisdom entityId amount poster).find? k =
      if entityId = k then (wisdom.find? k).map fun row => row.debit amount poster
      else wisdom.find? k := by
  exact Table.find?_update_key fun _ => rfl

/-- `SELECT attester_id FROM attestations WHERE action_id = ?`. -/
def Database.attestors (db : Database) (actionId : String) : List String :=
  (db.attestations.rows.filter fun row => row.actionId = actionId).map Attestation.attesterId

/-- The debits `confirm_slash` and `kleros_ruling` copy from each other: the
poster loses `karma_value`, then each attestor outside the genesis set loses the
witness karma. -/
def slashWisdom (db : Database) (action : Action) : Table Wisdom :=
  (db.attestors action.id).foldl
    (fun wisdom attesterId =>
      if attesterId ∈ genesisAttestors then wisdom
      else debitWisdom wisdom attesterId witnessKarma false)
    (debitWisdom db.wisdom action.entityId action.karmaValue true)

/-- `total_karma_real or total_karma`: a null or zero real column falls back. -/
def Wisdom.badgeSource (row : Wisdom) : ℚ :=
  match row.totalKarmaReal with
  | some karma => if karma = 0 then row.totalKarma else karma
  | none => row.totalKarma

/-- The karma value `GET /karma/{agent_id}` signs. -/
def getKarma (db : Database) (agentId : String) : ℚ :=
  match db.wisdom.find? agentId with
  | some row => round2 row.badgeSource
  | none => 0

/-- `SELECT * FROM wisdom ORDER BY total_karma DESC LIMIT ?`. -/
def getLeaderboard (db : Database) (limit : Nat) : List Wisdom :=
  (db.wisdom.rows.insertionSort fun first second => second.totalKarma ≤ first.totalKarma).take limit

end Argentum.Community
