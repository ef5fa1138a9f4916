import Argentum.Community.Conservation

/-! Karma over runs of credits and slashes. Two columns store one quantity: a
credit recomputes `total_karma` from `total_karma_real`, a slash writes
`total_karma` alone. They stay one quantity in the runs whose slashes find
nothing to take. -/
namespace Argentum.Community
open Argentum Transition

/-- The writers of the `wisdom` table: the credit path and the two slashes. -/
inductive KarmaOp where
  | upsertWisdom (entityId entityName entityType : String) (karmaDelta : ℚ) (action attestation : Bool)
      (lastAction : Option Instant)
  | confirmSlash (now : Instant) (actionId confirmerId : String)
  | klerosRuling (now : Instant) (authentic : Bool) (actionId : String)

def karmaStep (db : Database) : KarmaOp → Database
  | .upsertWisdom entityId entityName entityType karmaDelta action attestation lastAction =>
      { db with
        wisdom := upsertWisdom db.wisdom entityId entityName entityType karmaDelta action attestation
          lastAction }
  | .confirmSlash now actionId confirmerId => db.commit (confirmSlash db now actionId confirmerId)
  | .klerosRuling now authentic actionId => db.commit (klerosRuling db now authentic actionId 1)

/-- The action an operation slashes, if it is accepted. -/
def KarmaOp.slashes (db : Database) : KarmaOp → Option Action
  | .upsertWisdom .. => none
  | .confirmSlash now actionId confirmerId =>
      match Community.confirmSlash db now actionId confirmerId with
      | .error _ => none
      | .ok _ => db.actions.find? actionId
  | .klerosRuling now authentic actionId =>
      match Community.klerosRuling db now authentic actionId 1 with
      | .error _ => none
      | .ok _ => db.actions.find? actionId

def KarmaOp.IsCredit : KarmaOp → Prop
  | .upsertWisdom .. => True
  | _ => False

/-- What an operation credits to an entity. -/
def KarmaOp.credited (entityId : String) : KarmaOp → ℚ
  | .upsertWisdom credited _ _ karmaDelta _ _ _ => if credited = entityId then karmaDelta else 0
  | _ => 0

/-- What the slash of an action takes from an entity, debit by debit: its
`karma_value` from the poster, then the witness karma for each attestation from
outside the genesis set. -/
def Database.debits (db : Database) (action : Action) (entityId : String) : List (Int × Bool) :=
  (if action.entityId = entityId then [(action.karmaValue, true)] else []) ++
    ((db.attestors action.id).filter fun attesterId =>
      attesterId ∉ genesisAttestors ∧ attesterId = entityId).map fun _ => (witnessKarma, false)

def Wisdom.debitAll (row : Wisdom) (debits : List (Int × Bool)) : Wisdom :=
  debits.foldl (fun row debit => row.debit debit.1 debit.2) row

/-- The karma an operation debits from an entity. -/
def KarmaOp.debited (db : Database) (entityId : String) (op : KarmaOp) : Int :=
  match op.slashes db with
  | none => 0
  | some action => ((db.debits action entityId).map Prod.fst).sum

/-- A slash reaches each entity through its own debits only. -/
theorem find?_slashWisdom (db : Database) (action : Action) (k : String) :
    (slashWisdom db action).find? k =
      (db.wisdom.find? k).map fun row => row.debitAll (db.debits action k) := by
  have attestors : ∀ (attesters : List String) (wisdom : Table Wisdom),
      (attesters.foldl (fun wisdom attesterId =>
        if attesterId ∈ genesisAttestors then wisdom
        else debitWisdom wisdom attesterId witnessKarma false) wisdom).find? k =
      (wisdom.find? k).map fun row => row.debitAll
        ((attesters.filter fun attesterId =>
          attesterId ∉ genesisAttestors ∧ attesterId = k).map fun _ => (witnessKarma, false)) := by
    intro attesters
    induction attesters with
    | nil => intro wisdom; simp [Wisdom.debitAll]
    | cons attesterId rest ih =>
        intro wisdom
        rw [List.foldl_cons, ih]
        by_cases genesis : attesterId ∈ genesisAttestors
        · simp [genesis]
        · by_cases same : attesterId = k
          · subst same
            simp [genesis, find?_debitWisdom, Wisdom.debitAll, Function.comp_def]
          · simp [genesis, same, find?_debitWisdom]
  rw [slashWisdom, attestors, find?_debitWisdom, Database.debits]
  by_cases same : action.entityId = k
  · subst same
    simp [Wisdom.debitAll, Function.comp_def]
  · simp [same]

/-- What an operation does to an entity's row, whatever else it writes. -/
theorem find?_karmaStep_slash {db : Database} {op : KarmaOp} (slash : ¬ op.IsCredit) (k : String) :
    (karmaStep db op).wisdom.find? k = match op.slashes db with
      | none => db.wisdom.find? k
      | some action => (db.wisdom.find? k).map fun row => row.debitAll (db.debits action k) := by
  cases op with
  | upsertWisdom => exact absurd trivial slash
  | confirmSlash now actionId confirmerId =>
      simp only [karmaStep, KarmaOp.slashes]
      cases result : Community.confirmSlash db now actionId confirmerId with
      | error failure => rfl
      | ok outcome =>
          obtain ⟨_, action, found, _, _, written, _⟩ := confirmSlash_ok result
          simp only [Database.commit, found, written]
          exact find?_slashWisdom db action k
  | klerosRuling now authentic actionId =>
      simp only [karmaStep, KarmaOp.slashes]
      cases result : Community.klerosRuling db now authentic actionId 1 with
      | error failure => rfl
      | ok outcome =>
          obtain ⟨_, action, _, found, _, _, ⟨_, written, _⟩ | ⟨restores, _⟩⟩ := klerosRuling_ok result
          · simp only [Database.commit, found, written]
            exact find?_slashWisdom db action k
          · exact absurd rfl restores

/-- `total_karma` is the integer part of `total_karma_real`, in every row. -/
def Consistent (db : Database) : Prop :=
  ∀ row ∈ db.wisdom.rows, row.totalKarmaReal.map trunc = some row.totalKarma

instance (db : Database) : Decidable (Consistent db) :=
  inferInstanceAs (Decidable (∀ row ∈ db.wisdom.rows, _))

/-- Nothing a debit could take: it is empty, or the row is already at its floor
in both columns. -/
def Wisdom.NothingToLose (row : Wisdom) (amount : Int) : Prop :=
  amount = 0 ∧ 0 ≤ row.totalKarma ∨
    0 < amount ∧ row.totalKarma = 0 ∧ ∀ karma, row.totalKarmaReal = some karma → karma ≤ 0

/-- An accepted slash debits only rows with nothing to lose. -/
def SparesKarma (db : Database) (op : KarmaOp) : Prop :=
  ∀ action, op.slashes db = some action → ∀ row ∈ db.wisdom.rows,
    ∀ debit ∈ db.debits action row.entityId, row.NothingToLose debit.1

section
variable {db : Database} {op : KarmaOp} {k : String}

theorem consistent_iff : Consistent db ↔
    ∀ k row, db.wisdom.find? k = some row → row.totalKarmaReal.map trunc = some row.totalKarma := by
  constructor
  · exact fun consistent k row found => consistent row (Table.find?_mem found)
  · exact fun consistent row stored =>
      consistent _ row (Table.find?_eq_some_iff.mpr ⟨stored, rfl⟩)

theorem Wisdom.debitAll_real (row : Wisdom) (debits : List (Int × Bool)) :
    (row.debitAll debits).totalKarmaReal = row.totalKarmaReal := by
  induction debits generalizing row with
  | nil => rfl
  | cons debit rest ih => exact ih (row.debit debit.1 debit.2)

/-- Debits that find nothing to take leave `total_karma` where it is. -/
theorem Wisdom.debitAll_total {row : Wisdom} {debits : List (Int × Bool)}
    (spared : ∀ debit ∈ debits, row.NothingToLose debit.1) :
    (row.debitAll debits).totalKarma = row.totalKarma := by
  induction debits generalizing row with
  | nil => rfl
  | cons debit rest ih =>
      have kept : (row.debit debit.1 debit.2).totalKarma = row.totalKarma := by
        simp only [Wisdom.debit]
        rcases spared debit (by simp) with ⟨empty, nonneg⟩ | ⟨positive, floor, _⟩ <;> omega
      refine (ih fun later member => ?_).trans kept
      simp only [Wisdom.NothingToLose, kept]
      exact spared later (List.mem_cons_of_mem _ member)

/-- What such debits would take does not lie below the exact karma. -/
theorem Wisdom.le_max_debited {row : Wisdom} {debits : List (Int × Bool)} {karma : ℚ}
    (spared : ∀ debit ∈ debits, row.NothingToLose debit.1) (real : row.totalKarmaReal = some karma) :
    karma ≤ max 0 (karma - (debits.map Prod.fst).sum) := by
  by_cases idle : ∀ debit ∈ debits, debit.1 = 0
  · have none_taken : (debits.map Prod.fst).sum = 0 := by
      refine List.sum_eq_zero fun amount member => ?_
      obtain ⟨debit, taken, rfl⟩ := List.mem_map.mp member
      exact idle debit taken
    simp [none_taken]
  · push Not at idle
    obtain ⟨debit, taken, positive⟩ := idle
    rcases spared debit taken with ⟨empty, _⟩ | ⟨_, _, floor⟩
    · exact absurd empty positive
    · exact (floor karma real).trans (le_max_left _ _)

theorem consistent_step (consistent : Consistent db) (spares : SparesKarma db op) :
    Consistent (karmaStep db op) := by
  refine consistent_iff.mpr fun k row found => ?_
  have before := consistent_iff.mp consistent k
  by_cases credit : op.IsCredit
  · cases op with
    | confirmSlash | klerosRuling => cases credit
    | upsertWisdom entityId =>
        simp only [karmaStep, find?_upsertWisdom] at found
        split_ifs at found
        · cases found
          unfold upserted
          split <;> rfl
        · exact before row found
  · rw [find?_karmaStep_slash credit] at found
    cases slashed : op.slashes db with
    | none =>
        rw [slashed] at found
        exact before row found
    | some action =>
        simp only [slashed, Option.map_eq_some_iff] at found
        obtain ⟨old, found, rfl⟩ := found
        have spared := spares action slashed old (Table.find?_mem found)
        rw [show old.entityId = k from Table.find?_key found] at spared
        rw [Wisdom.debitAll_real, Wisdom.debitAll_total spared]
        exact before old found

/-- The exact karma of an entity. -/
def Database.realOf (db : Database) (k : String) : Option ℚ :=
  (db.wisdom.find? k).bind Wisdom.totalKarmaReal

theorem realOf_slash (slash : ¬ op.IsCredit) : (karmaStep db op).realOf k = db.realOf k := by
  rw [Database.realOf, find?_karmaStep_slash slash, Database.realOf]
  cases op.slashes db with
  | none => rfl
  | some action => simp [Option.bind_map, Wisdom.debitAll_real]

theorem realOf_credit {karma : ℚ} (credit : op.IsCredit) (real : db.realOf k = some karma) :
    (karmaStep db op).realOf k = some (karma + op.credited k) := by
  cases op with
  | confirmSlash | klerosRuling => cases credit
  | upsertWisdom entityId =>
      simp only [Database.realOf, karmaStep, find?_upsertWisdom, KarmaOp.credited] at real ⊢
      obtain ⟨row, found, exactly⟩ := Option.bind_eq_some_iff.mp real
      split_ifs with same
      · subst same
        simp [upserted_karma, found, Wisdom.karma, exactly]
      · simp [found, exactly]

theorem realOf_credits {karma : ℚ} {credits : List KarmaOp} (only : ∀ op ∈ credits, op.IsCredit)
    (real : db.realOf k = some karma) :
    (run karmaStep db credits).realOf k =
      some (karma + (credits.map fun op => op.credited k).sum) := by
  induction credits generalizing db karma with
  | nil => simpa using real
  | cons op rest ih =>
      have later := ih (fun op member => only op (List.mem_cons_of_mem _ member))
        (realOf_credit (only op (by simp)) real)
      simpa [add_assoc] using later

end

/-- Slashes are permanent and the columns stay one quantity. -/
structure KarmaKept (start : Database) (ops : List KarmaOp) : Prop where
  consistent : Consistent (run karmaStep start ops)
  permanent : ∀ earlier slash credits, ops = earlier ++ slash :: credits → ¬ slash.IsCredit →
    (∀ op ∈ credits, op.IsCredit) →
    let before := run karmaStep start earlier
    ∀ k karma, before.realOf k = some karma → ∃ row,
      (run karmaStep start ops).wisdom.find? k = some row ∧
      row.totalKarma ≤ trunc (max 0 (karma - slash.debited before k) +
        (credits.map fun op => op.credited k).sum)
  signed : ∀ limit, ∀ row ∈ getLeaderboard (run karmaStep start ops) limit, ∃ karma,
    row.totalKarmaReal = some karma ∧ row.totalKarma = trunc karma ∧
      getKarma (run karmaStep start ops) row.entityId = round2 karma

/-- In a consistent table the badge is signed from the karma the board ranks by. -/
theorem getKarma_of_consistent {db : Database} (consistent : Consistent db) {limit : Nat} {row : Wisdom}
    (ranked : row ∈ getLeaderboard db limit) : ∃ karma,
    row.totalKarmaReal = some karma ∧ row.totalKarma = trunc karma ∧
      getKarma db row.entityId = round2 karma := by
  have stored : row ∈ db.wisdom.rows :=
    (List.perm_insertionSort _ _).mem_iff.mp (List.mem_of_mem_take ranked)
  obtain ⟨karma, real, total⟩ := Option.map_eq_some_iff.mp (consistent row stored)
  have found : db.wisdom.find? row.entityId = some row := Table.find?_eq_some_iff.mpr ⟨stored, rfl⟩
  refine ⟨karma, real, total.symm, ?_⟩
  simp only [getKarma, found, Wisdom.badgeSource, real]
  split_ifs with zero
  · rw [← total, zero]
    simp
  · rfl

theorem karmaKept {start : Database} {ops : List KarmaOp} (consistent : Consistent start)
    (admitted : Admits karmaStep SparesKarma start ops) : KarmaKept start ops := by
  have preserves : ∀ db op, Consistent db → SparesKarma db op → Consistent (karmaStep db op) :=
    fun _ _ => consistent_step
  have final := admitted.invariant preserves consistent
  refine ⟨final, ?_, fun _ _ => getKarma_of_consistent final⟩
  rintro earlier slash credits rfl slashes only before k karma real
  obtain ⟨_, rest⟩ := admits_append.mp admitted
  have slashed : (karmaStep before slash).realOf k = some karma := (realOf_slash slashes).trans real
  have credited := realOf_credits only slashed
  have split : run karmaStep start (earlier ++ slash :: credits) =
      run karmaStep (karmaStep before slash) credits := by rw [run_append, run_cons]
  rw [← split] at credited
  obtain ⟨row, found, exactly⟩ := Option.bind_eq_some_iff.mp credited
  have total := consistent_iff.mp final k row found
  rw [exactly, Option.map_some, Option.some.injEq] at total
  refine ⟨row, found, ?_⟩
  rw [← total]
  refine trunc_mono (add_le_add_left ?_ _)
  simp only [KarmaOp.debited]
  cases accepted : slash.slashes before with
  | none => simp
  | some action =>
      obtain ⟨old, stored, old_real⟩ := Option.bind_eq_some_iff.mp real
      have spared := rest.1 action accepted old (Table.find?_mem stored)
      rw [show old.entityId = k from Table.find?_key stored] at spared
      exact Wisdom.le_max_debited spared old_real

section
open Sqlite

/-- A verified action with an open report, over a given wisdom table. -/
def reportedAction (wisdom : Table Wisdom) : Database :=
  { ((System.start .empty).after (firstVerification ++
      [.reportAction 30 "report" "act" ⟨"reporter", ⟨none, none, none⟩⟩ false])).db with wisdom }

def poster (karma : Int) : Table Wisdom :=
  ⟨[⟨"poster", "Poster", "agent", karma, some karma, 1, 0, none⟩], List.nodup_singleton _⟩

/-- A confirmed slash, then an honest credit. -/
def slashThenCredit : List KarmaOp :=
  [.confirmSlash 40 "act" "giskard-self",
    .upsertWisdom "poster" "Poster" "agent" 5 false true none]

theorem karmaKept_slashThenCredit : KarmaKept (reportedAction (poster 0)) slashThenCredit := by
  refine karmaKept (by decide +kernel) ⟨?_, ?_, trivial⟩
  · intro action slashed row stored debit taken
    obtain rfl := List.mem_singleton.mp stored
    have posted : KarmaOp.slashes (reportedAction (poster 0)) (.confirmSlash 40 "act" "giskard-self") =
        some ⟨"act", "poster", "Poster", "agent", .verified, 20, some 20⟩ := by decide +kernel
    obtain rfl := Option.some.inj (posted.symm.trans slashed)
    have only : (reportedAction (poster 0)).debits
        ⟨"act", "poster", "Poster", "agent", .verified, 20, some 20⟩ "poster" = [(20, true)] := by
      decide +kernel
    obtain rfl := List.mem_singleton.mp (only ▸ taken)
    exact Or.inr ⟨by decide, rfl, fun karma real => by cases real; norm_num⟩
  · intro action slashed
    cases slashed

/-- The credit brings back the twenty the slash took: 25, not 5. -/
theorem not_karmaKept_slashThenCredit :
    Consistent (reportedAction (poster 20)) ∧ ¬ KarmaKept (reportedAction (poster 20)) slashThenCredit := by
  refine ⟨by decide +kernel, fun kept => ?_⟩
  obtain ⟨row, found, bound⟩ := kept.permanent [] _ _ rfl id
    (fun op member => by simp at member; subst member; trivial) "poster" 20 (by decide +kernel)
  have total : ((run karmaStep (reportedAction (poster 20)) slashThenCredit).wisdom.find? "poster").map
      Wisdom.totalKarma = some 25 := by decide +kernel
  have debited : KarmaOp.debited (reportedAction (poster 20)) "poster"
      (.confirmSlash 40 "act" "giskard-self") = 20 := by decide +kernel
  rw [found, Option.map_some, Option.some.injEq] at total
  simp [debited, total, KarmaOp.credited, trunc] at bound

end

end Argentum.Community
