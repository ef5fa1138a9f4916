import Argentum.Community.Wisdom

/-! `init_db`, which creates the tables, adds the columns of later versions, and fills the
real karma column from the integer one. A statement outside a transaction is durable once
executed, the one `UPDATE` opens a transaction, and a process that dies loses what it did
not commit. The column is right after a complete run where the table was there, and no
earlier run died between adding the column and committing what fills it. -/
namespace Argentum.Community
open Argentum

/-- The `wisdom` table: not there, without `total_karma_real`, or with it. -/
inductive WisdomTable where
  | absent
  | withoutReal (table : Table Wisdom) (bare : ∀ row ∈ table.rows, row.totalKarmaReal = none)
  | withReal (table : Table Wisdom)

namespace WisdomTable

/-- `CREATE TABLE IF NOT EXISTS wisdom (...)`, of which `total_karma_real` is no column. -/
def create : WisdomTable → WisdomTable
  | absent => withoutReal .empty fun _ member => absurd member List.not_mem_nil
  | wisdom => wisdom

/-- `ALTER TABLE wisdom ADD COLUMN total_karma_real REAL DEFAULT 0.0`: an error where there
is no table, or the column is there. -/
def addReal? : WisdomTable → Option WisdomTable
  | withoutReal table _ => some (withReal
      (table.update (fun _ => true) (fun row => { row with totalKarmaReal := some 0 }) fun _ => rfl))
  | _ => none

/-- `UPDATE wisdom SET total_karma_real = CAST(total_karma AS REAL) WHERE total_karma_real = 0.0` -/
def fillReal? : WisdomTable → Option WisdomTable
  | withReal table => some (withReal
      (table.update (fun row => row.totalKarmaReal = some 0)
        (fun row => { row with totalKarmaReal := some row.totalKarma }) fun _ => rfl))
  | _ => none

/-- `upsert_wisdom`, which names the column whether it updates or inserts. -/
def upsert? (wisdom : WisdomTable) (entityId entityName entityType : String) (karmaDelta : ℚ)
    (action attestation : Bool) (lastAction : Option Instant) : Option WisdomTable :=
  match wisdom with
  | withReal table =>
      some (withReal (upsertWisdom table entityId entityName entityType karmaDelta action attestation lastAction))
  | _ => none

def rows : WisdomTable → List Wisdom
  | absent => []
  | withoutReal table _ => table.rows
  | withReal table => table.rows

def find? (wisdom : WisdomTable) (entityId : String) : Option Wisdom :=
  match wisdom with
  | absent => none
  | withoutReal table _ => table.find? entityId
  | withReal table => table.find? entityId

end WisdomTable

/-- The database as `init_db` sees it: the other tables by their columns. -/
structure Tables where
  others : List (String × List String)
  wisdom : WisdomTable

/-- A connection: what is durable, and what an open transaction would make of it. -/
structure Connection where
  durable : Tables
  transaction : Option Tables

namespace Connection

def opened (tables : Tables) : Connection := ⟨tables, none⟩

def current (connection : Connection) : Tables := connection.transaction.getD connection.durable

/-- A statement that opens no transaction is part of one that is open, or durable at once. -/
def write (connection : Connection) (tables : Tables) : Connection :=
  match connection.transaction with
  | none => ⟨tables, none⟩
  | some _ => ⟨connection.durable, some tables⟩

end Connection

inductive Statement where
  /-- `CREATE TABLE IF NOT EXISTS` -/
  | createTable (table : String) (columns : List String)
  | createWisdom
  /-- `ALTER TABLE table ADD COLUMN column` -/
  | addColumn (table column : String)
  | addTotalKarmaReal
  | fillTotalKarmaReal
  | commit
  deriving DecidableEq

def createTable (table : String) (columns : List String) (others : List (String × List String)) :
    List (String × List String) :=
  if (others.lookup table).isSome then others else others ++ [(table, columns)]

def addColumn? (table column : String) (others : List (String × List String)) :
    Option (List (String × List String)) :=
  match others.lookup table with
  | none => none
  | some columns =>
      if column ∈ columns then none
      else some (others.map fun other => if other.1 = table then (other.1, other.2 ++ [column]) else other)

/-- What a statement leaves of the connection, or none where it raises. -/
def Statement.exec (connection : Connection) : Statement → Option Connection
  | .createTable table columns =>
      some (connection.write
        { connection.current with others := Community.createTable table columns connection.current.others })
  | .createWisdom =>
      some (connection.write { connection.current with wisdom := connection.current.wisdom.create })
  | .addColumn table column =>
      (addColumn? table column connection.current.others).map fun others =>
        connection.write { connection.current with others }
  | .addTotalKarmaReal =>
      connection.current.wisdom.addReal?.map fun wisdom => connection.write { connection.current with wisdom }
  | .fillTotalKarmaReal =>
      connection.current.wisdom.fillReal?.map fun wisdom =>
        ⟨connection.durable, some { connection.current with wisdom }⟩
  | .commit => some ⟨connection.current, none⟩

/-- A statement of the body, or a `try` whose exception is dropped. -/
inductive Block where
  | execute (statement : Statement)
  | attempt (statements : List Statement)

/-- The statements of a `try`, up to the first that raises. -/
def attempt (connection : Connection) : List Statement → Connection
  | [] => connection
  | statement :: rest =>
      match statement.exec connection with
      | some next => attempt next rest
      | none => connection

namespace Block

def run (connection : Connection) : Block → Option Connection
  | .execute statement => statement.exec connection
  | .attempt statements => some (Community.attempt connection statements)

/-- The first statements of the block. -/
def cut (statements : Nat) (connection : Connection) : Block → Connection
  | .execute statement => if statements = 0 then connection else (statement.exec connection).getD connection
  | .attempt inside => Community.attempt connection (inside.take statements)

end Block

/-- The blocks one after the other, up to an exception. -/
def runBlocks (connection : Connection) : List Block → Option Connection
  | [] => some connection
  | block :: rest => (block.run connection).bind fun next => runBlocks next rest

/-- The first `blocks`, and the first `statements` of the next. -/
def cutBlocks (statements : Nat) (connection : Connection) : Nat → List Block → Connection
  | blocks + 1, block :: rest =>
      match block.run connection with
      | some next => cutBlocks statements next blocks rest
      | none => connection
  | 0, block :: _ => block.cut statements connection
  | _, [] => connection

def initDbBlocks : List Block :=
  [ .execute (.createTable "actions" ["id", "entity_id", "entity_name", "entity_type", "action_type", "description",
      "proof", "status", "karma_value", "created_at", "verified_at", "system_version"]),
    .execute (.createTable "attestations" ["id", "action_id", "attester_id", "attester_name", "note", "created_at",
      "weight"]),
    .attempt [.addColumn "attestations" "weight", .commit],
    .attempt [.addColumn "actions" "signed", .commit],
    .attempt [.addColumn "actions" "system_version", .commit],
    .attempt [.addTotalKarmaReal, .fillTotalKarmaReal, .commit],
    .execute .createWisdom,
    .execute (.createTable "reports" ["id", "action_id", "reporter_id", "reason", "status", "created_at",
      "resolved_at"]),
    .execute (.createTable "trails" ["id", "author_id", "author_name", "name", "description", "steps", "price_sats",
      "output_schema", "created_at", "executions", "success_count", "rating_sum", "rating_count"]),
    .execute (.createTable "trail_executions" ["id", "trail_id", "executor_id", "executor_name", "status",
      "output_hash", "payment_hash", "rating", "created_at"]),
    .execute (.createTable "disputes" ["id", "action_id", "reporter_id", "reason", "kleros_dispute_id", "status",
      "ruling", "created_at", "resolved_at"]),
    .execute (.createTable "config_snapshots" ["id", "captured_at", "system_version", "weight_threshold",
      "karma_weight_base", "karma_weight_min", "karma_weight_max", "minimum_marks_to_attest",
      "minimum_karma_to_attest", "max_attestations_per_day", "minimum_karma_to_dispute"]),
    .execute .commit ]

/-- A complete run, or none where it raises. Closing the connection drops what is not committed. -/
def initDb (tables : Tables) : Option Tables := (runBlocks (.opened tables) initDbBlocks).map Connection.durable

/-- Where a run of `init_db` died: after so many blocks and so many statements of the next. -/
structure Crash where
  blocks : Nat
  statements : Nat
  deriving DecidableEq, Repr

def initDbCrashed (tables : Tables) (crash : Crash) : Tables :=
  (cutBlocks crash.statements (.opened tables) crash.blocks initDbBlocks).durable

/-- After any runs that died and a complete one, `upsert_wisdom` does not raise, every row
that there was has its karma in the real column and is as it was otherwise, and a further
run changes nothing. -/
def Migrates (prior : Tables) (crashes : List Crash) : Prop :=
  ∃ after, initDb (crashes.foldl initDbCrashed prior) = some after ∧
    (∀ entityId entityName entityType karmaDelta action attestation lastAction,
      (after.wisdom.upsert? entityId entityName entityType karmaDelta action attestation lastAction).isSome) ∧
    (∀ row ∈ prior.wisdom.rows,
      after.wisdom.find? row.entityId = some { row with totalKarmaReal := some row.karma }) ∧
    initDb after = some after

namespace Crash

/-- The run had added the column, if it was missing. -/
def added (crash : Crash) : Bool := 5 < crash.blocks || crash.blocks = 5 && 1 ≤ crash.statements

/-- The run had committed what fills the column. -/
def filled (crash : Crash) : Bool := 5 < crash.blocks || crash.blocks = 5 && 3 ≤ crash.statements

/-- The run had created the table, if it was missing. -/
def created (crash : Crash) : Bool := 6 < crash.blocks || crash.blocks = 6 && 1 ≤ crash.statements

end Crash

/-- An earlier run created a table that was missing. Where only the column was missing, the
run that added it also filled it, unless no karma is to be lost. A column that was there is
filled. -/
def MigrationSafe (crashes : List Crash) : WisdomTable → Prop
  | .absent => ∃ crash ∈ crashes, crash.created = true
  | .withoutReal table _ => (crashes.find? Crash.added).all Crash.filled = true ∨ ∀ row ∈ table.rows, row.totalKarma = 0
  | .withReal table => ∀ row ∈ table.rows, row.totalKarmaReal ≠ none

namespace WisdomTable

/-- The table with the real column at zero. -/
def zeroed (table : Table Wisdom) : Table Wisdom :=
  table.update (fun _ => true) (fun row => { row with totalKarmaReal := some 0 }) fun _ => rfl

/-- The table with the real column filled from the integer one. -/
def refilled (table : Table Wisdom) : Table Wisdom :=
  table.update (fun _ => true) (fun row => { row with totalKarmaReal := some row.totalKarma }) fun _ => rfl

/-- What the block of the real column does to the table. -/
def migrated : WisdomTable → WisdomTable
  | withoutReal table _ => withReal (refilled table)
  | wisdom => wisdom

/-- What is left of the block where it dies before its commit. -/
def interrupted : WisdomTable → WisdomTable
  | withoutReal table _ => withReal (zeroed table)
  | wisdom => wisdom

theorem fillReal_zeroed (table : Table Wisdom) :
    (withReal (zeroed table)).fillReal? = some (withReal (refilled table)) := by
  refine congrArg (some ∘ withReal) (Table.ext ?_)
  simp [zeroed, refilled, Function.comp_def]

end WisdomTable

/-- A block that has nothing to do with `wisdom`. -/
def Block.elsewhere : Block → Bool
  | .execute (.createTable ..) => true
  | .execute .commit => true
  | .attempt [.addColumn .., .commit] => true
  | _ => false

/-- What such a block does to the other tables. -/
def Block.others (others : List (String × List String)) : Block → List (String × List String)
  | .execute (.createTable table columns) => createTable table columns others
  | .attempt [.addColumn table column, .commit] => (addColumn? table column others).getD others
  | _ => others

def karmaBlock : Block := .attempt [.addTotalKarmaReal, .fillTotalKarmaReal, .commit]

section
variable {block : Block} {blocks : List Block} {tables : Tables}

/-- The shapes of a block elsewhere. -/
theorem Block.elsewhere_cases (elsewhere : block.elsewhere = true) :
    (∃ table columns, block = .execute (.createTable table columns)) ∨ block = .execute .commit ∨
      ∃ table column, block = .attempt [.addColumn table column, .commit] := by
  unfold Block.elsewhere at elsewhere
  split at elsewhere
  · exact Or.inl ⟨_, _, rfl⟩
  · exact Or.inr (Or.inl rfl)
  · exact Or.inr (Or.inr ⟨_, _, rfl⟩)
  · cases elsewhere

/-- A block elsewhere ends outside a transaction. -/
theorem run_elsewhere (elsewhere : block.elsewhere = true) (tables : Tables) :
    block.run (.opened tables) = some (.opened { tables with others := block.others tables.others }) := by
  rcases Block.elsewhere_cases elsewhere with ⟨table, columns, rfl⟩ | rfl | ⟨table, column, rfl⟩
  · rfl
  · rfl
  · change some (attempt (.opened tables) [.addColumn table column, .commit]) = _
    rw [attempt, Statement.exec, Block.others]
    change some (match (addColumn? table column tables.others).map _ with
      | some next => attempt next [.commit]
      | none => .opened tables) = _
    cases addColumn? table column tables.others <;> rfl

/-- A block elsewhere leaves `wisdom` alone wherever it dies. -/
theorem cut_elsewhere (elsewhere : block.elsewhere = true) (statements : Nat) :
    (block.cut statements (.opened tables)).durable.wisdom = tables.wisdom := by
  rcases Block.elsewhere_cases elsewhere with ⟨table, columns, rfl⟩ | rfl | ⟨table, column, rfl⟩
  · rw [Block.cut]
    split <;> rfl
  · rw [Block.cut]
    split <;> rfl
  · rcases statements with _ | _ | more
    · rfl
    · change (attempt (.opened tables) [.addColumn table column]).durable.wisdom = _
      rw [attempt, Statement.exec]
      cases addColumn? table column (Connection.opened tables).current.others <;> rfl
    · have run := run_elsewhere elsewhere tables
      rw [Block.run] at run
      rw [Block.cut, List.take_of_length_le (by simp), Option.some.inj run]
      rfl

theorem runBlocks_append (connection : Connection) (first second : List Block) :
    runBlocks connection (first ++ second) = (runBlocks connection first).bind fun next => runBlocks next second := by
  induction first generalizing connection with
  | nil => rfl
  | cons block rest ih =>
      rw [List.cons_append, runBlocks, runBlocks]
      cases block.run connection with
      | none => rfl
      | some next => exact ih next

theorem runBlocks_elsewhere (elsewhere : ∀ block ∈ blocks, block.elsewhere = true) (tables : Tables) :
    runBlocks (.opened tables) blocks =
      some (.opened { tables with others := blocks.foldl Block.others tables.others }) := by
  induction blocks generalizing tables with
  | nil => rfl
  | cons block rest ih =>
      rw [runBlocks, run_elsewhere (elsewhere _ List.mem_cons_self), Option.bind_some,
        ih fun other member => elsewhere other (List.mem_cons_of_mem _ member)]
      rfl

/-- A run that dies among blocks elsewhere, or goes on after them. -/
theorem cutBlocks_elsewhere (elsewhere : ∀ block ∈ blocks, block.elsewhere = true) (tables : Tables)
    (statements count : Nat) (later : List Block) :
    (count < blocks.length → (cutBlocks statements (.opened tables) count (blocks ++ later)).durable.wisdom =
      tables.wisdom) ∧
    (blocks.length ≤ count → cutBlocks statements (.opened tables) count (blocks ++ later) =
      cutBlocks statements (.opened { tables with others := blocks.foldl Block.others tables.others })
        (count - blocks.length) later) := by
  induction blocks generalizing tables count with
  | nil => exact ⟨fun less => absurd less (Nat.not_lt_zero _), fun _ => rfl⟩
  | cons block rest ih =>
      have here := elsewhere block List.mem_cons_self
      cases count with
      | zero => exact ⟨fun _ => cut_elsewhere here statements, fun none => absurd none (by simp)⟩
      | succ count =>
          have later := ih (fun other member => elsewhere other (List.mem_cons_of_mem _ member))
            { tables with others := block.others tables.others } count
          rw [List.cons_append, cutBlocks, run_elsewhere here, List.length_cons, Nat.add_lt_add_iff_right,
            Nat.add_le_add_iff_right, Nat.add_sub_add_right]
          exact later

theorem exec_fill (others : List (String × List String)) (table : Table Wisdom) :
    Statement.exec (.opened ⟨others, .withReal (WisdomTable.zeroed table)⟩) .fillTotalKarmaReal =
      some ⟨⟨others, .withReal (WisdomTable.zeroed table)⟩, some ⟨others, .withReal (WisdomTable.refilled table)⟩⟩ := by
  simp only [Statement.exec, Connection.current, Connection.opened, Option.getD_none, WisdomTable.fillReal_zeroed,
    Option.map_some]

/-- The block of the real column fills a column that it adds. -/
theorem run_karmaBlock (tables : Tables) :
    karmaBlock.run (.opened tables) = some (.opened { tables with wisdom := tables.wisdom.migrated }) := by
  obtain ⟨others, wisdom⟩ := tables
  cases wisdom with
  | absent => rfl
  | withReal table => rfl
  | withoutReal table bare =>
      change some (attempt (.opened ⟨others, .withReal (WisdomTable.zeroed table)⟩) [.fillTotalKarmaReal, .commit]) = _
      rw [attempt, exec_fill]
      rfl

/-- Where it dies before its commit, a column that it added stays at zero. -/
theorem cut_karmaBlock (tables : Tables) (statements : Nat) :
    (karmaBlock.cut statements (.opened tables)).durable.wisdom =
      if statements = 0 then tables.wisdom
      else if statements < 3 then tables.wisdom.interrupted else tables.wisdom.migrated := by
  obtain ⟨others, wisdom⟩ := tables
  rcases statements with _ | _ | _ | more
  · rfl
  · cases wisdom <;> rfl
  · cases wisdom with
    | absent => rfl
    | withReal table => rfl
    | withoutReal table bare =>
        change (attempt (.opened ⟨others, .withReal (WisdomTable.zeroed table)⟩)
          [.fillTotalKarmaReal]).durable.wisdom = _
        rw [attempt, exec_fill]
        rfl
  · have run := run_karmaBlock ⟨others, wisdom⟩
    rw [karmaBlock, Block.run] at run
    rw [karmaBlock, Block.cut, List.take_of_length_le (by simp), Option.some.inj run, if_neg (by omega),
      if_neg (by omega)]
    rfl

/-- The blocks before the one of the real column, and those after the one that creates the table. -/
theorem initDbBlocks_split :
    initDbBlocks = initDbBlocks.take 5 ++ karmaBlock :: .execute .createWisdom :: initDbBlocks.drop 7 := rfl

theorem elsewhere_take : ∀ block ∈ initDbBlocks.take 5, block.elsewhere = true := by
  decide

theorem elsewhere_drop : ∀ block ∈ initDbBlocks.drop 7, block.elsewhere = true := by
  decide

section
variable {earlier later : List Block}

/-- Between blocks elsewhere, the column is filled where it is added, and then the table is
created where it is missing. -/
theorem runBlocks_around (before : ∀ block ∈ earlier, block.elsewhere = true)
    (after : ∀ block ∈ later, block.elsewhere = true) (tables : Tables) :
    runBlocks (.opened tables) (earlier ++ karmaBlock :: .execute .createWisdom :: later) =
      some (.opened ⟨(earlier ++ karmaBlock :: .execute .createWisdom :: later).foldl Block.others tables.others,
        tables.wisdom.migrated.create⟩) := by
  have create : ∀ others, (Block.execute .createWisdom).run (.opened ⟨others, tables.wisdom.migrated⟩) =
      some (.opened ⟨others, tables.wisdom.migrated.create⟩) := fun others => rfl
  rw [runBlocks_append, runBlocks_elsewhere before, Option.bind_some, runBlocks, run_karmaBlock, Option.bind_some,
    runBlocks, create, Option.bind_some, runBlocks_elsewhere after, List.foldl_append, List.foldl_cons, List.foldl_cons]
  rfl

/-- What a run that dies leaves of `wisdom`, by how many blocks are before the one of the
real column. -/
theorem cutBlocks_around (before : ∀ block ∈ earlier, block.elsewhere = true)
    (after : ∀ block ∈ later, block.elsewhere = true) (tables : Tables) (statements count : Nat) :
    (cutBlocks statements (.opened tables) count
      (earlier ++ karmaBlock :: .execute .createWisdom :: later)).durable.wisdom =
      if earlier.length + 1 < count ∨ count = earlier.length + 1 ∧ 1 ≤ statements then tables.wisdom.migrated.create
      else if earlier.length < count ∨ count = earlier.length ∧ 3 ≤ statements then tables.wisdom.migrated
      else if count = earlier.length ∧ 1 ≤ statements then tables.wisdom.interrupted
      else tables.wisdom := by
  obtain ⟨among, beyond⟩ := cutBlocks_elsewhere before tables statements count
    (karmaBlock :: .execute .createWisdom :: later)
  by_cases less : count < earlier.length
  · rw [among less, if_neg (by omega), if_neg (by omega), if_neg (by omega)]
  rw [beyond (Nat.le_of_not_lt less)]
  obtain ⟨more, rfl⟩ := Nat.exists_eq_add_of_le (Nat.le_of_not_lt less)
  rw [Nat.add_sub_cancel_left]
  rcases more with _ | _ | more
  · rw [cutBlocks, cut_karmaBlock]
    by_cases none : statements = 0
    · rw [if_pos none, if_neg (by omega), if_neg (by omega), if_neg (by omega)]
    rw [if_neg none]
    by_cases few : statements < 3
    · rw [if_pos few, if_neg (by omega), if_neg (by omega), if_pos (by omega)]
    · rw [if_neg few, if_neg (by omega), if_pos (by omega)]
  · rw [cutBlocks, run_karmaBlock]
    change (Block.cut statements (.opened ⟨_, tables.wisdom.migrated⟩) (.execute .createWisdom)).durable.wisdom = _
    rw [Block.cut]
    by_cases none : statements = 0
    · rw [if_pos none, if_neg (by omega), if_pos (by omega)]
      rfl
    · rw [if_neg none, if_pos (by omega)]
      rfl
  · rw [cutBlocks, run_karmaBlock]
    change (cutBlocks statements (.opened ⟨_, tables.wisdom.migrated.create⟩) more later).durable.wisdom = _
    rw [if_pos (by omega)]
    obtain ⟨inside, past⟩ := cutBlocks_elsewhere after
      ⟨earlier.foldl Block.others tables.others, tables.wisdom.migrated.create⟩ statements more []
    rw [List.append_nil] at inside past
    by_cases here : more < later.length
    · exact inside here
    · refine (congrArg (fun ended : Connection => ended.durable.wisdom) (past (Nat.le_of_not_lt here))).trans ?_
      cases more - later.length <;> rfl

end

/-- A complete run does not raise. -/
theorem initDb_eq (tables : Tables) : initDb tables =
    some ⟨initDbBlocks.foldl Block.others tables.others, tables.wisdom.migrated.create⟩ := by
  have run := runBlocks_around elsewhere_take elsewhere_drop tables
  rw [← initDbBlocks_split] at run
  rw [initDb, run]
  rfl

/-- What a run that died left of the table. -/
def Crash.leaves (crash : Crash) (wisdom : WisdomTable) : WisdomTable :=
  if crash.created then wisdom.migrated.create
  else if crash.filled then wisdom.migrated
  else if crash.added then wisdom.interrupted
  else wisdom

theorem initDbCrashed_wisdom (tables : Tables) (crash : Crash) :
    (initDbCrashed tables crash).wisdom = crash.leaves tables.wisdom := by
  obtain ⟨count, statements⟩ := crash
  have cut := cutBlocks_around elsewhere_take elsewhere_drop tables statements count
  rw [← initDbBlocks_split] at cut
  rw [initDbCrashed, cut, Crash.leaves]
  simp only [Crash.created, Crash.filled, Crash.added, Bool.or_eq_true, Bool.and_eq_true, decide_eq_true_eq]
  have five : (initDbBlocks.take 5).length = 5 := rfl
  rw [five]
  split
  · rfl
  split
  · rfl
  by_cases interrupted : count = 5 ∧ 1 ≤ statements
  · rw [if_pos interrupted, if_pos (Or.inr interrupted)]
  · rw [if_neg interrupted, if_neg (by omega)]

/-- Several runs that died leave of the table what each leaves of it. -/
theorem foldl_initDbCrashed_wisdom (crashes : List Crash) (tables : Tables) :
    (crashes.foldl initDbCrashed tables).wisdom =
      crashes.foldl (fun wisdom crash => crash.leaves wisdom) tables.wisdom := by
  induction crashes generalizing tables with
  | nil => rfl
  | cons crash rest ih => rw [List.foldl_cons, List.foldl_cons, ih, initDbCrashed_wisdom]

end

namespace Crash

theorem filled_of_created {crash : Crash} (created : crash.created = true) : crash.filled = true := by
  simp only [Crash.created, Crash.filled, Bool.or_eq_true, Bool.and_eq_true, decide_eq_true_eq] at created ⊢
  omega

theorem added_of_filled {crash : Crash} (filled : crash.filled = true) : crash.added = true := by
  simp only [Crash.added, Crash.filled, Bool.or_eq_true, Bool.and_eq_true, decide_eq_true_eq] at filled ⊢
  omega

/-- A run that dies leaves a table with the column alone. -/
theorem leaves_withReal (crash : Crash) (table : Table Wisdom) : crash.leaves (.withReal table) = .withReal table := by
  unfold Crash.leaves
  split
  · rfl
  split
  · rfl
  split <;> rfl

theorem leaves_withoutReal (crash : Crash) (table : Table Wisdom)
    (bare : ∀ row ∈ table.rows, row.totalKarmaReal = none) :
    crash.leaves (.withoutReal table bare) =
      if crash.added then .withReal (if crash.filled then WisdomTable.refilled table else WisdomTable.zeroed table)
      else .withoutReal table bare := by
  unfold Crash.leaves
  by_cases filled : crash.filled
  · simp only [filled, Crash.added_of_filled filled, if_true]
    split <;> rfl
  · rw [if_neg fun created => filled (Crash.filled_of_created created), if_neg filled, if_neg filled]
    split <;> rfl

theorem leaves_absent (crash : Crash) :
    crash.leaves .absent = if crash.created then WisdomTable.create .absent else .absent := by
  unfold Crash.leaves
  split
  · rfl
  · split
    · rfl
    · split <;> rfl

theorem foldl_leaves_withReal (crashes : List Crash) (table : Table Wisdom) :
    crashes.foldl (fun wisdom crash => crash.leaves wisdom) (.withReal table) = .withReal table := by
  induction crashes with
  | nil => rfl
  | cons crash rest ih => rw [List.foldl_cons, leaves_withReal, ih]

/-- The first run that adds the column decides what is in it. -/
theorem foldl_leaves_withoutReal (crashes : List Crash) (table : Table Wisdom)
    (bare : ∀ row ∈ table.rows, row.totalKarmaReal = none) :
    crashes.foldl (fun wisdom crash => crash.leaves wisdom) (.withoutReal table bare) =
      match crashes.find? Crash.added with
      | none => .withoutReal table bare
      | some crash => .withReal (if crash.filled then WisdomTable.refilled table else WisdomTable.zeroed table) := by
  induction crashes with
  | nil => rfl
  | cons crash rest ih =>
      rw [List.foldl_cons, leaves_withoutReal]
      cases added : crash.added with
      | true => rw [if_pos rfl, foldl_leaves_withReal, List.find?_cons_of_pos added]
      | false =>
          have skipped : ¬ crash.added = true := by
            rw [added]
            exact Bool.false_ne_true
          rw [if_neg Bool.false_ne_true, ih, List.find?_cons_of_neg skipped]

/-- A table that an earlier run created has no rows. -/
theorem foldl_leaves_absent (crashes : List Crash) :
    (crashes.foldl (fun wisdom crash => crash.leaves wisdom) WisdomTable.absent).migrated.create =
      if crashes.any Crash.created then .withReal .empty else WisdomTable.create .absent := by
  have refilled : WisdomTable.refilled .empty = .empty := rfl
  have zeroed : WisdomTable.zeroed .empty = .empty := rfl
  induction crashes with
  | nil => rfl
  | cons crash rest ih =>
      rw [List.foldl_cons, leaves_absent, List.any_cons]
      cases created : crash.created with
      | false =>
          rw [if_neg Bool.false_ne_true, Bool.false_or]
          exact ih
      | true =>
          rw [if_pos rfl, Bool.true_or, if_pos rfl, WisdomTable.create, foldl_leaves_withoutReal]
          split
          · rfl
          · rw [refilled, zeroed, ite_self]
            rfl

end Crash

/-- The other tables have what the block would add. -/
def Block.present (others : List (String × List String)) : Block → Bool
  | .execute (.createTable table _) => (others.lookup table).isSome
  | .attempt [.addColumn table column, .commit] => (others.lookup table).any fun columns => column ∈ columns
  | _ => true

/-- A table whose columns are added is created by an earlier block. -/
def ordered (created : List String) : List Block → Bool
  | [] => true
  | .execute (.createTable table _) :: rest => ordered (table :: created) rest
  | .attempt [.addColumn table _, .commit] :: rest => decide (table ∈ created) && ordered created rest
  | _ :: rest => ordered created rest

/-- No table goes, and no column of one. -/
def Grows (others next : List (String × List String)) : Prop :=
  ∀ table columns, others.lookup table = some columns → ∃ more, next.lookup table = some more ∧ columns ⊆ more

section
variable {others : List (String × List String)} {block : Block}

theorem Grows.refl (others : List (String × List String)) : Grows others others :=
  fun _ columns found => ⟨columns, found, List.Subset.refl _⟩

theorem lookup_cons_of_ne {name other : String} {columns : List String} (apart : other ≠ name) :
    List.lookup other ((name, columns) :: others) = others.lookup other := by
  rw [List.lookup_cons, beq_eq_false_iff_ne.mpr apart]

theorem lookup_createTable (table : String) (columns : List String) (other : String) :
    (createTable table columns others).lookup other =
      (others.lookup other).or (if other = table then some columns else none) := by
  unfold createTable
  split
  · rename_i there
    by_cases same : other = table
    · rw [same]
      exact (Option.or_of_isSome there).symm
    · rw [if_neg same, Option.or_none]
  · rw [List.lookup_append]
    by_cases same : other = table
    · rw [if_pos same, same, List.lookup_cons_self]
    · rw [if_neg same, lookup_cons_of_ne same, List.lookup_nil]

theorem lookup_addColumn {table column : String} {next : List (String × List String)}
    (added : addColumn? table column others = some next) (other : String) :
    next.lookup other =
      (others.lookup other).map fun columns => if other = table then columns ++ [column] else columns := by
  unfold addColumn? at added
  split at added
  · cases added
  split at added
  · cases added
  obtain rfl := Option.some.inj added
  clear added
  rename_i columns found _
  clear found
  induction others with
  | nil => rfl
  | cons first rest ih =>
      obtain ⟨name, columns⟩ := first
      have head : (if name = table then (name, columns ++ [column]) else (name, columns)) =
          (name, if name = table then columns ++ [column] else columns) := by
        split <;> rfl
      rw [List.map_cons, head]
      by_cases same : other = name
      · rw [same, List.lookup_cons_self, List.lookup_cons_self, Option.map_some]
      · rw [lookup_cons_of_ne same, lookup_cons_of_ne same, ih]

/-- A block leaves the tables and columns that there are. -/
theorem grows_others (block : Block) : Grows others (block.others others) := by
  intro table columns found
  unfold Block.others
  split
  · rw [lookup_createTable, found]
    exact ⟨columns, rfl, List.Subset.refl _⟩
  · rename_i named column
    cases added : addColumn? named column others with
    | none => exact ⟨columns, found, List.Subset.refl _⟩
    | some next =>
        rw [Option.getD_some, lookup_addColumn added, found]
        refine ⟨_, rfl, ?_⟩
        dsimp only
        split
        · exact List.subset_append_left _ _
        · exact List.Subset.refl _
  · exact ⟨columns, found, List.Subset.refl _⟩

theorem present_of_grows {next : List (String × List String)} (grows : Grows others next)
    (present : block.present others = true) : block.present next = true := by
  unfold Block.present at present ⊢
  split at present
  · obtain ⟨columns, found⟩ := Option.isSome_iff_exists.mp present
    obtain ⟨more, there, _⟩ := grows _ _ found
    rw [there]
    rfl
  · obtain ⟨columns, found, member⟩ := (Option.any_eq_true ..).mp present
    obtain ⟨more, there, subset⟩ := grows _ _ found
    rw [there]
    exact decide_eq_true (subset (of_decide_eq_true member))
  · rfl

/-- A block adds nothing that is there. -/
theorem others_of_present (present : block.present others = true) : block.others others = others := by
  unfold Block.present at present
  unfold Block.others
  split at present
  · rw [createTable, if_pos present]
  · obtain ⟨columns, found, member⟩ := (Option.any_eq_true ..).mp present
    rw [addColumn?, found]
    dsimp only
    rw [if_pos (of_decide_eq_true member)]
    rfl
  · rfl

theorem grows_foldl (blocks : List Block) : Grows others (blocks.foldl Block.others others) := by
  induction blocks generalizing others with
  | nil => exact .refl others
  | cons block rest ih =>
      intro table columns found
      obtain ⟨more, there, subset⟩ := grows_others block table columns found
      obtain ⟨most, final, larger⟩ := ih table more there
      exact ⟨most, final, List.Subset.trans subset larger⟩

/-- A column is there once it was added to its table, or found there. -/
theorem present_addColumn {table column : String} (there : (others.lookup table).isSome = true) :
    Block.present ((Block.attempt [.addColumn table column, .commit]).others others)
      (.attempt [.addColumn table column, .commit]) = true := by
  obtain ⟨columns, found⟩ := Option.isSome_iff_exists.mp there
  rw [Block.present, Block.others]
  cases added : addColumn? table column others with
  | none =>
      rw [addColumn?, found] at added
      dsimp only at added
      rw [Option.getD_none, found, Option.any_some]
      split at added
      · rename_i member
        exact decide_eq_true member
      · cases added
  | some next =>
      rw [Option.getD_some, lookup_addColumn added, found, Option.map_some, if_pos rfl, Option.any_some]
      exact decide_eq_true (List.mem_append_right _ (List.mem_singleton_self _))

/-- After the blocks, what each would add is there. -/
theorem present_foldl {blocks : List Block} {created : List String}
    (there : ∀ table ∈ created, (others.lookup table).isSome = true) (inOrder : ordered created blocks = true) :
    ∀ block ∈ blocks, block.present (blocks.foldl Block.others others) = true := by
  induction blocks generalizing others created with
  | nil => exact fun block member => absurd member List.not_mem_nil
  | cons first rest ih =>
      have still : ∀ table ∈ created, ((first.others others).lookup table).isSome = true := by
        intro table member
        obtain ⟨columns, found⟩ := Option.isSome_iff_exists.mp (there table member)
        obtain ⟨more, found, _⟩ := grows_others first table columns found
        rw [found]
        rfl
      have own : first.present (first.others others) = true ∧
          ∀ block ∈ rest, block.present (rest.foldl Block.others (first.others others)) = true := by
        unfold ordered at inOrder
        split at inOrder
        · rename_i equal
          cases equal
        · rename_i table columns _ equal
          cases equal
          have made : ((createTable table columns others).lookup table).isSome = true := by
            rw [lookup_createTable, if_pos rfl]
            cases others.lookup table <;> rfl
          refine ⟨made, ih (fun other member => ?_) inOrder⟩
          rcases List.mem_cons.mp member with rfl | earlier
          · exact made
          · exact still other earlier
        · rename_i table column _ equal
          cases equal
          obtain ⟨earlier, inOrder⟩ := Bool.and_eq_true_iff.mp inOrder
          exact ⟨present_addColumn (there table (of_decide_eq_true earlier)), ih still inOrder⟩
        · rename_i notCreate notAdd equal
          cases equal
          refine ⟨?_, ih still inOrder⟩
          unfold Block.present
          split
          · rename_i table columns
            exact (notCreate table columns rfl).elim
          · rename_i table column
            exact (notAdd table column rfl).elim
          · rfl
      intro block member
      rcases List.mem_cons.mp member with rfl | later
      · exact present_of_grows (grows_foldl rest) own.1
      · exact own.2 block later

/-- A second run of the blocks adds nothing. -/
theorem foldl_others_of_present {blocks : List Block} (present : ∀ block ∈ blocks, block.present others = true) :
    blocks.foldl Block.others others = others := by
  induction blocks with
  | nil => rfl
  | cons block rest ih =>
      rw [List.foldl_cons, others_of_present (present block List.mem_cons_self)]
      exact ih fun other member => present other (List.mem_cons_of_mem _ member)

end

theorem initDbBlocks_ordered : ordered [] initDbBlocks = true := by
  decide

/-- The blocks are done with the other tables after one run. -/
theorem foldl_others_foldl (others : List (String × List String)) :
    initDbBlocks.foldl Block.others (initDbBlocks.foldl Block.others others) =
      initDbBlocks.foldl Block.others others := by
  apply foldl_others_of_present
  refine present_foldl (fun table member => ?_) initDbBlocks_ordered
  exact absurd member List.not_mem_nil

/-- The claims on the database are on the table that the runs leave. -/
theorem migrates_iff_wisdom {prior : Tables} {crashes : List Crash} {after : WisdomTable}
    (ends : (crashes.foldl (fun wisdom crash => crash.leaves wisdom) prior.wisdom).migrated.create = after) :
    Migrates prior crashes ↔ ∃ table, after = .withReal table ∧
      ∀ row ∈ prior.wisdom.rows, table.find? row.entityId = some { row with totalKarmaReal := some row.karma } := by
  have run := initDb_eq (crashes.foldl initDbCrashed prior)
  rw [foldl_initDbCrashed_wisdom, ends] at run
  constructor
  · rintro ⟨tables, ended, upserts, rows, _⟩
    rw [run] at ended
    obtain rfl := Option.some.inj ended
    cases after with
    | absent =>
        have upserted := upserts "" "" "" 0 false false none
        cases upserted
    | withoutReal table bare =>
        have upserted := upserts "" "" "" 0 false false none
        cases upserted
    | withReal table => exact ⟨table, rfl, rows⟩
  · rintro ⟨table, rfl, rows⟩
    refine ⟨_, run, fun _ _ _ _ _ _ _ => rfl, rows, ?_⟩
    rw [initDb_eq]
    dsimp only
    rw [foldl_others_foldl]
    rfl

section
variable {table : Table Wisdom} {row : Wisdom}

theorem find?_of_mem (member : row ∈ table.rows) : table.find? row.entityId = some row :=
  Table.find?_eq_some_iff.mpr ⟨member, rfl⟩

theorem find?_set {value : Wisdom → Option ℚ} (member : row ∈ table.rows) :
    (table.update (fun _ => true) (fun row => { row with totalKarmaReal := value row }) fun _ => rfl).find?
      row.entityId = some { row with totalKarmaReal := value row } := by
  rw [Table.find?_update, find?_of_mem member]
  rfl

end

/-- The column was missing. -/
theorem migrates_withoutReal_iff (others : List (String × List String)) (table : Table Wisdom)
    (bare : ∀ row ∈ table.rows, row.totalKarmaReal = none) (crashes : List Crash) :
    Migrates ⟨others, .withoutReal table bare⟩ crashes ↔ MigrationSafe crashes (.withoutReal table bare) := by
  have karma : ∀ row ∈ table.rows, row.karma = row.totalKarma := by
    intro row member
    rw [Wisdom.karma, bare row member]
    rfl
  have refilled : ∀ row ∈ table.rows, (WisdomTable.refilled table).find? row.entityId =
      some { row with totalKarmaReal := some row.karma } := by
    intro row member
    rw [karma row member]
    exact find?_set member
  rw [MigrationSafe]
  have ends := Crash.foldl_leaves_withoutReal crashes table bare
  cases first : crashes.find? Crash.added with
  | none =>
      rw [first] at ends
      rw [@migrates_iff_wisdom _ _ (.withReal (WisdomTable.refilled table)) (by rw [ends]; rfl)]
      exact iff_of_true ⟨_, rfl, refilled⟩ (Or.inl rfl)
  | some crash =>
      rw [first] at ends
      dsimp only at ends
      rw [Option.all_some]
      cases filled : crash.filled with
      | true =>
          rw [filled, if_pos rfl] at ends
          rw [@migrates_iff_wisdom _ _ (.withReal (WisdomTable.refilled table)) (by rw [ends]; rfl)]
          exact iff_of_true ⟨_, rfl, refilled⟩ (Or.inl rfl)
      | false =>
          rw [filled, if_neg Bool.false_ne_true] at ends
          rw [@migrates_iff_wisdom _ _ (.withReal (WisdomTable.zeroed table)) (by rw [ends]; rfl)]
          constructor
          · rintro ⟨_, same, rows⟩
            cases same
            refine Or.inr fun row member => ?_
            have found := (find?_set member).symm.trans (rows row member)
            have real := Option.some.inj (congrArg Wisdom.totalKarmaReal (Option.some.inj found))
            rw [karma row member] at real
            exact_mod_cast real.symm
          · rintro (never | zero)
            · cases never
            refine ⟨_, rfl, fun row member => ?_⟩
            have none : row.karma = 0 := by rw [karma row member, zero row member, Int.cast_zero]
            rw [none]
            exact find?_set member

/-- The migration is right exactly where it starts from one of the safe states. -/
theorem migrates_iff (prior : Tables) (crashes : List Crash) :
    Migrates prior crashes ↔ MigrationSafe crashes prior.wisdom := by
  obtain ⟨others, wisdom⟩ := prior
  cases wisdom with
  | absent =>
      rw [migrates_iff_wisdom (Crash.foldl_leaves_absent crashes), MigrationSafe, ← List.any_eq_true]
      cases crashes.any Crash.created with
      | true =>
          refine iff_of_true ⟨.empty, rfl, fun row member => ?_⟩ rfl
          exact absurd member List.not_mem_nil
      | false =>
          refine iff_of_false ?_ Bool.false_ne_true
          rintro ⟨table, same, _⟩
          cases same
  | withoutReal table bare => exact migrates_withoutReal_iff others table bare crashes
  | withReal table =>
      rw [@migrates_iff_wisdom _ _ (.withReal table) (by rw [Crash.foldl_leaves_withReal]; rfl), MigrationSafe]
      constructor
      · rintro ⟨_, same, rows⟩ row member null
        cases same
        have found := rows row member
        rw [find?_of_mem member] at found
        have real := congrArg Wisdom.totalKarmaReal (Option.some.inj found)
        rw [null] at real
        cases real
      · intro filled
        refine ⟨table, rfl, fun row member => ?_⟩
        rw [find?_of_mem member]
        obtain ⟨real, there⟩ := Option.ne_none_iff_exists'.mp (filled row member)
        rw [Wisdom.karma, there, Option.getD_some, ← there]

/-- A poster with 20 karma, from before there was a real column. -/
def oldPoster : Table Wisdom := ⟨[⟨"poster", "Poster", "agent", 20, none, 1, 0, none⟩], List.nodup_singleton _⟩

/-- A first run on no table leaves one without the column, on which `upsert_wisdom` raises;
and after a run that died between adding the column and filling it the poster has nothing. -/
theorem not_migrates : ¬ Migrates ⟨[], .absent⟩ [] ∧
    ¬ Migrates ⟨[], .withoutReal oldPoster (by decide)⟩ [⟨5, 1⟩] := by
  constructor
  · rw [migrates_iff_wisdom rfl]
    rintro ⟨table, same, _⟩
    cases same
  · rw [migrates_iff_wisdom rfl]
    rintro ⟨table, same, rows⟩
    cases same
    have found := rows ⟨"poster", "Poster", "agent", 20, none, 1, 0, none⟩ List.mem_cons_self
    exact absurd found (by decide +kernel)

end Argentum.Community
