import Argentum.Core.Rounding
import Argentum.Mycelium.Schema

/-! Prepaid credit. Three functions write `credit_trails` or the key of an account,
and any number of calls of them race on one row, a statement at a time. An account
is a row: rows keep their place, so it is followed through rotations by its place.
Its credit is what it started with and was topped up with, less one for each call
that consumed from it, while this is a number of 64 bits. Past that the column holds a
double, which a call that consumes leaves as it is. -/
namespace Argentum.Mycelium
open Argentum Transition

def getPaygAccount (apiKey : String) : Script (Option Account) := sql (.account apiKey)

def getPaygAccountByAgent (agentId : String) : Script (Option Account) := sql (.accountByAgent agentId)

def topupPayg (apiKey : String) (trails : Int) (now : Seconds) : Script (Option Account) := do
  let trails ← bound (bindInt trails)
  sql (.addCredit apiKey trails now)
  sql (.account apiKey)

def consumePaygCredit (apiKey : String) (now : Seconds) : Script Bool := sql (.takeCredit apiKey now)

/-- `new_api_key` is the hexadecimal `uuid4` the call draws. -/
def rotatePaygAccount (newApiKey oldApiKey : String) (now : Seconds) : Script (Option Account) := do
  if ← sqlOrRaise (.rekey newApiKey oldApiKey now) then sql (.account newApiKey) else return none

inductive CreditCall where
  | topup (apiKey : String) (trails : Int) (now : Seconds)
  | consume (apiKey : String) (now : Seconds)
  | rotate (newApiKey oldApiKey : String) (now : Seconds)

inductive CreditAnswer where
  | account (row : Option Account)
  | consumed (granted : Bool)

def CreditCall.code : CreditCall → Program Sql (Except Raised CreditAnswer)
  | .topup apiKey trails now => ExceptT.run do return .account (← topupPayg apiKey trails now)
  | .consume apiKey now => ExceptT.run do return .consumed (← consumePaygCredit apiKey now)
  | .rotate newApiKey oldApiKey now =>
      ExceptT.run do return .account (← rotatePaygAccount newApiKey oldApiKey now)

/-- A number that an INTEGER column holds as one. -/
def IsInt64 (n : Int) : Prop := -2 ^ 63 ≤ n ∧ n < 2 ^ 63

instance (n : Int) : Decidable (IsInt64 n) := inferInstanceAs (Decidable (_ ∧ _))

/-- `a + b` of SQLite: of integers where these and the sum have 64 bits, else of doubles. A double that is
whole is that number. -/
def sqlSum (a b : Int) : Int :=
  if IsInt64 a ∧ IsInt64 b ∧ IsInt64 (a + b) then a + b else ⌊doubleOf (doubleOf a + doubleOf b)⌋

/-- The statements, with `credit_trails` in its column. -/
def storedExec : Semantics Sql World
  | _, .addCredit apiKey trails now, w =>
      ((), w.updateAccounts (fun row => row.apiKey = apiKey)
        (fun row => { row with creditTrails := sqlSum row.creditTrails trails, tier := .payg, updatedAt := now })
        fun _ => rfl)
  | _, .takeCredit apiKey now, w =>
      ((w.accounts.find? apiKey).any Account.payable,
        w.updateAccounts (fun row => row.apiKey = apiKey && row.payable)
          (fun row => { row with creditTrails := sqlSum row.creditTrails (-1), updatedAt := now }) fun _ => rfl)
  | _, op, w => exec op w

/-- The calls in flight over the tables. -/
abbrev CreditPool := Pool CreditCall Sql (Except Raised CreditAnswer) World

abbrev CreditPool.step (pool : CreditPool) (move : Move CreditCall) : CreditPool :=
  Pool.step storedExec CreditCall.code pool move

/-- The key of the account at a place, at this moment. -/
def World.keyAt (w : World) (place : Nat) : Option String := (w.accounts.rows[place]?).map Account.apiKey

/-- The amount a move tops the account at `place` up with: a topup executes its
`UPDATE` under the account's key of that moment. -/
def CreditPool.toppedUp (place : Nat) (pool : CreditPool) (move : Move CreditCall) : Int :=
  match pool.moving move with
  | some ⟨.topup _ _ _, .perform (.addCredit apiKey trails _) _⟩ =>
      if pool.state.keyAt place = some apiKey then trails else 0
  | _ => 0

/-- One, where a move makes a consume call on the account at `place` return True. -/
def CreditPool.consumed (place : Nat) (pool : CreditPool) (move : Move CreditCall) : Int :=
  match pool.moving move, pool.returned storedExec move with
  | some ⟨.consume apiKey _, _⟩, some (.ok (.consumed true)) =>
      if pool.state.keyAt place = some apiKey then 1 else 0
  | _, _ => 0

/-- What a call performs next: the `UPDATE` of a topup whose amount is bound, the one statement of a consume
call, that of a rotation, or a `SELECT`. -/
theorem CreditCall.performs {call : CreditCall} {β : Type} {op : Sql β}
    {next : β → Program Sql (Except Raised CreditAnswer)}
    (left : call.code.Residual (.perform op next)) :
    (∃ apiKey trails now, call = .topup apiKey trails now ∧ IsInt64 trails ∧ Program.perform op next =
      .perform (.addCredit apiKey trails now) fun _ =>
        .perform (.account apiKey) fun row => .done (.ok (.account row))) ∨
    (∃ apiKey now, call = .consume apiKey now ∧ Program.perform op next =
      .perform (.takeCredit apiKey now) fun granted => .done (.ok (.consumed granted))) ∨
    (∃ newApiKey oldApiKey now, call = .rotate newApiKey oldApiKey now ∧
      Program.perform op next = call.code) ∨
    ((∀ apiKey now, call ≠ .consume apiKey now) ∧ ∃ apiKey, Program.perform op next =
      .perform (.account apiKey) fun row => .done (.ok (.account row))) := by
  cases call with
  | topup apiKey trails now =>
      by_cases fits : IsInt64 trails
      · have code : CreditCall.code (.topup apiKey trails now) = .perform (.addCredit apiKey trails now) fun _ =>
            .perform (.account apiKey) fun row => .done (.ok (.account row)) := by
          rw [CreditCall.code, topupPayg, bindInt_eq_ok_iff.mpr ⟨fits, rfl⟩]
          rfl
        rw [code] at left
        rcases Program.residual_perform_iff.mp left with same | ⟨_, left⟩
        · exact Or.inl ⟨_, _, _, rfl, fits, same⟩
        rcases Program.residual_perform_iff.mp left with same | ⟨_, left⟩
        · exact Or.inr (Or.inr (Or.inr ⟨by simp, apiKey, same⟩))
        cases Program.residual_done_iff.mp left
      · have code : CreditCall.code (.topup apiKey trails now) = .done (.error .overflowError) := by
          rw [CreditCall.code, topupPayg, bindInt_eq_error fun bound => fits (bindInt_eq_ok_iff.mp bound).1]
          rfl
        rw [code] at left
        cases Program.residual_done_iff.mp left
  | consume apiKey now =>
      rcases Program.residual_perform_iff.mp left with same | ⟨_, left⟩
      · exact Or.inr (Or.inl ⟨_, _, rfl, same⟩)
      cases Program.residual_done_iff.mp left
  | rotate newApiKey oldApiKey now =>
      rcases Program.residual_perform_iff.mp left with same | ⟨changed, left⟩
      · exact Or.inr (Or.inr (Or.inl ⟨_, _, _, rfl, same⟩))
      rcases changed with raised | (_ | _)
      · cases Program.residual_done_iff.mp left
      · cases Program.residual_done_iff.mp left
      rcases Program.residual_perform_iff.mp left with same | ⟨_, left⟩
      · exact Or.inr (Or.inr (Or.inr ⟨by simp, newApiKey, same⟩))
      cases Program.residual_done_iff.mp left

/-- The credit of the account at a place. -/
def World.creditAt (w : World) (place : Nat) : Option Int :=
  (w.accounts.rows[place]?).map Account.creditTrails

section
variable {w : World} {place : Nat} {apiKey newApiKey : String} {trails : Int} {now : Seconds}

theorem creditAt_addCredit : (storedExec (.addCredit apiKey trails now) w).2.creditAt place =
    (w.creditAt place).map fun credit =>
      if w.keyAt place = some apiKey then sqlSum credit trails else credit := by
  simp only [World.creditAt, World.keyAt, storedExec, World.updateAccounts, Table.rows_update, List.getElem?_map]
  rcases Option.eq_none_or_eq_some w.accounts.rows[place]? with absent | ⟨row, found⟩
  · simp [absent]
  · by_cases same : row.apiKey = apiKey <;> simp [found, same]

/-- The decrement finds the account its key names, and only that. -/
theorem creditAt_takeCredit : (storedExec (.takeCredit apiKey now) w).2.creditAt place =
    (w.creditAt place).map fun credit =>
      if w.keyAt place = some apiKey ∧ (storedExec (.takeCredit apiKey now) w).1 = true then sqlSum credit (-1)
      else credit := by
  simp only [World.creditAt, World.keyAt, storedExec, World.updateAccounts, Table.rows_update, List.getElem?_map]
  rcases Option.eq_none_or_eq_some w.accounts.rows[place]? with absent | ⟨row, found⟩
  · simp [absent]
  by_cases same : row.apiKey = apiKey
  · have named : w.accounts.find? apiKey = some row :=
      Table.find?_eq_some_iff.mpr ⟨List.mem_of_getElem? found, same⟩
    cases payable : row.payable <;> simp [found, named, same, payable]
  · simp [found, same]

theorem creditAt_rekey : (storedExec (.rekey newApiKey apiKey now) w).2.creditAt place = w.creditAt place := by
  simp only [storedExec, exec]
  cases updated : w.accounts.rekey? (fun row => row.apiKey = apiKey) (fun row : Account =>
      { row with apiKey := newApiKey, updatedAt := now }) with
  | none => rfl
  | some accounts =>
      simp only [Option.map_some, constrained, World.creditAt, Table.rows_rekey updated, List.getElem?_map]
      cases w.accounts.rows[place]? with
      | none => rfl
      | some row => by_cases same : row.apiKey = apiKey <;> simp [same]

end

/-- The credit of the account under a key. -/
def World.creditOf (w : World) (apiKey : String) : Option Int :=
  (w.accounts.find? apiKey).map Account.creditTrails

section
variable {w : World} {apiKey : String} {trails : Int} {now : Seconds}

theorem creditOf_addCredit (key : String) : (exec (.addCredit apiKey trails now) w).2.creditOf key =
    (w.creditOf key).map fun credit => credit + if apiKey = key then trails else 0 := by
  have selects : ∀ row : Account, decide (row.apiKey = apiKey) = decide (Keyed.key row = apiKey) :=
    fun _ => rfl
  simp only [World.creditOf, exec, World.updateAccounts]
  rw [Table.find?_update_key selects]
  split <;> cases w.accounts.find? key <;> simp [Account.credit]

theorem creditOf_takeCredit (key : String) : (exec (.takeCredit apiKey now) w).2.creditOf key =
    (w.creditOf key).map fun credit =>
      credit - if apiKey = key ∧ (exec (.takeCredit apiKey now) w).1 = true then 1 else 0 := by
  simp only [World.creditOf, exec, World.updateAccounts, Table.find?_update]
  rcases Option.eq_none_or_eq_some (w.accounts.find? key) with absent | ⟨row, found⟩
  · simp [absent]
  have named : row.apiKey = key := Table.find?_key found
  by_cases same : apiKey = key
  · subst same
    cases payable : row.payable <;> simp [found, named, payable, Account.debit]
  · have apart : key ≠ apiKey := Ne.symm same
    simp [found, named, same, apart]

end

/-- The credit of all accounts. -/
def World.totalCredit (w : World) : Int := (w.accounts.rows.map Account.creditTrails).sum

/-- An update of one account changes the credit of all by what it changes there. -/
theorem totalCredit_updateAccounts {w : World} {apiKey : String} {row : Account} {p : Account → Bool}
    {f : Account → Account} {keeps : ∀ row, Keyed.key (f row) = Keyed.key row}
    (selects : ∀ row ∈ w.accounts.rows, p row = decide (row.apiKey = apiKey))
    (found : w.accounts.find? apiKey = some row) :
    (w.updateAccounts p f keeps).totalCredit = w.totalCredit + ((f row).creditTrails - row.creditTrails) := by
  obtain ⟨before, after, rows, updated⟩ := Table.rows_update_key keeps selects found
  rw [World.totalCredit, World.totalCredit, World.updateAccounts, updated, rows]
  simp only [List.map_append, List.map_cons, List.sum_append, List.sum_cons]
  omega

section
variable {a b : Int}

theorem sqlSum_eq (left : IsInt64 a) (right : IsInt64 b) (sum : IsInt64 (a + b)) : sqlSum a b = a + b :=
  if_pos ⟨left, right, sum⟩

/-- The statement lifts no credit past its column. -/
def Sql.Fits (w : World) {β : Type} : Sql β → Prop
  | .addCredit apiKey trails _ => ∀ row ∈ w.accounts.rows, row.apiKey = apiKey →
      IsInt64 trails ∧ IsInt64 (row.creditTrails + trails)
  | _ => True

/-- Credits of 64 bits are exact in their column. -/
theorem storedExec_eq_exec {w : World} (small : ∀ row ∈ w.accounts.rows, IsInt64 row.creditTrails) {β : Type}
    (op : Sql β) (fits : op.Fits w) : storedExec op w = exec op w := by
  cases op with
  | addCredit apiKey trails now =>
      refine congrArg (Prod.mk ()) (congrArg (fun accounts => { w with accounts }) (Table.ext ?_))
      refine List.map_congr_left fun row member => ?_
      by_cases same : row.apiKey = apiKey
      · obtain ⟨amount, sum⟩ := fits row member same
        simp [same, Account.credit, sqlSum_eq (small row member) amount sum]
      · simp [same]
  | takeCredit apiKey now =>
      refine congrArg (Prod.mk _) (congrArg (fun accounts => { w with accounts }) (Table.ext ?_))
      refine List.map_congr_left fun row member => ?_
      by_cases payable : row.payable = true
      · have positive : 0 < row.creditTrails := by
          simp only [Account.payable, decide_eq_true_eq] at payable
          exact payable.2
        have held := small row member
        have taken : IsInt64 (row.creditTrails + -1) := ⟨by omega, by have := held.2; omega⟩
        simp [payable, Account.debit, sqlSum_eq held (by decide) taken, sub_eq_add_neg]
      · simp [payable]
  | _ => rfl

theorem sqlSum_nonneg (left : 0 ≤ a) (right : 0 ≤ b) : 0 ≤ sqlSum a b := by
  unfold sqlSum
  split
  · exact add_nonneg left right
  · refine Int.floor_nonneg.mpr (doubleOf_nonneg (add_nonneg (doubleOf_nonneg ?_) (doubleOf_nonneg ?_)))
    · exact Int.cast_nonneg left
    · exact Int.cast_nonneg right

/-- A credit that is there is taken, in either arithmetic. -/
theorem sqlSum_take_nonneg (positive : 0 < a) : 0 ≤ sqlSum a (-1) := by
  unfold sqlSum
  split
  · omega
  · have one : nearestDouble 1 = 1 := by decide +kernel
    have held : (1 : ℚ) ≤ doubleOf a := by
      rw [doubleOf_of_nonneg (Int.cast_nonneg positive.le), ← one]
      exact nearestDouble_mono zero_le_one (by exact_mod_cast positive)
    have taken : doubleOf ((-1 : Int) : ℚ) = -1 := by
      rw [doubleOf, if_pos (by norm_num)]
      simp [one]
    rw [taken]
    exact Int.floor_nonneg.mpr (doubleOf_nonneg (by linarith))

end

/-- What every move keeps: calls in flight, and amounts and credits that are not negative. -/
structure Stocked (pool : CreditPool) : Prop where
  runs : pool.Runs CreditCall.code
  amounts : ∀ process ∈ pool.processes, ∀ apiKey trails now,
    process.call = .topup apiKey trails now → 0 ≤ trails
  nonneg : ∀ (place : Nat) (held : Int), pool.state.creditAt place = some held → 0 ≤ held

/-- Beside these, the balance of the account at `place`, in 64 bits. -/
structure Balanced (place : Nat) (credit : Int) (pool : CreditPool) (sum : Int) : Prop extends Stocked pool where
  balance : pool.state.creditAt place = some (credit + sum)
  small : credit + sum < 2 ^ 63

/-- A topup is for an amount that is not negative. -/
def NonNegativeTopup (move : Move CreditCall) : Prop :=
  ∀ apiKey trails now, move = .start (.topup apiKey trails now) → 0 ≤ trails

/-- The move does not lift the credit of the account at `place` past 64 bits. -/
def CreditPool.WithinColumn (place : Nat) (pool : CreditPool) (move : Move CreditCall) : Prop :=
  ∀ credit ∈ pool.state.creditAt place, credit + pool.toppedUp place move < 2 ^ 63

instance (place : Nat) (pool : CreditPool) (move : Move CreditCall) : Decidable (pool.WithinColumn place move) :=
  inferInstanceAs (Decidable (∀ _ ∈ _, _))

section
variable {pool : CreditPool} {place : Nat} {credit sum : Int}

/-- No account is topped up or charged by the move. -/
def Quiet (pool : CreditPool) (move : Move CreditCall) : Prop :=
  ∀ place, pool.toppedUp place move = 0 ∧ pool.consumed place move = 0

theorem quiet_of_idle {move : Move CreditCall}
    (idle : ∀ process, pool.moving move = some process → ∃ value, process.program = .done value) :
    Quiet pool move := by
  intro place
  have none : pool.returned storedExec move = none := by
    unfold Pool.returned
    split
    · rename_i moving
      obtain ⟨_, same⟩ := idle _ moving
      cases same
    · rfl
  refine ⟨?_, by simp [CreditPool.consumed, none]⟩
  unfold CreditPool.toppedUp
  split
  · rename_i moving
    obtain ⟨_, same⟩ := idle _ moving
    cases same
  · rfl

/-- What a move does to credit: it is a topup's `UPDATE`, a decrement, or neither. -/
theorem step_credit (runs : pool.Runs CreditCall.code) (move : Move CreditCall) :
    (∃ apiKey trails now, IsInt64 trails ∧ (∃ process ∈ pool.processes, process.call = .topup apiKey trails now) ∧
      (pool.step move).state = (storedExec (.addCredit apiKey trails now) pool.state).2 ∧
      ∀ place, pool.toppedUp place move = (if pool.state.keyAt place = some apiKey then trails else 0) ∧
        pool.consumed place move = 0) ∨
    (∃ apiKey now, (pool.step move).state = (storedExec (.takeCredit apiKey now) pool.state).2 ∧
      ∀ place, pool.toppedUp place move = 0 ∧ pool.consumed place move =
        if pool.state.keyAt place = some apiKey ∧ (storedExec (.takeCredit apiKey now) pool.state).1 = true
        then 1 else 0) ∨
    ((∀ place, (pool.step move).state.creditAt place = pool.state.creditAt place) ∧ Quiet pool move) := by
  cases move with
  | start call => exact Or.inr (Or.inr ⟨fun _ => rfl, quiet_of_idle (by simp [Pool.moving])⟩)
  | crash index => exact Or.inr (Or.inr ⟨fun _ => rfl, quiet_of_idle (by simp [Pool.moving])⟩)
  | advance index =>
      rcases pool.step_advance storedExec CreditCall.code index with
        ⟨call, β, op, next, found, stepped⟩ | ⟨idle, still⟩
      on_goal 2 => exact Or.inr (Or.inr ⟨fun _ => by rw [CreditPool.step, still], quiet_of_idle idle⟩)
      have moving : pool.moving (.advance index) = some ⟨call, .perform op next⟩ := found
      have member := List.mem_of_getElem? found
      rw [CreditPool.step, stepped]
      simp only [Quiet, CreditPool.toppedUp, CreditPool.consumed, Pool.returned, moving]
      rcases CreditCall.performs (runs _ member) with
        ⟨apiKey, trails, now, rfl, fits, same⟩ | ⟨apiKey, now, rfl, same⟩ | ⟨newApiKey, apiKey, now, rfl, same⟩ |
        ⟨other, apiKey, same⟩
      · cases same
        exact Or.inl ⟨apiKey, trails, now, fits, ⟨_, member, rfl⟩, rfl, fun place => ⟨rfl, rfl⟩⟩
      · cases same
        refine Or.inr (Or.inl ⟨apiKey, now, rfl, fun place => ⟨rfl, ?_⟩⟩)
        cases (storedExec (.takeCredit apiKey now) pool.state).1 <;> simp
      · cases same
        exact Or.inr (Or.inr ⟨fun place => creditAt_rekey, fun place => ⟨rfl, rfl⟩⟩)
      · cases same
        refine Or.inr (Or.inr ⟨fun place => rfl, fun place => ?_⟩)
        cases call with
        | consume apiKey now => exact absurd rfl (other apiKey now)
        | topup | rotate => exact ⟨rfl, rfl⟩

/-- The account under a key that a decrement finds has a credit. -/
theorem positive_of_granted {w : World} {apiKey : String} {now : Seconds} (current : w.keyAt place = some apiKey)
    (granted : (storedExec (.takeCredit apiKey now) w).1 = true) (held : w.creditAt place = some credit) :
    0 < credit := by
  obtain ⟨row, found, rfl⟩ := Option.map_eq_some_iff.mp held
  have same : row.apiKey = apiKey := by simpa [World.keyAt, found] using current
  have named : w.accounts.find? apiKey = some row :=
    Table.find?_eq_some_iff.mpr ⟨List.mem_of_getElem? found, same⟩
  have payable : row.payable = true := by simpa [storedExec, named] using granted
  simp only [Account.payable, decide_eq_true_eq] at payable
  exact payable.2

theorem Stocked.step {move : Move CreditCall} (stocked : Stocked pool) (nonNegative : NonNegativeTopup move) :
    Stocked (pool.step move) where
  runs := stocked.runs.step move
  amounts := by
    intro process member
    cases move with
    | start call =>
        rcases List.mem_append.mp member with earlier | last
        · exact stocked.amounts process earlier
        · rw [List.mem_singleton.mp last]
          rintro apiKey trails now rfl
          exact nonNegative _ _ _ rfl
    | advance index =>
        rcases pool.step_advance storedExec CreditCall.code index with
          ⟨call, β, op, next, found, stepped⟩ | ⟨_, still⟩
        · rw [CreditPool.step, stepped] at member
          rcases List.mem_or_eq_of_mem_set member with earlier | rfl
          · exact stocked.amounts process earlier
          · exact stocked.amounts ⟨call, .perform op next⟩ (List.mem_of_getElem? found)
        · rw [CreditPool.step, still] at member
          exact stocked.amounts process member
    | crash index => exact stocked.amounts process (List.mem_of_mem_eraseIdx member)
  nonneg place held found := by
    rcases step_credit stocked.runs move with
      ⟨_, trails, _, _, ⟨_, member, called⟩, stepped, _⟩ | ⟨_, _, stepped, _⟩ | ⟨kept, _⟩
    · rw [stepped, creditAt_addCredit] at found
      obtain ⟨before, stored, rfl⟩ := Option.map_eq_some_iff.mp found
      have kept := stocked.nonneg place before stored
      split
      · exact sqlSum_nonneg kept (stocked.amounts _ member _ _ _ called)
      · exact kept
    · rw [stepped, creditAt_takeCredit] at found
      obtain ⟨before, stored, rfl⟩ := Option.map_eq_some_iff.mp found
      split
      · rename_i granted
        exact sqlSum_take_nonneg (positive_of_granted granted.1 granted.2 stored)
      · exact stocked.nonneg place before stored
    · exact stocked.nonneg place held (by rw [← kept, found])

/-- What one move does to the credit of an account is what it amounts to there, within the column. -/
theorem creditAt_step (stocked : Stocked pool) {move : Move CreditCall} (within : pool.WithinColumn place move)
    (held : pool.state.creditAt place = some credit) (small : credit < 2 ^ 63) :
    (pool.step move).state.creditAt place = some (credit + (pool.toppedUp place move - pool.consumed place move)) ∧
      credit + (pool.toppedUp place move - pool.consumed place move) < 2 ^ 63 := by
  have positive := stocked.nonneg place credit held
  have lifted := within credit held
  rcases step_credit stocked.runs move with
    ⟨apiKey, trails, _, fits, ⟨_, member, called⟩, stepped, sums⟩ | ⟨apiKey, _, stepped, sums⟩ | ⟨kept, quiet⟩
  · have amount := stocked.amounts _ member _ _ _ called
    rw [(sums place).1] at lifted
    rw [stepped, creditAt_addCredit, held, (sums place).1, (sums place).2, Option.map_some, sub_zero]
    split
    · rename_i current
      rw [if_pos current] at lifted
      refine ⟨congrArg some (sqlSum_eq ⟨by omega, small⟩ fits ⟨by omega, lifted⟩), lifted⟩
    · exact ⟨congrArg some (add_zero credit).symm, by omega⟩
  · rw [stepped, creditAt_takeCredit, held, (sums place).1, (sums place).2, Option.map_some, zero_sub]
    split
    · rename_i granted
      have present := positive_of_granted granted.1 granted.2 held
      exact ⟨congrArg some (sqlSum_eq ⟨by omega, small⟩ (by decide) ⟨by omega, by omega⟩), by omega⟩
    · exact ⟨congrArg some (by simp), by omega⟩
  · rw [kept, held, (quiet place).1, (quiet place).2]
    exact ⟨congrArg some (by simp), by omega⟩

theorem Balanced.step {move : Move CreditCall} (balanced : Balanced place credit pool sum)
    (nonNegative : NonNegativeTopup move) (within : pool.WithinColumn place move) :
    Balanced place credit (pool.step move) (sum + (pool.toppedUp place move - pool.consumed place move)) where
  toStocked := balanced.toStocked.step nonNegative
  balance := by
    rw [← add_assoc]
    exact (creditAt_step balanced.toStocked within balanced.balance balanced.small).1
  small := by
    rw [← add_assoc]
    exact (creditAt_step balanced.toStocked within balanced.balance balanced.small).2

/-- A consume call is turned away from an account that exists only where it has no
credit to take. -/
theorem turned_away (stocked : Stocked pool) {move : Move CreditCall}
    {apiKey : String} {now : Seconds} {program : Program Sql (Except Raised CreditAnswer)}
    (moving : pool.moving move = some ⟨.consume apiKey now, program⟩)
    (refused : pool.returned storedExec move = some (.ok (.consumed false))) {row : Account}
    (named : pool.state.accounts.find? apiKey = some row) :
    row.tier ≠ .payg ∨ row.creditTrails = 0 := by
  cases move with
  | start | crash => cases moving
  | advance index =>
      cases program with
      | done value => simp [Pool.returned, moving] at refused
      | perform op next =>
          rcases CreditCall.performs (stocked.runs _ (List.mem_of_getElem? moving)) with
            ⟨_, _, _, called, _⟩ | ⟨apiKey, now, called, same⟩ | ⟨_, _, _, called, _⟩ | ⟨other, _⟩
          · cases called
          · cases called
            cases same
            obtain ⟨place, found⟩ := List.mem_iff_getElem?.mp (Table.find?_mem named)
            have stored := stocked.nonneg place row.creditTrails (by rw [World.creditAt, found, Option.map_some])
            have answer : row.payable = false := by
              simpa [Pool.returned, moving, storedExec, named] using refused
            simp only [Account.payable, decide_eq_false_iff_not, not_and_or] at answer
            exact answer.imp_right fun empty => by omega
          · cases called
          · exact absurd rfl (other apiKey now)

end

/-- Whatever calls race, the credit of an account that is not lifted past its column is its topups less
the consume calls that were granted; no credit is ever negative, and a call is refused for a reason only. -/
theorem credit_conserved {start : CreditPool} {moves : List (Move CreditCall)}
    (idle : start.processes = []) (stocked : ∀ row ∈ start.state.accounts.rows, 0 ≤ row.creditTrails)
    (amounts : ∀ move ∈ moves, NonNegativeTopup move) :
    let pool := run CreditPool.step start moves
    (∀ place credit, start.state.creditAt place = some credit → credit < 2 ^ 63 →
      Admits CreditPool.step (CreditPool.WithinColumn place) start moves →
      pool.state.creditAt place = some (credit + total CreditPool.step (CreditPool.toppedUp place) start moves -
        total CreditPool.step (CreditPool.consumed place) start moves)) ∧
    (∀ place held, pool.state.creditAt place = some held → 0 ≤ held) ∧
    ∀ move apiKey now program, pool.moving move = some ⟨.consume apiKey now, program⟩ →
      pool.returned storedExec move = some (.ok (.consumed false)) →
      ∀ row, pool.state.accounts.find? apiKey = some row → row.tier ≠ .payg ∨ row.creditTrails = 0 := by
  intro pool
  have begun : Stocked start := {
    runs := by simp [Pool.Runs, idle]
    amounts := by simp [idle]
    nonneg := fun other held found => by
      obtain ⟨row, stored, rfl⟩ := Option.map_eq_some_iff.mp found
      exact stocked row (List.mem_of_getElem? stored) }
  have admitted : Admits CreditPool.step (fun _ => NonNegativeTopup) start moves :=
    admits_of_mem fun move member _ => amounts move member
  have kept : Stocked pool := admitted.invariant (fun _ _ kept guarded => kept.step guarded) begun
  refine ⟨fun place credit held small within => ?_, kept.nonneg, fun move apiKey now program moving refused row named =>
    turned_away kept moving refused named⟩
  -- the credit is carried along the run, with what it is in 64 bits
  have both : Admits CreditPool.step (fun pool move => NonNegativeTopup move ∧ pool.WithinColumn place move) start moves :=
    admitted.both within fun _ _ => And.intro
  have balanced : Balanced place credit pool (total CreditPool.step
      (fun pool move => pool.toppedUp place move - pool.consumed place move) start moves) :=
    both.tally (fun _ _ _ kept guarded => kept.step guarded.1 guarded.2)
      ⟨begun, by rw [held, add_zero], by rwa [add_zero]⟩
  rw [balanced.balance, total_sub, ← add_sub_assoc]

/-- One account with one credit. -/
def oneCredit : World :=
  { World.empty with accounts := ⟨[⟨"key", "agent", .payg, 1, none, none, 0, 0⟩], List.nodup_singleton _⟩ }

/-- Two consume calls race for the credit, the key is rotated between them, and a topup comes in time. -/
def race : List (Move CreditCall) :=
  [.start (.consume "key" 1), .start (.consume "key" 1), .start (.topup "key" 5 1), .start (.rotate "new" "key" 1),
    .advance 0, .advance 2, .advance 3, .advance 1]

theorem credit_conserved_race :
    (run CreditPool.step ⟨oneCredit, []⟩ race).state.creditAt 0 =
      some (1 + total CreditPool.step (CreditPool.toppedUp 0) ⟨oneCredit, []⟩ race -
        total CreditPool.step (CreditPool.consumed 0) ⟨oneCredit, []⟩ race) ∧
    ∀ held, (run CreditPool.step ⟨oneCredit, []⟩ race).state.creditAt 0 = some held → 0 ≤ held := by
  have conserved := @credit_conserved ⟨oneCredit, []⟩ race rfl (by simp [oneCredit]) (by simp [race, NonNegativeTopup])
  exact ⟨conserved.1 0 1 rfl (by decide) (by decide +kernel), conserved.2.1 0⟩

/-- Two topups of 2^62, and two calls that consume. -/
def largeTopups : List (Move CreditCall) :=
  [.start (.topup "key" (2 ^ 62) 1), .start (.topup "key" (2 ^ 62) 1), .start (.consume "key" 1),
    .start (.consume "key" 1), .advance 0, .advance 1, .advance 2, .advance 3]

/-- The column turns into a double, and a consume call that returns True leaves it as it is. -/
theorem not_credit_conserved : ¬ ∀ (start : CreditPool) (moves : List (Move CreditCall)) (place : Nat) (credit : Int),
    start.processes = [] → (∀ row ∈ start.state.accounts.rows, 0 ≤ row.creditTrails) →
    (∀ move ∈ moves, NonNegativeTopup move) → start.state.creditAt place = some credit →
    (run CreditPool.step start moves).state.creditAt place =
      some (credit + total CreditPool.step (CreditPool.toppedUp place) start moves -
        total CreditPool.step (CreditPool.consumed place) start moves) := by
  intro claimed
  have claimed := claimed ⟨oneCredit, []⟩ largeTopups 0 1 rfl (by simp [oneCredit])
    (by simp [largeTopups, NonNegativeTopup]) rfl
  exact absurd claimed (by decide +kernel)

end Argentum.Mycelium
