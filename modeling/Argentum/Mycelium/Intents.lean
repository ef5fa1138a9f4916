import Argentum.Mycelium.Accounts

/-! Deposit intents. An intent is fulfilled by three statements: one that reads it
as pending, one that marks it and one that credits its account, under the key the
intent was created with. They are not a transaction. Fulfilment is exactly once in
the runs in which what was read is still so when the intent is marked, no call dies
between the mark and the credit, and the key is still the account's when the credit
is executed. -/
namespace Argentum.Mycelium
open Argentum Transition

def usdcIntentTtl : Seconds := 3600

/-- `round(x, digits)`: the decimal nearest to the double, as a double. -/
def roundDigits (digits : Nat) (x : ℚ) : ℚ := nearestDouble (roundEven (x * 10 ^ digits) / 10 ^ digits)

/-- `round(trails * 0.003, 4)` -/
def usdcPrice (trails : Int) : ℚ := roundDigits 4 (nearestDouble (nearestDouble trails * nearestDouble (3 / 1000)))

/-- `intent_id` is the hexadecimal `uuid4` the call draws, `fromAddress` is in lower case. -/
def createUsdcIntent (intentId apiKey fromAddress : String) (trails : Int) (now : Seconds) : Script Intent := do
  let intent : Intent :=
    { intentId, apiKey, fromAddress, trails, usdcAmount := usdcPrice trails, status := .pending
      txHash := none, createdAt := now, expiresAt := now + usdcIntentTtl, fulfilledAt := none }
  sqlOrRaise (.insertIntent intent)
  return intent

def getPendingUsdcIntents (now : Seconds) : Script (List Intent) := sql (.pendingIntents now)

/-- The intent as it was read, the account it credited and the transfer. -/
structure Fulfilment where
  intent : Intent
  account : Option Account
  txHash : String

def fulfillUsdcIntent (intentId txHash : String) (now : Seconds) : Script (Option Fulfilment) := do
  match ← sql (.pendingIntent intentId) with
  | none => return none
  | some intent =>
      sql (.markFulfilled intentId txHash now)
      sql (.addCredit intent.apiKey intent.trails now)
      let account ← sql (.account intent.apiKey)
      return some ⟨intent, account, txHash⟩

inductive FulfilCall where
  | fulfill (intentId txHash : String) (now : Seconds)
  | rotate (newApiKey oldApiKey : String) (now : Seconds)

inductive FulfilAnswer where
  | fulfilment (result : Option Fulfilment)
  | account (row : Option Account)

def FulfilCall.code : FulfilCall → Program Sql (Except Raised FulfilAnswer)
  | .fulfill intentId txHash now => ExceptT.run do return .fulfilment (← fulfillUsdcIntent intentId txHash now)
  | .rotate newApiKey oldApiKey now =>
      ExceptT.run do return .account (← rotatePaygAccount newApiKey oldApiKey now)

abbrev FulfilPool := Pool FulfilCall Sql (Except Raised FulfilAnswer) World

abbrev FulfilPool.step (pool : FulfilPool) (move : Move FulfilCall) : FulfilPool :=
  Pool.step exec FulfilCall.code pool move

abbrev FulfilProcess := Process FulfilCall Sql (Except Raised FulfilAnswer)

/-- A call on the intent that is about to mark it. -/
def FulfilProcess.markDue (intentId : String) : FulfilProcess → Bool
  | ⟨.fulfill named _ _, .perform (.markFulfilled _ _ _) _⟩ => named = intentId
  | _ => false

/-- A call on the intent that marked it and is about to credit its account. -/
def FulfilProcess.creditDue (intentId : String) : FulfilProcess → Bool
  | ⟨.fulfill named _ _, .perform (.addCredit _ _ _) _⟩ => named = intentId
  | _ => false

/-- A call on the intent that has not ended. -/
def FulfilProcess.inProgress (intentId : String) : FulfilProcess → Bool
  | ⟨.fulfill named _ _, .perform _ _⟩ => named = intentId
  | _ => false

/-- One, where a move credits the account at `place` for the intent. -/
def FulfilPool.received (intentId : String) (place : Nat) (pool : FulfilPool) (move : Move FulfilCall) : Nat :=
  match pool.moving move with
  | some ⟨.fulfill named _ _, .perform (.addCredit apiKey _ _) _⟩ =>
      if named = intentId ∧ pool.state.keyAt place = some apiKey then 1 else 0
  | _ => 0

/-- What is left of a call on an intent it read as pending. -/
def crediting (intent : Intent) (txHash : String) (now : Seconds) : Program Sql (Except Raised FulfilAnswer) :=
  .perform (.addCredit intent.apiKey intent.trails now) fun _ =>
    .perform (.account intent.apiKey) fun account =>
      .done (.ok (.fulfilment (some ⟨intent, account, txHash⟩)))

def marking (intentId : String) (intent : Intent) (txHash : String) (now : Seconds) :
    Program Sql (Except Raised FulfilAnswer) :=
  .perform (.markFulfilled intentId txHash now) fun _ => crediting intent txHash now

def reading (intentId txHash : String) (now : Seconds) : Program Sql (Except Raised FulfilAnswer) :=
  .perform (.pendingIntent intentId) fun found =>
    match found with
    | none => .done (.ok (.fulfilment none))
    | some intent => marking intentId intent txHash now

theorem code_fulfill (intentId txHash : String) (now : Seconds) :
    FulfilCall.code (.fulfill intentId txHash now) = reading intentId txHash now := by
  change Program.perform _ _ = Program.perform _ _
  congr 1
  funext found
  cases found <;> rfl

/-- What a call performs next. -/
theorem FulfilCall.performs {call : FulfilCall} {β : Type} {op : Sql β}
    {next : β → Program Sql (Except Raised FulfilAnswer)}
    (left : call.code.Residual (.perform op next)) :
    (∃ intentId txHash now, call = .fulfill intentId txHash now ∧
      (Program.perform op next = reading intentId txHash now ∨
        ∃ intent, Program.perform op next = marking intentId intent txHash now ∨
          Program.perform op next = crediting intent txHash now)) ∨
    (∃ newApiKey oldApiKey now, call = .rotate newApiKey oldApiKey now ∧
      Program.perform op next = call.code) ∨
    ∃ (apiKey : String) (answer : Option Account → FulfilAnswer),
      Program.perform op next = .perform (.account apiKey) fun row => .done (.ok (answer row)) := by
  cases call with
  | fulfill intentId txHash now =>
      rw [code_fulfill] at left
      rcases Program.residual_perform_iff.mp left with same | ⟨found, left⟩
      · exact Or.inl ⟨_, _, _, rfl, Or.inl same⟩
      cases found with
      | none => cases Program.residual_done_iff.mp left
      | some intent =>
          rcases Program.residual_perform_iff.mp left with same | ⟨_, left⟩
          · exact Or.inl ⟨_, _, _, rfl, Or.inr ⟨intent, Or.inl same⟩⟩
          rcases Program.residual_perform_iff.mp left with same | ⟨_, left⟩
          · exact Or.inl ⟨_, _, _, rfl, Or.inr ⟨intent, Or.inr same⟩⟩
          rcases Program.residual_perform_iff.mp left with same | ⟨_, left⟩
          · exact Or.inr (Or.inr ⟨_, _, same⟩)
          cases Program.residual_done_iff.mp left
  | rotate newApiKey oldApiKey now =>
      rcases Program.residual_perform_iff.mp left with same | ⟨changed, left⟩
      · exact Or.inr (Or.inl ⟨_, _, _, rfl, same⟩)
      rcases changed with raised | (_ | _)
      · cases Program.residual_done_iff.mp left
      · cases Program.residual_done_iff.mp left
      rcases Program.residual_perform_iff.mp left with same | ⟨_, left⟩
      · exact Or.inr (Or.inr ⟨_, _, same⟩)
      cases Program.residual_done_iff.mp left

/-- A move does not disturb the fulfilment of the intent: it is marked while it is
still pending, a call that marked it does not die before it credits, and the credit
is executed while the account at `place` still has the intent's key. -/
structure Undisturbed (intentId apiKey : String) (place : Nat) (pool : FulfilPool) (move : Move FulfilCall) :
    Prop where
  pending : ∀ process, pool.moving move = some process → FulfilProcess.markDue intentId process = true →
    (exec (.pendingIntent intentId) pool.state).1.isSome
  alive : ∀ index process, move = .crash index → pool.processes[index]? = some process →
    FulfilProcess.creditDue intentId process = false
  current : ∀ process, pool.moving move = some process → FulfilProcess.creditDue intentId process = true →
    pool.state.keyAt place = some apiKey

/-- The key under which a program credits next, or after it marks next. -/
def creditKey : Program Sql (Except Raised FulfilAnswer) → Option String
  | .perform (.addCredit apiKey _ _) _ => some apiKey
  | .perform (.markFulfilled _ _ _) next =>
      match next () with
      | .perform (.addCredit apiKey _ _) _ => some apiKey
      | _ => none
  | _ => none

/-- How many calls marked the intent and did not credit it yet. -/
def FulfilPool.due (intentId : String) (pool : FulfilPool) : Nat :=
  pool.processes.countP (FulfilProcess.creditDue intentId)

/-- What undisturbed moves keep: the intent is pending and nothing was or will be
credited for it, or it is fulfilled and it is credited once, or about to be. -/
structure Settling (intentId apiKey : String) (place : Nat) (pool : FulfilPool) (received : Nat) : Prop where
  runs : pool.Runs FulfilCall.code
  keyed : ∀ row, pool.state.intents.find? intentId = some row → row.apiKey = apiKey
  carried : ∀ process ∈ pool.processes, ∀ txHash now, process.call = .fulfill intentId txHash now →
    ∀ key, creditKey process.program = some key → key = apiKey
  once : ∃ row, pool.state.intents.find? intentId = some row ∧
    received + pool.due intentId = match row.status with
      | .pending => 0
      | .fulfilled => 1

section
variable {pool : FulfilPool} {intentId apiKey : String} {place received : Nat}

theorem find?_markFulfilled {w : World} {named txHash : String} {now : Seconds} :
    (exec (.markFulfilled named txHash now) w).2.intents.find? intentId =
      if named = intentId then (w.intents.find? intentId).map fun row => row.fulfill txHash now
      else w.intents.find? intentId := by
  have selects : ∀ row : Intent, decide (row.intentId = named) = decide (Keyed.key row = named) := fun _ => rfl
  simp only [exec, World.updateIntent]
  rw [Table.find?_update_key selects]

theorem intents_rekey {w : World} {newApiKey oldApiKey : String} {now : Seconds} :
    (exec (.rekey newApiKey oldApiKey now) w).2.intents = w.intents := by
  simp only [exec]
  cases w.accounts.rekey? (fun row => row.apiKey = oldApiKey) (fun row : Account =>
    { row with apiKey := newApiKey, updatedAt := now }) <;> rfl

/-- A crash takes a credit that is due, or changes nothing of what is. -/
theorem FulfilPool.due_crash (pool : FulfilPool) (intentId : String) (index : Nat) :
    (∃ process, pool.processes[index]? = some process ∧ FulfilProcess.creditDue intentId process = true) ∨
      (pool.step (.crash index)).due intentId = pool.due intentId := by
  cases found : pool.processes[index]? with
  | none =>
      right
      rw [FulfilPool.due, FulfilPool.step, Pool.step, List.eraseIdx_of_length_le (List.getElem?_eq_none_iff.mp found)]
      rfl
  | some process =>
      cases due : FulfilProcess.creditDue intentId process with
      | true => exact Or.inl ⟨process, rfl, due⟩
      | false =>
          have counted := countP_eraseIdx_add (p := FulfilProcess.creditDue intentId) found
          rw [due] at counted
          exact Or.inr counted

/-- What a move means for one intent: a call marks it, a call that marked it credits
an account or dies, or nothing. -/
theorem FulfilPool.step_cases (intentId : String) (place : Nat) (runs : pool.Runs FulfilCall.code)
    (move : Move FulfilCall) :
    (∃ process txHash now, pool.moving move = some process ∧ FulfilProcess.markDue intentId process = true ∧
      (pool.step move).state.intents.find? intentId =
        (pool.state.intents.find? intentId).map (fun row => row.fulfill txHash now) ∧
      (pool.step move).due intentId = pool.due intentId + 1 ∧ pool.received intentId place move = 0) ∨
    (∃ process intent txHash now, pool.moving move = some process ∧
      FulfilProcess.creditDue intentId process = true ∧ process ∈ pool.processes ∧
      process.call = .fulfill intentId txHash now ∧ process.program = crediting intent txHash now ∧
      (pool.step move).state.intents.find? intentId = pool.state.intents.find? intentId ∧
      (pool.step move).due intentId + 1 = pool.due intentId ∧
      pool.received intentId place move = if pool.state.keyAt place = some intent.apiKey then 1 else 0) ∨
    (∃ index process, move = .crash index ∧ pool.processes[index]? = some process ∧
      FulfilProcess.creditDue intentId process = true) ∨
    ((pool.step move).state.intents.find? intentId = pool.state.intents.find? intentId ∧
      (pool.step move).due intentId = pool.due intentId ∧ pool.received intentId place move = 0) := by
  cases move with
  | start call =>
      refine Or.inr (Or.inr (Or.inr ⟨rfl, ?_, rfl⟩))
      have fresh : FulfilProcess.creditDue intentId ⟨call, call.code⟩ = false := by cases call <;> rfl
      simp [FulfilPool.due, Pool.step, fresh]
  | crash index =>
      rcases pool.due_crash intentId index with ⟨process, found, due⟩ | same
      · exact Or.inr (Or.inr (Or.inl ⟨index, process, rfl, found, due⟩))
      · exact Or.inr (Or.inr (Or.inr ⟨rfl, same, rfl⟩))
  | advance index =>
      rcases pool.step_advance exec FulfilCall.code index with
        ⟨call, β, op, next, found, stepped⟩ | ⟨idle, still⟩
      on_goal 2 =>
        refine Or.inr (Or.inr (Or.inr ⟨by rw [FulfilPool.step, still], by rw [FulfilPool.step, still], ?_⟩))
        unfold FulfilPool.received
        split
        · rename_i moving
          obtain ⟨_, same⟩ := idle _ moving
          cases same
        · rfl
      have moving : pool.moving (.advance index) = some ⟨call, .perform op next⟩ := found
      have counted := countP_set_add (p := FulfilProcess.creditDue intentId)
        ⟨call, next (exec op pool.state).1⟩ found
      have stepDue : (pool.step (.advance index)).due intentId =
          (pool.processes.set index ⟨call, next (exec op pool.state).1⟩).countP
            (FulfilProcess.creditDue intentId) := by
        rw [FulfilPool.due, FulfilPool.step, stepped]
      rw [stepDue]
      simp only [FulfilPool.step, stepped, FulfilPool.received, FulfilPool.due, moving]
      rcases FulfilCall.performs (runs _ (List.mem_of_getElem? found)) with
        ⟨named, txHash, now, rfl, same | ⟨intent, same | same⟩⟩ | ⟨newApiKey, apiKey, now, rfl, same⟩ |
        ⟨apiKey, answer, same⟩
      · cases same
        refine Or.inr (Or.inr (Or.inr ⟨rfl, ?_, rfl⟩))
        revert counted
        cases (exec (.pendingIntent named) pool.state).1 with
        | none => exact id
        | some intent => exact id
      · cases same
        by_cases own : named = intentId
        · subst own
          refine Or.inl ⟨_, txHash, now, rfl, by simp [FulfilProcess.markDue], ?_, ?_, rfl⟩
          · rw [find?_markFulfilled, if_pos rfl]
          · simpa [FulfilProcess.creditDue, marking, crediting] using counted
        · refine Or.inr (Or.inr (Or.inr ⟨?_, ?_, rfl⟩))
          · rw [find?_markFulfilled, if_neg own]
          · simpa [FulfilProcess.creditDue, marking, crediting, own] using counted
      · cases same
        by_cases own : named = intentId
        · subst own
          refine Or.inr (Or.inl ⟨_, intent, txHash, now, rfl, by simp [FulfilProcess.creditDue],
            List.mem_of_getElem? found, rfl, rfl, rfl, ?_, ?_⟩)
          · simpa [FulfilProcess.creditDue, crediting] using counted
          · simp
        · refine Or.inr (Or.inr (Or.inr ⟨rfl, ?_, ?_⟩))
          · simpa [FulfilProcess.creditDue, crediting, own] using counted
          · simp [own]
      · cases same
        refine Or.inr (Or.inr (Or.inr ⟨?_, counted, rfl⟩))
        rw [intents_rekey]
      · cases same
        cases call with
        | fulfill named txHash now => exact Or.inr (Or.inr (Or.inr ⟨rfl, counted, rfl⟩))
        | rotate newApiKey oldApiKey now => exact Or.inr (Or.inr (Or.inr ⟨rfl, counted, rfl⟩))

/-- A call that read the intent carries the key the intent has. -/
theorem Settling.carried_step (settling : Settling intentId apiKey place pool received) (move : Move FulfilCall) :
    ∀ process ∈ (pool.step move).processes, ∀ txHash now, process.call = .fulfill intentId txHash now →
      ∀ key, creditKey process.program = some key → key = apiKey := by
  obtain ⟨runs, keyed, carried, _⟩ := settling
  intro process member
  cases move with
  | start call =>
      rcases List.mem_append.mp member with earlier | last
      · exact carried process earlier
      · rw [List.mem_singleton.mp last]
        rintro txHash now rfl key due
        rw [code_fulfill] at due
        cases due
  | crash index => exact carried process (List.mem_of_mem_eraseIdx member)
  | advance index =>
      rcases pool.step_advance exec FulfilCall.code index with
        ⟨call, β, op, next, found, stepped⟩ | ⟨_, still⟩
      on_goal 2 =>
        rw [FulfilPool.step, still] at member
        exact carried process member
      rw [FulfilPool.step, stepped] at member
      rcases List.mem_or_eq_of_mem_set member with earlier | rfl
      · exact carried process earlier
      rintro txHash now rfl key due
      have stored := List.mem_of_getElem? found
      rcases FulfilCall.performs (runs _ stored) with
        ⟨_, _, _, called, same | ⟨read, same | same⟩⟩ | ⟨_, _, _, called, _⟩ | ⟨_, _, same⟩
      · cases called
        cases same
        dsimp only at due
        split at due
        · cases due
        · rename_i intent answered
          obtain rfl := Option.some.inj due
          obtain ⟨present, _⟩ := Option.filter_eq_some_iff.mp answered
          exact keyed intent present
      · cases called
        cases same
        exact carried _ stored txHash now rfl key due
      · cases called
        cases same
        cases due
      · cases called
      · cases same
        cases due

theorem Settling.step {move : Move FulfilCall} (settling : Settling intentId apiKey place pool received)
    (undisturbed : Undisturbed intentId apiKey place pool move) :
    Settling intentId apiKey place (pool.step move) (received + pool.received intentId place move) := by
  have carriedStep := settling.carried_step move
  obtain ⟨runs, keyed, carried, row, found, once⟩ := settling
  rcases FulfilPool.step_cases intentId place runs move with
    ⟨process, txHash, now, moving, due, marked, dues, received⟩ |
    ⟨process, intent, txHash, now, moving, due, member, called, program, kept, dues, received⟩ |
    ⟨index, process, crashed, moving, due⟩ | ⟨kept, dues, received⟩
  · rw [found, Option.map_some] at marked
    refine ⟨runs.step move, ?_, carriedStep, _, marked, ?_⟩
    · rintro other same
      rw [marked] at same
      obtain rfl := Option.some.inj same
      exact keyed row found
    · have pending : row.status = .pending := by
        simpa [exec, found] using undisturbed.pending process moving due
      rw [pending] at once
      have fulfilled : (row.fulfill txHash now).status = .fulfilled := rfl
      rw [fulfilled, dues, received]
      simp only at once ⊢
      omega
  · have key : intent.apiKey = apiKey :=
      carried process member txHash now called _ (by rw [program]; rfl)
    rw [key, if_pos (undisturbed.current process moving due)] at received
    refine ⟨runs.step move, ?_, carriedStep, row, kept.trans found, ?_⟩
    · rwa [kept]
    · rw [received, ← once]
      omega
  · have alive := undisturbed.alive index process crashed moving
    rw [due] at alive
    cases alive
  · refine ⟨runs.step move, ?_, carriedStep, row, kept.trans found, ?_⟩
    · rwa [kept]
    · rw [received, dues]
      exact once

end

/-- After the moves the account at `place` received the trails of the intent at most
once, and exactly once iff the intent is fulfilled, where no call on it is in progress. -/
def FulfilledOnce (intentId : String) (place : Nat) (start : FulfilPool) (moves : List (Move FulfilCall)) :
    Prop :=
  let pool := run FulfilPool.step start moves
  let received := total FulfilPool.step (FulfilPool.received intentId place) start moves
  received ≤ 1 ∧ ((∀ process ∈ pool.processes, FulfilProcess.inProgress intentId process = false) →
    ((pool.state.intents.find? intentId).map Intent.status = some .fulfilled ↔ received = 1))

/-- Undisturbed fulfilment is idempotent and all-or-nothing. -/
theorem fulfilledOnce_of_undisturbed {start : FulfilPool} {moves : List (Move FulfilCall)} {intentId : String}
    {place : Nat} {intent : Intent} (idle : start.processes = [])
    (created : start.state.intents.find? intentId = some intent) (pending : intent.status = .pending)
    (admitted : Admits FulfilPool.step (Undisturbed intentId intent.apiKey place) start moves) :
    FulfilledOnce intentId place start moves := by
  unfold FulfilledOnce
  intro pool received
  have begun : Settling intentId intent.apiKey place start 0 := {
    runs := by simp [Pool.Runs, idle]
    keyed := fun row found => by rw [Option.some.inj (found.symm.trans created)]
    carried := by simp [idle]
    once := ⟨intent, created, by simp [FulfilPool.due, idle, pending]⟩ }
  obtain ⟨_, _, _, row, found, once⟩ : Settling intentId intent.apiKey place pool received :=
    admitted.tally (fun _ _ _ kept guarded => kept.step guarded) begun
  have ended : (∀ process ∈ pool.processes, FulfilProcess.inProgress intentId process = false) →
      pool.due intentId = 0 := by
    intro none
    rw [FulfilPool.due, List.countP_eq_zero]
    intro process member due
    have finished := none process member
    revert finished
    unfold FulfilProcess.creditDue at due
    split at due
    · simp [FulfilProcess.inProgress, of_decide_eq_true due]
    · cases due
  refine ⟨?_, fun none => ?_⟩
  · split at once <;> omega
  · have finished := ended none
    rw [found, Option.map_some, Option.some.injEq]
    cases status : row.status with
    | pending =>
        rw [status] at once
        have none : received = 0 := by
          dsimp only at once
          omega
        simp [none]
    | fulfilled =>
        rw [status] at once
        have one : received = 1 := by
          dsimp only at once
          omega
        simp [one]

/-- One account that created one intent. -/
def deposit : World :=
  { World.empty with
    accounts := ⟨[⟨"key", "agent", .free, 0, none, none, 0, 0⟩], List.nodup_singleton _⟩
    intents := ⟨[⟨"intent", "key", "0xabc", 100, usdcPrice 100, .pending, none, 0, 3600, none⟩],
      List.nodup_singleton _⟩ }

/-- Two calls and a rotation: the second call reads between the first one's mark and its
credit, and the key changes after the credit. -/
def callsInTurn : List (Move FulfilCall) :=
  [.start (.fulfill "intent" "0x01" 10), .start (.fulfill "intent" "0x02" 10), .start (.rotate "next" "key" 20),
    .advance 0, .advance 0, .advance 1, .advance 0, .advance 2, .advance 0]

/-- Two calls read the intent before either marks it. -/
def twoCalls : List (Move FulfilCall) :=
  [.start (.fulfill "intent" "0x01" 10), .start (.fulfill "intent" "0x02" 10), .advance 0, .advance 1,
    .advance 0, .advance 0, .advance 1, .advance 1]

theorem fulfilledOnce_callsInTurn : FulfilledOnce "intent" 0 ⟨deposit, []⟩ callsInTurn := by
  refine fulfilledOnce_of_undisturbed rfl rfl rfl ⟨?_, ?_, ?_, ?_, ?_, ?_, ?_, ?_, ?_, trivial⟩
  all_goals
    refine ⟨fun process moving due => ?_, fun index process crashed => ?_, fun process moving due => ?_⟩
    · first | (cases moving; done) | (cases moving; first | rfl | exact absurd due (by decide +kernel))
    · cases crashed
    · first | (cases moving; done) | (cases moving; first | rfl | exact absurd due (by decide +kernel))

theorem not_fulfilledOnce_twoCalls : deposit.keyAt 0 = some "key" ∧
    ((deposit.intents.find? "intent").map Intent.status = some .pending) ∧
    ¬ FulfilledOnce "intent" 0 ⟨deposit, []⟩ twoCalls := by
  refine ⟨rfl, rfl, fun once => ?_⟩
  exact absurd once.1 (by decide +kernel)

end Argentum.Mycelium
