import Argentum.Community.Wisdom
import Argentum.Core.Json
import Argentum.Core.Program
import Argentum.Core.Rounding

/-! The tables of `mycelium_trails.py` and the statements its functions execute.
Every connection is in autocommit mode, so a statement is atomic and durable once
executed. Text that SQLite accepts has no lone surrogates, so a TEXT column holds
a `String`, and REAL columns add up in doubles. `time.time()` is an instant in seconds. -/
namespace Argentum.Mycelium
open Argentum Text

abbrev Seconds := Int

inductive Tier where
  | free | payg
  deriving DecidableEq, Repr

structure Account where
  apiKey : String
  agentId : String
  tier : Tier
  creditTrails : Int
  conformanceSource : Option String
  notifyWebhook : Option String
  createdAt : Seconds
  updatedAt : Seconds
  deriving DecidableEq, Repr

inductive IntentStatus where
  | pending | fulfilled
  deriving DecidableEq, Repr

structure Intent where
  intentId : String
  apiKey : String
  fromAddress : String
  trails : Int
  usdcAmount : ℚ
  status : IntentStatus
  txHash : Option String
  createdAt : Seconds
  expiresAt : Seconds
  fulfilledAt : Option Seconds
  deriving DecidableEq, Repr

structure ExternalNonce where
  actionRef : String
  agentId : String
  createdAt : Seconds
  deriving DecidableEq, Repr

/-- What a TEXT column keeps of a bound value: text, or the text SQLite prints for
a float. -/
inductive Cell where
  | text (s : String)
  | real (x : Float64)

inductive AnchorStatus where
  | submitted | anchored | failed
  deriving DecidableEq, Repr

inductive FailReason where
  | reverted | nonArrivalTimeout
  deriving DecidableEq, Repr

/-- One row of `trails`, a recorded use of a service. -/
structure TrailRow where
  trailId : String
  agentId : String
  service : Cell
  operation : String
  timestamp : Seconds
  signatureRef : String
  scope : Option String
  delegationRef : Option Cell
  negotiationRef : Option Cell
  negotiationRefStatus : Option String
  origin : String
  actionRef : Option String := none
  preimageJson : Option Str := none
  txHash : Option String := none
  anchorStatus : Option AnchorStatus := none
  anchorBlock : Option Int := none
  anchorSubmittedAt : Option Seconds := none
  anchorFailReason : Option FailReason := none
  karmaAtTime : Option Int := none
  parentTrailId : Option String := none

structure BillingEvent where
  apiKey : String
  agentId : String
  trailId : String
  billedAt : Seconds
  deriving DecidableEq, Repr

instance : Keyed Account String := ⟨Account.apiKey⟩
instance : Keyed Intent String := ⟨Intent.intentId⟩
instance : Keyed ExternalNonce String := ⟨ExternalNonce.actionRef⟩
instance : Keyed TrailRow String := ⟨TrailRow.trailId⟩

/-- The arguments of `_do_anchor`, of a thread that was started. -/
structure AnchorThread where
  trailId : String
  actionRef : String
  agentId : String
  origin : String
  deriving DecidableEq, Repr

/-- One call of `notify_anchor`. -/
structure Notification where
  url : String
  trailId : String
  txHash : String
  deriving DecidableEq, Repr

/-- `trails.db`, the `wisdom` table of `argentum.db`, and what the process sends out:
the threads it starts, the anchor calls and the notifications. -/
structure World where
  accounts : Table Account
  intents : Table Intent
  nonces : Table ExternalNonce
  trails : Table TrailRow
  billing : List BillingEvent
  wisdom : Table Community.Wisdom
  threads : List AnchorThread
  anchorCalls : List AnchorThread
  notifications : List Notification

def World.empty : World := ⟨.empty, .empty, .empty, .empty, [], .empty, [], [], []⟩

/-- The exceptions a handler can end in. -/
inductive Raised where
  | python (error : PyError)
  | attributeError
  | unicodeEncodeError
  | overflowError
  | bindingError
  | integrityError
  deriving DecidableEq

/-- A `str` as SQLite takes it, in UTF-8, which a lone surrogate has none of. -/
def bindStr (s : Str) : Except Raised String :=
  match toString? s with
  | some text => .ok text
  | none => .error .unicodeEncodeError

theorem ofString_of_bindStr {s : Str} {text : String} (bound : bindStr s = .ok text) : ofString text = s := by
  unfold bindStr at bound
  split at bound
  · rename_i shown
    cases bound
    exact ofString_of_toString? shown
  · cases bound

/-- An `int` as SQLite takes it, in 64 bits. -/
def bindInt (n : Int) : Except Raised Int :=
  if -2 ^ 63 ≤ n ∧ n < 2 ^ 63 then .ok n else .error .overflowError

theorem bindInt_eq_ok_iff {n m : Int} : bindInt n = .ok m ↔ (-2 ^ 63 ≤ n ∧ n < 2 ^ 63) ∧ n = m := by
  unfold bindInt
  split
  · rename_i fits
    rw [and_iff_right fits, Except.ok.injEq]
  · rename_i wide
    exact iff_of_false (fun raised => by cases raised) fun both => wide both.1

theorem bindInt_eq_error {n : Int} (wide : bindInt n ≠ .ok n) : bindInt n = .error .overflowError :=
  if_neg fun fits => wide (if_pos fits)

/-- A JSON value bound to a TEXT column. Numbers are stored as the text SQLite
prints, NaN is NULL, and an integer has to fit 64 bits. -/
def bindText : Json → Except Raised (Option Cell)
  | .null => .ok none
  | .bool b => .ok (some (.text (if b then "1" else "0")))
  | .int n =>
      if -2 ^ 63 ≤ n ∧ n < 2 ^ 63 then .ok (some (.text (toString n))) else .error .overflowError
  | .float .nan => .ok none
  | .float x => .ok (some (.real x))
  | .str s => (bindStr s).map fun text => some (.text text)
  | .list _ => .error .bindingError
  | .dict _ => .error .bindingError

/-- The statements, and the calls that leave the process, by what they answer. -/
inductive Sql : Type → Type
  /-- `SELECT ... FROM payg_accounts WHERE api_key=?` -/
  | account (apiKey : String) : Sql (Option Account)
  /-- The `SELECT` of `get_payg_account_by_agent`. -/
  | accountByAgent (agentId : String) : Sql (Option Account)
  /-- `UPDATE payg_accounts SET credit_trails = credit_trails + ?, tier = 'payg' ...` -/
  | addCredit (apiKey : String) (trails : Int) (now : Seconds) : Sql Unit
  /-- The guarded decrement of `consume_payg_credit`, and whether it changed a row. -/
  | takeCredit (apiKey : String) (now : Seconds) : Sql Bool
  /-- The `UPDATE` of `rotate_payg_account`, and whether it changed a row. -/
  | rekey (newApiKey oldApiKey : String) (now : Seconds) : Sql (Except Raised Bool)
  /-- The `SELECT` of `get_notify_webhook`. -/
  | notifyWebhook (agentId : String) : Sql (Option String)
  | insertIntent (row : Intent) : Sql (Except Raised Unit)
  /-- `SELECT * FROM payg_usdc_intents WHERE status='pending' AND expires_at > ?` -/
  | pendingIntents (now : Seconds) : Sql (List Intent)
  /-- `SELECT * FROM payg_usdc_intents WHERE intent_id=? AND status='pending'` -/
  | pendingIntent (intentId : String) : Sql (Option Intent)
  /-- `UPDATE payg_usdc_intents SET status='fulfilled', ... WHERE intent_id=?` -/
  | markFulfilled (intentId txHash : String) (now : Seconds) : Sql Unit
  | hasNonce (actionRef : String) : Sql Bool
  /-- `INSERT OR IGNORE INTO external_trail_nonces ...` -/
  | insertNonce (row : ExternalNonce) : Sql Unit
  /-- The `SELECT COUNT(*)` of `count_trails_today`. -/
  | countSince (agentId : String) (start : Seconds) : Sql Nat
  /-- The `SELECT COUNT(*)` of `count_trails_this_month`: pioneer rows are free. -/
  | countBilledSince (agentId : String) (start : Seconds) : Sql Nat
  | insertTrail (row : TrailRow) : Sql (Except Raised Unit)
  | setActionRef (trailId actionRef : String) : Sql Unit
  | setPreimage (trailId : String) (preimage : Str) : Sql Unit
  | setTxHash (trailId txHash : String) (now : Seconds) : Sql Unit
  | confirmAnchor (trailId : String) (blockNumber : Int) : Sql Unit
  | failAnchor (trailId : String) (reason : FailReason) : Sql Unit
  /-- The `SELECT` of `get_submitted_trails`. -/
  | submittedTrails (limit : Nat) : Sql (List TrailRow)
  | insertBilling (row : BillingEvent) : Sql Unit
  /-- `upsert_wisdom(conn, agent_id, agent_id, "agent", ...)` and its commit. -/
  | creditKarma (agentId : String) (karmaDelta : ℚ) (lastAction : Community.Instant) : Sql Unit
  | startThread (thread : AnchorThread) : Sql Unit
  | anchorActionRef (thread : AnchorThread) : Sql Unit
  | notifyAnchor (notification : Notification) : Sql Unit

namespace World

/-- `UPDATE payg_accounts SET f WHERE p`, which leaves the key alone. -/
def updateAccounts (w : World) (p : Account → Bool) (f : Account → Account)
    (keeps : ∀ row, Keyed.key (f row) = Keyed.key row) : World :=
  { w with accounts := w.accounts.update p f keeps }

def updateIntent (w : World) (intentId : String) (f : Intent → Intent)
    (keeps : ∀ row, Keyed.key (f row) = Keyed.key row) : World :=
  { w with intents := w.intents.update (fun row => row.intentId = intentId) f keeps }

def updateTrail (w : World) (trailId : String) (f : TrailRow → TrailRow)
    (keeps : ∀ row, Keyed.key (f row) = Keyed.key row) : World :=
  { w with trails := w.trails.update (fun row => row.trailId = trailId) f keeps }

end World

/-- An account with `trails` more credits, in a column that holds every number. -/
def Account.credit (row : Account) (trails : Int) (now : Seconds) : Account :=
  { row with creditTrails := row.creditTrails + trails, tier := .payg, updatedAt := now }

def Account.debit (row : Account) (now : Seconds) : Account :=
  { row with creditTrails := row.creditTrails - 1, updatedAt := now }

theorem Account.key_credit (trails : Int) (now : Seconds) (row : Account) :
    Keyed.key (row.credit trails now) = Keyed.key row := rfl

theorem Account.key_debit (now : Seconds) (row : Account) : Keyed.key (row.debit now) = Keyed.key row := rfl

def Intent.fulfill (row : Intent) (txHash : String) (now : Seconds) : Intent :=
  { row with status := .fulfilled, txHash := some txHash, fulfilledAt := some now }

theorem Intent.key_fulfill (txHash : String) (now : Seconds) (row : Intent) :
    Keyed.key (row.fulfill txHash now) = Keyed.key row := rfl

/-- `tier='payg' AND credit_trails > 0` -/
def Account.payable (row : Account) : Bool := row.tier = .payg ∧ 0 < row.creditTrails

/-- A statement with a constraint: the rows it leaves, or the error that leaves them alone. -/
def constrained {α : Type} (w : World) (answer : α) : Option World → Except Raised α × World
  | some next => (.ok answer, next)
  | none => (.error .integrityError, w)

def exec : Semantics Sql World
  | _, .account apiKey, w => (w.accounts.find? apiKey, w)
  | _, .accountByAgent agentId, w =>
      (((w.accounts.rows.filter fun row => row.agentId = agentId && row.payable).insertionSort
        fun first second => second.creditTrails ≤ first.creditTrails).head?, w)
  | _, .addCredit apiKey trails now, w =>
      ((), w.updateAccounts (fun row => row.apiKey = apiKey) (fun row => row.credit trails now)
        (Account.key_credit trails now))
  | _, .takeCredit apiKey now, w =>
      ((w.accounts.find? apiKey).any Account.payable,
        w.updateAccounts (fun row => row.apiKey = apiKey && row.payable) (fun row => row.debit now)
          (Account.key_debit now))
  | _, .rekey newApiKey oldApiKey now, w =>
      constrained w (w.accounts.find? oldApiKey).isSome
        ((w.accounts.rekey? (fun row => row.apiKey = oldApiKey) fun row =>
          { row with apiKey := newApiKey, updatedAt := now }).map fun accounts => { w with accounts })
  | _, .notifyWebhook agentId, w =>
      ((((w.accounts.rows.filter fun row => row.agentId = agentId && row.notifyWebhook.any (· ≠ "")).insertionSort
        fun first second => second.updatedAt ≤ first.updatedAt).head?).bind Account.notifyWebhook, w)
  | _, .insertIntent row, w =>
      constrained w () ((w.intents.insert? row).map fun intents => { w with intents })
  | _, .pendingIntents now, w =>
      (w.intents.rows.filter fun row => row.status = .pending && now < row.expiresAt, w)
  | _, .pendingIntent intentId, w =>
      ((w.intents.find? intentId).filter fun row => row.status = .pending, w)
  | _, .markFulfilled intentId txHash now, w =>
      ((), w.updateIntent intentId (fun row => row.fulfill txHash now) (Intent.key_fulfill txHash now))
  | _, .hasNonce actionRef, w => ((w.nonces.find? actionRef).isSome, w)
  | _, .insertNonce row, w => ((), { w with nonces := (w.nonces.insert? row).getD w.nonces })
  | _, .countSince agentId start, w =>
      (w.trails.rows.countP fun row => row.agentId = agentId && start ≤ row.timestamp, w)
  | _, .countBilledSince agentId start, w =>
      (w.trails.rows.countP fun row =>
        row.agentId = agentId && start ≤ row.timestamp && row.origin ≠ "pioneer", w)
  | _, .insertTrail row, w =>
      constrained w () ((w.trails.insert? row).map fun trails => { w with trails })
  | _, .setActionRef trailId actionRef, w =>
      ((), w.updateTrail trailId (fun row => { row with actionRef := some actionRef }) fun _ => rfl)
  | _, .setPreimage trailId preimage, w =>
      ((), w.updateTrail trailId (fun row => { row with preimageJson := some preimage }) fun _ => rfl)
  | _, .setTxHash trailId txHash now, w =>
      ((), w.updateTrail trailId (fun row =>
        { row with txHash := some txHash, anchorStatus := some .submitted, anchorSubmittedAt := some now })
        fun _ => rfl)
  | _, .confirmAnchor trailId blockNumber, w =>
      ((), w.updateTrail trailId (fun row =>
        { row with anchorStatus := some .anchored, anchorBlock := some blockNumber }) fun _ => rfl)
  | _, .failAnchor trailId reason, w =>
      ((), w.updateTrail trailId (fun row =>
        { row with anchorStatus := some .failed, anchorFailReason := some reason }) fun _ => rfl)
  | _, .submittedTrails limit, w =>
      (((w.trails.rows.filter fun row => row.txHash.isSome && row.anchorStatus = some .submitted).insertionSort
        fun first second => second.timestamp ≤ first.timestamp).take limit, w)
  | _, .insertBilling row, w => ((), { w with billing := w.billing ++ [row] })
  | _, .creditKarma agentId karmaDelta lastAction, w =>
      let wisdom := Community.upsertWisdomWith doubleSum w.wisdom agentId agentId "agent" karmaDelta true false
        lastAction
      ((), { w with wisdom })
  | _, .startThread thread, w => ((), { w with threads := w.threads ++ [thread] })
  | _, .anchorActionRef thread, w => ((), { w with anchorCalls := w.anchorCalls ++ [thread] })
  | _, .notifyAnchor notification, w =>
      ((), { w with notifications := w.notifications ++ [notification] })

/-- Python code over the tables: it ends in a value or in an exception. -/
abbrev Script := ExceptT Raised (Program Sql)

/-- One statement that cannot fail. -/
def sql {α : Type} (op : Sql α) : Script α := ExceptT.lift (.ask op)

/-- One statement under a constraint. -/
def sqlOrRaise {α : Type} (op : Sql (Except Raised α)) : Script α := ExceptT.mk (.ask op)

/-- A value that raises where it cannot be bound. -/
def bound {α : Type} (value : Except Raised α) : Script α := ExceptT.mk (.done value)

/-- The script alone, from its first statement to its end. -/
def Script.run {α : Type} (script : Script α) (w : World) : Except Raised α × World :=
  (ExceptT.run script).run exec w

/-- The tables where the process dies after the first `n` statements of the script. -/
def Script.cut {α : Type} (n : Nat) (script : Script α) (w : World) : World :=
  (ExceptT.run script).cut exec n w

/-- The answer of an endpoint that refuses a request. -/
structure Refusal where
  status : Nat
  detail : String
  deriving DecidableEq, Repr

section
variable {α β : Type} {w : World}

@[simp] theorem Script.run_pure (value : α) : Script.run (pure value) w = (.ok value, w) := rfl

@[simp] theorem Script.run_sql (op : Sql α) : Script.run (sql op) w = (.ok (exec op w).1, (exec op w).2) := rfl

@[simp] theorem Script.run_sqlOrRaise (op : Sql (Except Raised α)) : Script.run (sqlOrRaise op) w = exec op w :=
  rfl

@[simp] theorem Script.run_bound (value : Except Raised α) : Script.run (bound value) w = (value, w) := rfl

theorem Script.run_bind (script : Script α) (next : α → Script β) :
    Script.run (script >>= next) w =
      match script.run w with
      | (.ok value, after) => (next value).run after
      | (.error raised, after) => (.error raised, after) := by
  change ((ExceptT.run script >>= fun result => ExceptT.bindCont next result).run exec w) = _
  rw [Program.run_bind]
  change _ = match (ExceptT.run script).run exec w with
    | (.ok value, after) => (next value).run after
    | (.error raised, after) => (.error raised, after)
  generalize (ExceptT.run script).run exec w = ended
  obtain ⟨result, after⟩ := ended
  cases result <;> rfl

/-- Either the first part raises, or what follows runs where it ended. -/
theorem Script.run_bind_cases (script : Script α) (next : α → Script β) (w : World) :
    (Script.run (script >>= next) w).2 = (script.run w).2 ∨
      ∃ value, Script.run (script >>= next) w = (next value).run (script.run w).2 := by
  rw [run_bind]
  rcases script.run w with ⟨raised | value, after⟩
  · exact Or.inl rfl
  · exact Or.inr ⟨value, rfl⟩

/-- A statement that cannot fail, and what follows it. -/
@[simp] theorem Script.run_sql_bind (op : Sql α) (next : α → Script β) :
    Script.run (sql op >>= next) w = (next (exec op w).1).run (exec op w).2 := by
  rw [run_bind, run_sql]

end

section
variable {α β : Type} {w : World}

@[simp] theorem Script.cut_zero (script : Script α) : script.cut 0 w = w := by
  rw [cut]
  cases ExceptT.run script <;> rfl

@[simp] theorem Script.cut_pure (value : α) (n : Nat) : Script.cut n (pure value) w = w := by
  cases n <;> rfl

theorem Script.cut_sql_bind (n : Nat) (op : Sql α) (next : α → Script β) :
    Script.cut (n + 1) (sql op >>= next) w = (next (exec op w).1).cut n (exec op w).2 := rfl

/-- Binding a value is no statement. -/
theorem Script.cut_bound_bind (n : Nat) (value : Except Raised α) (next : α → Script β) :
    Script.cut n (bound value >>= next) w =
      match value with
      | .ok value => (next value).cut n w
      | .error _ => w := by
  cases value with
  | ok value => rfl
  | error raised => cases n <;> rfl

end

/-- Every statement the script may execute is allowed. -/
def Script.Uses {α : Type} (allowed : ∀ {β : Type}, Sql β → Prop) (script : Script α) : Prop :=
  (ExceptT.run script).Uses allowed

section
variable {α β : Type} {allowed : ∀ {β : Type}, Sql β → Prop} {P : World → Prop} {w : World}

theorem Script.uses_pure (value : α) : Script.Uses allowed (pure value) := trivial

theorem Script.uses_bound (value : Except Raised α) : Script.Uses allowed (bound value) := trivial

theorem Script.uses_sql {op : Sql α} (ok : allowed op) : Script.Uses allowed (sql op) :=
  ⟨ok, fun _ => trivial⟩

theorem Script.uses_sqlOrRaise {op : Sql (Except Raised α)} (ok : allowed op) :
    Script.Uses allowed (sqlOrRaise op) :=
  ⟨ok, fun _ => trivial⟩

theorem Script.Uses.bind {script : Script α} {next : α → Script β} (first : script.Uses allowed)
    (later : ∀ value, (next value).Uses allowed) : Script.Uses allowed (script >>= next) := by
  refine Program.Uses.bind first fun result => ?_
  cases result with
  | ok value => exact later value
  | error raised => trivial

theorem Script.uses_bound_bind {value : Except Raised α} {next : α → Script β}
    (later : ∀ read, value = .ok read → (next read).Uses allowed) : Script.Uses allowed (bound value >>= next) := by
  cases value with
  | ok read => exact later read rfl
  | error raised => trivial

theorem Script.Uses.run {script : Script α} (uses : script.Uses allowed)
    (keeps : ∀ {β : Type} (op : Sql β) (w : World), allowed op → P w → P (exec op w).2) (holds : P w) :
    P (script.run w).2 :=
  Program.Uses.run uses keeps holds

theorem Script.Uses.cut {script : Script α} (uses : script.Uses allowed)
    (keeps : ∀ {β : Type} (op : Sql β) (w : World), allowed op → P w → P (exec op w).2) (holds : P w) (n : Nat) :
    P (script.cut n w) :=
  Program.Uses.cut uses keeps holds n

end
end Argentum.Mycelium
