import Argentum.Core.Transition
import Argentum.Mycelium.Usage
import Mathlib.Algebra.BigOperators.Group.List.Lemmas

/-! What is billed. `billing_events` has a key of its own and no constraint on the trail, so
that `INSERT OR IGNORE` ignores nothing: every call whose text can be bound adds a row, and a
trail is charged as often as it is recorded. -/
namespace Argentum.Mycelium
open Argentum Text Transition

/-- One call of `record_billing_event`, with the clock it reads. -/
structure BillingCall where
  apiKey : Str
  agentId : Str
  trailId : Str
  now : Seconds

def recordBillingEvent (call : BillingCall) : Script Unit := do
  let apiKey ← bound (bindStr call.apiKey)
  let agentId ← bound (bindStr call.agentId)
  let trailId ← bound (bindStr call.trailId)
  sql (.insertBilling ⟨apiKey, agentId, trailId, call.now⟩)

/-- The column `month_key` of a row. -/
def BillingEvent.monthKey (event : BillingEvent) : Str := yearMonth event.billedAt

def trailUnitPriceUsd : ℚ := nearestDouble (3 / 1000)

/-- A line of the summary. `sum` is `SUM` of SQLite over the amounts. -/
structure BillingLine where
  apiKey : String
  agentId : String
  trailCount : Nat
  totalUsd : ℚ

/-- The line of a key. The agent is that of one of its rows. -/
def billingLine (sum : List ℚ → ℚ) (rows : List BillingEvent) (apiKey : String) : BillingLine :=
  let group := rows.filter fun row => row.apiKey = apiKey
  ⟨apiKey, (group.head?.map BillingEvent.agentId).getD "", group.length, sum (group.map fun _ => trailUnitPriceUsd)⟩

/-- `get_billing_summary`, grouped by `api_key`. -/
def getBillingSummary (sum : List ℚ → ℚ) (events : List BillingEvent) (monthKey : Str) : List BillingLine :=
  let rows := events.filter fun event => event.monthKey = monthKey
  ((rows.map BillingEvent.apiKey).dedup.map (billingLine sum rows)).insertionSort
    fun first second => second.totalUsd ≤ first.totalUsd

/-- What `GET /billing/summary` counts for a client. -/
def billingSummary (events : List BillingEvent) (client : String) (month : Str) : Nat :=
  events.countP fun event => event.agentId = client && event.monthKey = month

/-- The rows of a trail. -/
def charges (events : List BillingEvent) (trailId : String) : Nat :=
  events.countP fun event => event.trailId = trailId

/-- The trails that the summaries of all months charge for. -/
def chargedOverall (sum : List ℚ → ℚ) (events : List BillingEvent) : Nat :=
  ((events.map BillingEvent.monthKey).dedup.map fun month =>
    ((getBillingSummary sum events month).map BillingLine.trailCount).sum).sum

/-- The trails that the summaries of all clients and months count. -/
def summarisedOverall (events : List BillingEvent) : Nat :=
  ((events.map fun event => (event.agentId, event.monthKey)).dedup.map fun key =>
    billingSummary events key.1 key.2).sum

/-- No trail has two rows, and both summaries charge for every trail once over all months. -/
structure BilledOnce (sum : List ℚ → ℚ) (events : List BillingEvent) : Prop where
  once : ∀ trailId, charges events trailId ≤ 1
  charged : chargedOverall sum events = (events.map BillingEvent.trailId).dedup.length
  summarised : summarisedOverall events = (events.map BillingEvent.trailId).dedup.length

/-- The tables after a call. -/
def afterBilling (w : World) (call : BillingCall) : World := ((recordBillingEvent call).run w).2

/-- The trail a call bills; text that cannot be bound raises before the statement. -/
def BillingCall.billed (call : BillingCall) : Option BillingEvent :=
  match bindStr call.apiKey, bindStr call.agentId, bindStr call.trailId with
  | .ok apiKey, .ok agentId, .ok trailId => some ⟨apiKey, agentId, trailId, call.now⟩
  | _, _, _ => none

section
variable {w : World} {calls : List BillingCall} {events : List BillingEvent} {sum : List ℚ → ℚ}

theorem billing_afterBilling (call : BillingCall) :
    (afterBilling w call).billing = w.billing ++ call.billed.toList := by
  rw [afterBilling, recordBillingEvent, Script.run_bind, Script.run_bound, BillingCall.billed]
  cases bindStr call.apiKey with
  | error raised => simp
  | ok apiKey =>
      dsimp only
      rw [Script.run_bind, Script.run_bound]
      cases bindStr call.agentId with
      | error raised => simp
      | ok agentId =>
          dsimp only
          rw [Script.run_bind, Script.run_bound]
          cases bindStr call.trailId with
          | error raised => simp
          | ok trailId => simp [exec]

/-- Every call adds its row, whatever is there. -/
theorem billing_run : (run afterBilling w calls).billing = w.billing ++ calls.filterMap BillingCall.billed := by
  induction calls generalizing w with
  | nil => simp
  | cons call rest ih =>
      rw [run_cons, ih, billing_afterBilling, List.append_assoc]
      cases billed : call.billed <;> simp [billed]

theorem charges_le_one_iff : (∀ trailId, charges events trailId ≤ 1) ↔ (events.map BillingEvent.trailId).Nodup := by
  rw [List.nodup_iff_count_le_one]
  refine forall_congr' fun trailId => ?_
  rw [charges, List.count_eq_countP, List.countP_map]
  exact Iff.of_eq (congrArg (· ≤ 1) (List.countP_congr fun event _ => by simp))

/-- Counting the rows of every key there is counts every row. -/
theorem sum_countP_dedup {α κ : Type*} [DecidableEq κ] (key : α → κ) (xs : List α) :
    ((xs.map key).dedup.map fun k => xs.countP fun x => key x = k).sum = xs.length := by
  rw [← List.length_map key, ← List.sum_map_count_dedup_eq_length]
  refine congrArg List.sum (List.map_congr_left fun k _ => ?_)
  rw [List.count_eq_countP, List.countP_map]
  exact List.countP_congr fun x _ => by simp

/-- The lines of a month cover its rows. -/
theorem sum_getBillingSummary (month : Str) :
    ((getBillingSummary sum events month).map BillingLine.trailCount).sum =
      events.countP fun event => event.monthKey = month := by
  have line : ∀ rows : List BillingEvent, BillingLine.trailCount ∘ billingLine sum rows =
      fun apiKey => rows.countP fun row => row.apiKey = apiKey := by
    intro rows
    funext apiKey
    exact List.countP_eq_length_filter.symm
  rw [getBillingSummary, ((List.perm_insertionSort _ _).map BillingLine.trailCount).sum_eq, List.map_map, line,
    sum_countP_dedup, ← List.countP_eq_length_filter]

theorem chargedOverall_eq : chargedOverall sum events = events.length := by
  rw [chargedOverall, ← sum_countP_dedup BillingEvent.monthKey events]
  exact congrArg List.sum (List.map_congr_left fun month _ => sum_getBillingSummary month)

theorem summarisedOverall_eq : summarisedOverall events = events.length := by
  rw [summarisedOverall, ← sum_countP_dedup (fun event : BillingEvent => (event.agentId, event.monthKey)) events]
  refine congrArg List.sum (List.map_congr_left fun key _ => ?_)
  exact List.countP_congr fun event _ => by simp [Prod.ext_iff]

theorem billedOnce_iff_nodup : BilledOnce sum events ↔ (events.map BillingEvent.trailId).Nodup := by
  constructor
  · intro billed
    exact charges_le_one_iff.mp billed.once
  · intro distinct
    have length : events.length = (events.map BillingEvent.trailId).dedup.length := by
      rw [List.dedup_eq_self.mpr distinct, List.length_map]
    exact ⟨charges_le_one_iff.mpr distinct, chargedOverall_eq.trans length, summarisedOverall_eq.trans length⟩

end

/-- Trails are billed once iff no two of the calls whose text can be bound name one trail,
and none a trail that has a row. -/
theorem billedOnce_iff (sum : List ℚ → ℚ) (w : World) (calls : List BillingCall) :
    BilledOnce sum (run afterBilling w calls).billing ↔
      (w.billing.map BillingEvent.trailId ++
        (calls.filterMap BillingCall.billed).map BillingEvent.trailId).Nodup := by
  rw [billedOnce_iff_nodup, billing_run, List.map_append]

/-- The same trail, in December and in January. -/
def billedTwice : List BillingCall :=
  [newYear - 1, newYear].map fun now => ⟨ofString "payg_1", ofString "scout", ofString "trail-1", now⟩

theorem not_billedOnce_twice : ¬ BilledOnce List.sum (run afterBilling World.empty billedTwice).billing := by
  intro billed
  have once := billed.once "trail-1"
  have twice : charges (run afterBilling World.empty billedTwice).billing "trail-1" = 2 := by decide
  omega

end Argentum.Mycelium
