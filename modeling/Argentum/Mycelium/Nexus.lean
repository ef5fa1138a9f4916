import Argentum.Mycelium.Receipt

/-! `POST /nexus/trail`. A credit is consumed before the trail is recorded, and given
back where recording is refused. Nothing gives it back where recording raises. -/
namespace Argentum.Mycelium
open Argentum Text

/-- What a recorded receipt is answered with. -/
structure Created where
  trailId : String
  receipt : Receipt
  anchorPending : Bool

def setTrailPreimage (trailId : String) (receipt : Receipt) : Script Unit := do
  let text ← bound (fromPy (Jcs.boundlessDumps
    (preimage (ofString receipt.agentId) receipt.actionType receipt.scope receipt.timestamp)))
  sql (.setPreimage trailId text)

/-- A billing event, for an account that has a conformance source. -/
def billTrail (trailId : String) (receipt : Receipt) (now : Seconds) : Script Unit :=
  match receipt.billingApiKey with
  | none => return ()
  | some apiKey => do
      let key ← bound (bindStr apiKey)
      match ← getPaygAccount key with
      | none => return ()
      | some account =>
          if account.conformanceSource.any (· ≠ "") then sql (.insertBilling ⟨key, account.agentId, trailId, now⟩)
          else return ()

/-- What follows on the `INSERT`; the thread is told that the origin is `nexus`. -/
def afterRecord (settings : Settings) (trailId : String) (receipt : Receipt) (now : Seconds) :
    Script (Except Refusal Created) := do
  sql (.setActionRef trailId receipt.actionRef)
  setTrailPreimage trailId receipt
  billTrail trailId receipt now
  if settings.arbPayOk then sql (.startThread ⟨trailId, receipt.actionRef, receipt.agentId, "nexus"⟩)
  return .ok ⟨trailId, receipt, settings.arbPayOk⟩

/-- What follows on a refusal. -/
def afterRefusal (settings : Settings) (charged : Option Account) (receipt : Receipt) (now : Seconds) :
    Script (Except Refusal Created) := do
  match charged with
  | some account => discard (topupPayg account.apiKey 1 now)
  | none => pure ()
  let usedMonth ← countTrailsThisMonth settings receipt.agentId now
  if monthlyLimitFree ≤ usedMonth then return .error ⟨429, "monthly_limit_exceeded"⟩
  else return .error ⟨429, "rate limit exceeded"⟩

/-- Consume a credit of the agent's account with the most of them. -/
def chargeAgent (agentId : String) (now : Seconds) : Script (Option Account) := do
  match ← getPaygAccountByAgent agentId with
  | none => return none
  | some account => do
      let consumed ← consumePaygCredit account.apiKey now
      return if consumed then some account else none

def nexusTrail (settings : Settings) (trailId : String) (body : Json) (now : Seconds) :
    Script (Except Refusal Created) := do
  match ← bound (readReceipt body) with
  | .error refusal => return .error refusal
  | .ok receipt => do
      let charged ← chargeAgent receipt.agentId now
      match ← recordTrail settings trailId (receipt.trail settings charged.isSome) now with
      | some trailId => afterRecord settings trailId receipt now
      | none => afterRefusal settings charged receipt now

/-- The account that is charged. -/
def World.payer? (w : World) (agentId : String) : Option Account := (exec (.accountByAgent agentId) w).1

/-- The tables after a credit of the account is consumed. -/
def World.charged (w : World) (account : Account) (now : Seconds) : World :=
  (exec (.takeCredit account.apiKey now) w).2

section
variable {w : World} {agentId : String} {account : Account} {now : Seconds}

theorem payer?_eq_some (found : w.payer? agentId = some account) :
    w.accounts.find? account.apiKey = some account ∧ account.agentId = agentId ∧ account.payable = true := by
  have member := List.mem_of_mem_head? found
  rw [List.mem_insertionSort, List.mem_filter, Bool.and_eq_true, decide_eq_true_eq] at member
  exact ⟨Table.find?_eq_some_iff.mpr ⟨member.1, rfl⟩, member.2.1, member.2.2⟩

theorem granted (found : w.payer? agentId = some account) : (exec (.takeCredit account.apiKey now) w).1 = true := by
  obtain ⟨stored, _, payable⟩ := payer?_eq_some found
  simp [exec, stored, payable]

/-- The account that was found has a credit to consume. -/
theorem run_chargeAgent : (chargeAgent agentId now).run w =
    match w.payer? agentId with
    | none => (.ok none, w)
    | some account => (.ok (some account), w.charged account now) := by
  rw [chargeAgent, getPaygAccountByAgent, Script.run_sql_bind]
  change Script.run (match w.payer? agentId with
    | none => _
    | some account => _) w = _
  cases found : w.payer? agentId with
  | none => rfl
  | some account =>
      dsimp only
      rw [consumePaygCredit, Script.run_sql_bind, granted found]
      rfl

theorem creditOf_charged (found : w.payer? agentId = some account) (key : String) :
    (w.charged account now).creditOf key =
      (w.creditOf key).map fun credit => credit - if account.apiKey = key then 1 else 0 := by
  rw [World.charged, creditOf_takeCredit, granted found]
  simp

/-- A credit that is given back. -/
theorem creditOf_refunded (found : w.payer? agentId = some account) (key : String) :
    (exec (.addCredit account.apiKey 1 now) (w.charged account now)).2.creditOf key = w.creditOf key := by
  rw [creditOf_addCredit, creditOf_charged found, Option.map_map]
  cases w.creditOf key with
  | none => rfl
  | some credit => by_cases own : account.apiKey = key <;> simp [own]

end

/-- The last row of `trails` is the one recorded for the receipt. -/
def LastRow (rows : List TrailRow) (trailId : String) (receipt : Receipt) (w : World) : Prop :=
  ∃ row, w.trails.rows = rows ++ [row] ∧ row.trailId = trailId ∧ row.agentId = receipt.agentId ∧
    row.actionRef = some receipt.actionRef ∧ row.origin = receipt.origin ∧ row.anchorStatus = none

/-- What a request that records leaves behind: one row for the receipt, at most one
billing event for it and at most one thread. -/
structure Recorded (before after : World) (trailId : String) (receipt : Receipt) : Prop where
  frame : after = { before with trails := after.trails, billing := after.billing, threads := after.threads }
  trails : LastRow before.trails.rows trailId receipt after
  billing : after.billing = before.billing ∨
    ∃ event : BillingEvent, event.trailId = trailId ∧ after.billing = before.billing ++ [event]
  threads : after.threads = before.threads ∨
    after.threads = before.threads ++ [⟨trailId, receipt.actionRef, receipt.agentId, "nexus"⟩]

section
variable {settings : Settings} {trailId : String} {receipt : Receipt} {now : Seconds} {w : World}

theorem billTrail_cases (trailId : String) (receipt : Receipt) (now : Seconds) (w : World) :
    ((billTrail trailId receipt now).run w).2 = w ∨
    ∃ event : BillingEvent, event.trailId = trailId ∧
      ((billTrail trailId receipt now).run w).2 = { w with billing := w.billing ++ [event] } := by
  unfold billTrail
  split
  · exact Or.inl rfl
  rename_i apiKey _
  rw [Script.run_bind, Script.run_bound]
  cases bindStr apiKey with
  | error raised => exact Or.inl rfl
  | ok key =>
      dsimp only
      rw [getPaygAccount, Script.run_sql_bind]
      split
      · exact Or.inl rfl
      split
      · exact Or.inr ⟨_, rfl, rfl⟩
      · exact Or.inl rfl

theorem setTrailPreimage_cases {rows : List TrailRow} (last : LastRow rows trailId receipt w)
    (fresh : ∀ other ∈ rows, other.trailId ≠ trailId) :
    ∃ trails, ((setTrailPreimage trailId receipt).run w).2 = { w with trails } ∧
      LastRow rows trailId receipt { w with trails } := by
  rw [setTrailPreimage, Script.run_bind, Script.run_bound]
  cases fromPy (Jcs.boundlessDumps
    (preimage (ofString receipt.agentId) receipt.actionType receipt.scope receipt.timestamp)) with
  | error raised => exact ⟨w.trails, rfl, last⟩
  | ok text =>
      obtain ⟨row, rows, named, facts⟩ := last
      exact ⟨_, rfl, _, rows_updateTrail_last rows named fresh, named, facts⟩

/-- The `INSERT` and what follows on it. -/
theorem recorded_afterRecord {row : TrailRow} {trails : Table TrailRow} (inserted : w.trails.insert? row = some trails)
    (named : row.trailId = trailId) (agent : row.agentId = receipt.agentId) (origin : row.origin = receipt.origin)
    (submitted : row.anchorStatus = none) :
    Recorded w ((afterRecord settings trailId receipt now).run { w with trails }).2 trailId receipt := by
  obtain ⟨rows, absent⟩ := Table.insert?_eq_some_iff.mp inserted
  have fresh : ∀ other ∈ w.trails.rows, other.trailId ≠ trailId := by
    intro other member
    rw [← named]
    exact Table.find?_eq_none_iff.mp absent other member
  let first := (exec (.setActionRef trailId receipt.actionRef) { w with trails }).2
  have last : LastRow w.trails.rows trailId receipt first :=
    ⟨_, rows_updateTrail_last rows named fresh, named, agent, rfl, origin, submitted⟩
  obtain ⟨stored, preimage, second⟩ := setTrailPreimage_cases last fresh
  have recorded : ∀ billing threads, (billing = w.billing ∨ ∃ event : BillingEvent, event.trailId = trailId ∧
      billing = w.billing ++ [event]) → (threads = w.threads ∨
      threads = w.threads ++ [⟨trailId, receipt.actionRef, receipt.agentId, "nexus"⟩]) →
      Recorded w { first with trails := stored, billing, threads } trailId receipt :=
    fun _ _ events started => ⟨rfl, second, events, started⟩
  rw [afterRecord, Script.run_sql_bind]
  rcases Script.run_bind_cases (setTrailPreimage trailId receipt) _ first with raised | ⟨_, next⟩
  · rw [raised, preimage]
    exact recorded _ _ (Or.inl rfl) (Or.inl rfl)
  rw [next, preimage]
  have started : ∀ billing, (billing = w.billing ∨ ∃ event : BillingEvent, event.trailId = trailId ∧
      billing = w.billing ++ [event]) → Recorded w (Script.run (do
        if settings.arbPayOk then sql (.startThread ⟨trailId, receipt.actionRef, receipt.agentId, "nexus"⟩)
        return Except.ok ⟨trailId, receipt, settings.arbPayOk⟩ : Script (Except Refusal Created))
        { first with trails := stored, billing }).2 trailId receipt := by
    intro billing events
    cases settings.arbPayOk with
    | true => exact recorded _ _ events (Or.inr rfl)
    | false => exact recorded _ _ events (Or.inl rfl)
  rcases Script.run_bind_cases (billTrail trailId receipt now) _ { first with trails := stored } with raised | ⟨_, next⟩
  · rw [raised]
    rcases billTrail_cases trailId receipt now { first with trails := stored } with same | ⟨event, named, billed⟩
    · rw [same]
      exact recorded _ _ (Or.inl rfl) (Or.inl rfl)
    · rw [billed]
      exact recorded _ _ (Or.inr ⟨event, named, rfl⟩) (Or.inl rfl)
  · rw [next]
    rcases billTrail_cases trailId receipt now { first with trails := stored } with same | ⟨event, named, billed⟩
    · rw [same]
      exact started _ (Or.inl rfl)
    · rw [billed]
      exact started _ (Or.inr ⟨event, named, rfl⟩)

end

/-- The tables when the trail is recorded, after the charge. -/
def World.chargedFor (w : World) (agentId : String) (now : Seconds) : World :=
  match w.payer? agentId with
  | none => w
  | some account => w.charged account now

/-- The tables after a charge that is given back. -/
def World.refundedFor (w : World) (agentId : String) (now : Seconds) : World :=
  match w.payer? agentId with
  | none => w
  | some account => (exec (.addCredit account.apiKey 1 now) (w.charged account now)).2

/-- The trail that a receipt asks for at these tables. -/
def World.asked (w : World) (settings : Settings) (receipt : Receipt) : NewTrail :=
  receipt.trail settings (w.payer? receipt.agentId).isSome

section
variable {settings : Settings} {trailId : String} {receipt : Receipt} {now : Seconds} {w : World}

@[simp] theorem trails_chargedFor (agentId : String) : (w.chargedFor agentId now).trails = w.trails := by
  unfold World.chargedFor
  split <;> rfl

/-- The payer is charged, if there is one. -/
theorem chargeAgent_eq (agentId : String) (now : Seconds) (w : World) :
    (chargeAgent agentId now).run w = (.ok (w.payer? agentId), w.chargedFor agentId now) := by
  rw [run_chargeAgent, World.chargedFor]
  cases w.payer? agentId <;> rfl

theorem run_afterRefusal (charged : Option Account) : ((afterRefusal settings charged receipt now).run w).2 =
    match charged with
    | none => w
    | some account => (exec (.addCredit account.apiKey 1 now) w).2 := by
  cases charged with
  | none =>
      change (Script.run (countTrailsThisMonth settings receipt.agentId now >>= _) w).2 = w
      rw [countTrailsThisMonth, Script.run_sql_bind]
      split <;> rfl
  | some account =>
      change (Script.run (discard (topupPayg account.apiKey 1 now) >>= _) w).2 = _
      rw [Script.run_bind]
      change (Script.run (countTrailsThisMonth settings receipt.agentId now >>= _) _).2 = _
      rw [countTrailsThisMonth, Script.run_sql_bind]
      split <;> rfl

/-- What a request does: nothing, where it is no receipt; the charge is given back,
where recording is refused; the charge stands alone, where recording raises; and a
trail is recorded. -/
theorem nexusTrail_cases (settings : Settings) (trailId : String) (body : Json) (now : Seconds) (w : World) :
    ((∀ receipt, readReceipt body ≠ .ok (.ok receipt)) ∧ ((nexusTrail settings trailId body now).run w).2 = w) ∨
    ∃ receipt, readReceipt body = .ok (.ok receipt) ∧
      ((settings.refuses (w.asked settings receipt) now w = true ∧
        ((nexusTrail settings trailId body now).run w).2 = w.refundedFor receipt.agentId now) ∨
      (settings.refuses (w.asked settings receipt) now w = false ∧
        (w.asked settings receipt).fits trailId now w = false ∧
        ((nexusTrail settings trailId body now).run w).2 = w.chargedFor receipt.agentId now) ∨
      (settings.refuses (w.asked settings receipt) now w = false ∧
        (w.asked settings receipt).fits trailId now w = true ∧
        Recorded (w.chargedFor receipt.agentId now) ((nexusTrail settings trailId body now).run w).2 trailId
          receipt)) := by
  rw [nexusTrail, Script.run_bind, Script.run_bound]
  rcases readReceipt body with raised | refusal | receipt
  · exact Or.inl ⟨fun _ => by simp, rfl⟩
  · exact Or.inl ⟨fun _ => by simp, rfl⟩
  refine Or.inr ⟨receipt, rfl, ?_⟩
  dsimp only
  rw [Script.run_bind, chargeAgent_eq]
  dsimp only
  rw [Script.run_bind, run_recordTrail, refuses_congr (trails_chargedFor receipt.agentId), trails_chargedFor,
    ← World.asked]
  cases refused : settings.refuses (w.asked settings receipt) now w with
  | true =>
      refine Or.inl ⟨rfl, ?_⟩
      rw [if_pos rfl]
      dsimp only
      rw [run_afterRefusal, World.refundedFor, World.chargedFor]
      cases w.payer? receipt.agentId <;> rfl
  | false =>
      rw [if_neg Bool.false_ne_true]
      unfold NewTrail.fits
      cases made : (w.asked settings receipt).row trailId now with
      | error raised => exact Or.inr (Or.inl ⟨rfl, rfl, rfl⟩)
      | ok row =>
          dsimp only
          cases inserted : w.trails.insert? row with
          | none => exact Or.inr (Or.inl ⟨rfl, rfl, rfl⟩)
          | some trails =>
              obtain ⟨named, agent, origin, submitted, _⟩ := row_stored made
              have stored : (w.chargedFor receipt.agentId now).trails.insert? row = some trails := by
                rw [trails_chargedFor, inserted]
              exact Or.inr (Or.inr ⟨rfl, rfl, recorded_afterRecord stored named agent origin submitted⟩)

end
/-- At most one credit was consumed, from an account of the agent. -/
def ChargedOnce (before after : World) (agentId : String) : Prop :=
  (∀ key, after.creditOf key = before.creditOf key) ∨
    ∃ account ∈ before.accounts.rows, account.agentId = agentId ∧ ∀ key, after.creditOf key =
      (before.creditOf key).map fun credit => credit - if account.apiKey = key then 1 else 0

/-- One trail is recorded, and its agent is charged a credit at most, or nothing is
recorded and nobody is charged. -/
def ChargesIffRecords (settings : Settings) (trailId : String) (body : Json) (now : Seconds) (w : World) : Prop :=
  let after := ((nexusTrail settings trailId body now).run w).2
  (∃ row, after.trails.rows = w.trails.rows ++ [row] ∧ ChargedOnce w after row.agentId) ∨
    (after.trails.rows = w.trails.rows ∧ ∀ key, after.creditOf key = w.creditOf key)

section
variable {agentId : String} {now : Seconds} {w : World}

theorem chargedOnce_chargedFor (agentId : String) (now : Seconds) (w : World) :
    ChargedOnce w (w.chargedFor agentId now) agentId := by
  unfold World.chargedFor
  cases found : w.payer? agentId with
  | none => exact Or.inl fun _ => rfl
  | some account =>
      obtain ⟨stored, agent, _⟩ := payer?_eq_some found
      exact Or.inr ⟨account, Table.find?_mem stored, agent, creditOf_charged found⟩

theorem creditOf_refundedFor (key : String) : (w.refundedFor agentId now).creditOf key = w.creditOf key := by
  unfold World.refundedFor
  cases found : w.payer? agentId with
  | none => rfl
  | some account => exact creditOf_refunded found key

@[simp] theorem trails_refundedFor : (w.refundedFor agentId now).trails = w.trails := by
  unfold World.refundedFor
  split <;> rfl

/-- The charge of an account with credit shows. -/
theorem creditOf_chargedFor_ne (now : Seconds) (found : (w.payer? agentId).isSome) :
    ∃ key, (w.chargedFor agentId now).creditOf key ≠ w.creditOf key := by
  obtain ⟨account, found⟩ := Option.isSome_iff_exists.mp found
  obtain ⟨stored, _, _⟩ := payer?_eq_some found
  refine ⟨account.apiKey, ?_⟩
  rw [World.chargedFor, found]
  dsimp only
  rw [creditOf_charged found, World.creditOf, stored]
  simp

end

/-- A request charges iff it records, unless the agent's credit was consumed, recording
was not refused, and the row could not be stored. -/
theorem chargesIffRecords_iff {settings : Settings} {trailId : String} {body : Json} {now : Seconds} {w : World} :
    ChargesIffRecords settings trailId body now w ↔
      ∀ receipt, readReceipt body = .ok (.ok receipt) → (w.payer? receipt.agentId).isSome →
        settings.refuses (w.asked settings receipt) now w = false →
          (w.asked settings receipt).fits trailId now w = true := by
  unfold ChargesIffRecords
  dsimp only
  rcases nexusTrail_cases settings trailId body now w with
    ⟨none, same⟩ | ⟨receipt, read, ⟨refused, refunded⟩ | ⟨admitted, unfit, charged⟩ | ⟨admitted, fit, recorded⟩⟩
  · rw [same]
    exact ⟨fun _ receipt read => absurd read (none receipt), fun _ => Or.inr ⟨rfl, fun _ => rfl⟩⟩
  · rw [refunded]
    constructor
    · intro _ other same _ admits
      rw [read] at same
      cases same
      rw [refused] at admits
      cases admits
    · intro _
      exact Or.inr ⟨by rw [trails_refundedFor], creditOf_refundedFor⟩
  · rw [charged, trails_chargedFor]
    constructor
    · rintro (⟨row, longer, _⟩ | ⟨_, unchanged⟩)
      · exact absurd (congrArg List.length longer) (by simp)
      · intro other same found _
        rw [read] at same
        cases same
        obtain ⟨key, differs⟩ := creditOf_chargedFor_ne now found
        exact absurd (unchanged key) differs
    · intro stored
      refine Or.inr ⟨rfl, fun key => ?_⟩
      cases found : w.payer? receipt.agentId with
      | none => rw [World.chargedFor, found]
      | some account =>
          have fit := stored receipt read (by rw [found, Option.isSome_some]) admitted
          rw [unfit] at fit
          cases fit
  · constructor
    · intro _ other same _ _
      rw [read] at same
      cases same
      exact fit
    · intro _
      obtain ⟨row, rows, _, agent, _⟩ := recorded.trails
      refine Or.inl ⟨row, by rw [rows, trails_chargedFor], ?_⟩
      rw [agent]
      have accounts : ∀ key, ((nexusTrail settings trailId body now).run w).2.creditOf key =
          (w.chargedFor receipt.agentId now).creditOf key := by
        intro key
        rw [recorded.frame]
        rfl
      rcases chargedOnce_chargedFor receipt.agentId now w with
        same | ⟨account, stored, owner, charged⟩
      · exact Or.inl fun key => (accounts key).trans (same key)
      · exact Or.inr ⟨account, stored, owner, fun key => (accounts key).trans (charged key)⟩

/-- A deployment that anchors and notifies. -/
def deployed : Settings := ⟨100, [], fun _ => 0, true, true⟩

/-- A receipt of the agent, with a payment hash and an origin of any type. -/
def receiptOf (paymentHash origin : Json) : Json :=
  let ref := actionRefOf (ofString "agent") (ofString "pay") (ofString "all") (ofString "1782900000000")
  .dict [(ofString "action_ref", .str (ref.toOption.getD [])), (ofString "service", .str (ofString "nexus")),
    (ofString "payment_hash", paymentHash), (ofString "origin", origin),
    (ofString "preimage", .dict [(ofString "agent_id", .str (ofString "agent")),
      (ofString "action_type", .str (ofString "pay")), (ofString "scope", .str (ofString "all")),
      (ofString "timestamp", .str (ofString "1782900000000"))])]

/-- A payment hash that is a list cannot be bound: the credit is gone, and no trail is there. -/
theorem not_chargesIffRecords_listed :
    ¬ ChargesIffRecords deployed "trail" (receiptOf (.list [.int 1]) .null) 100 oneCredit := by
  have ended : ((nexusTrail deployed "trail" (receiptOf (.list [.int 1]) .null) 100).run
      oneCredit).2.trails.rows.length = 0 ∧ ((nexusTrail deployed "trail" (receiptOf (.list [.int 1]) .null) 100).run
      oneCredit).2.creditOf "key" ≠ oneCredit.creditOf "key" := by
    decide +kernel
  rintro (⟨row, rows, _⟩ | ⟨_, unchanged⟩)
  · rw [rows, List.length_append] at ended
    cases ended.1
  · exact ended.2 (unchanged "key")

end Argentum.Mycelium
