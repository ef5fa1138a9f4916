import Argentum.Mycelium.Nexus
import Argentum.Mycelium.External

/-! `POST /payg/webhook/lightning`. The credit is added and the payment is marked by
statements of their own, and the mark is a row of the nonces that `POST
/external/trail` writes too. A payment is credited once where no process dies between
the credit and the mark, and no other request takes the mark. -/
namespace Argentum.Mycelium
open Argentum Text Transition

/-- The fields of a signed notification that are read; a text that is absent is empty. -/
structure Delivery where
  type : Str
  externalId : Str
  paymentHash : Str

structure Topup where
  apiKey : Str
  trails : Int

/-- `payg:{api_key}:{trails}` of a payment that was received. -/
def readDelivery (int : Str → Option Int) (delivery : Delivery) : Except Raised (Option Topup) :=
  if delivery.type ≠ ofString "payment_received" then .ok none
  else if !(ofString "payg:").isPrefixOf delivery.externalId then .ok none
  else
    match delivery.externalId.splitOn (ofChar ':') with
    | [_, apiKey, trails] =>
        match int trails with
        | some trails => .ok (some ⟨apiKey, trails⟩)
        | none => .error (.python .valueError)
    | _ => .ok none

inductive WebhookAnswer where
  | ignored
  | alreadyProcessed (apiKey : String) (balance : Option Int)
  | ok (apiKey : String) (creditedTrails balance : Int)

/-- `payment_hash and has_external_nonce(TRAILS_DB, payment_hash)` -/
def isProcessed (paymentHash : Str) : Script Bool :=
  if paymentHash = [] then return false
  else do
    let ref ← bound (bindStr paymentHash)
    sql (.hasNonce ref)

def markProcessed (paymentHash : Str) (apiKey : String) (now : Seconds) : Script Unit :=
  if paymentHash = [] then return ()
  else do
    let ref ← bound (bindStr paymentHash)
    sql (.insertNonce ⟨ref, apiKey, now⟩)

def paygWebhookLightning (int : Str → Option Int) (delivery : Delivery) (now : Seconds) :
    Script (Except Refusal WebhookAnswer) := do
  match ← bound (readDelivery int delivery) with
  | none => return .ok .ignored
  | some topup => do
      let processed ← isProcessed delivery.paymentHash
      let apiKey ← bound (bindStr topup.apiKey)
      if processed then do
        let account ← getPaygAccount apiKey
        return .ok (.alreadyProcessed apiKey (account.map Account.creditTrails))
      else do
        match ← topupPayg apiKey topup.trails now with
        | none => return .error ⟨404, "api_key not found"⟩
        | some account => do
            markProcessed delivery.paymentHash apiKey now
            return .ok (.ok apiKey topup.trails account.creditTrails)

/-- A deployment and the node behind it, which says the same of a payment at each delivery. -/
structure Gateway where
  int : Str → Option Int
  lower : String → String
  settings : Settings
  externalId : Str → Str

def Gateway.delivery (g : Gateway) (paymentHash : Str) : Delivery :=
  ⟨ofString "payment_received", g.externalId paymentHash, paymentHash⟩

/-- A payment, with the reference it is marked by. -/
structure Payment where
  ref : String
  apiKey : String
  trails : Int
  deriving DecidableEq

/-- What the deliveries of a payment hash announce. -/
def Gateway.payment? (g : Gateway) (paymentHash : Str) : Option Payment :=
  if paymentHash = [] then none
  else
    match readDelivery g.int (g.delivery paymentHash), bindStr paymentHash with
    | .ok (some topup), .ok ref =>
        match bindStr topup.apiKey with
        | .ok apiKey => some ⟨ref, apiKey, topup.trails⟩
        | .error _ => none
    | _, _ => none

inductive PublicRequest where
  | lightning (paymentHash : Str) (now : Seconds)
  | external (call : ExternalCall)
  | nexus (trailId : String) (body : Json) (now : Seconds)

/-- The answer is 2xx. -/
def answered {α : Type} : Except Raised (Except Refusal α) → Bool
  | .ok (.ok _) => true
  | _ => false

/-- Whether the request is answered 2xx, and the tables it leaves. -/
def PublicRequest.serve (g : Gateway) : PublicRequest → World → Bool × World
  | .lightning paymentHash now, w =>
      let ended := (paygWebhookLightning g.int (g.delivery paymentHash) now).run w
      (answered ended.1, ended.2)
  | .external call, w =>
      let ended := (externalTrail g.lower g.settings call).run w
      (answered ended.1, ended.2)
  | .nexus trailId body now, w =>
      let ended := (nexusTrail g.settings trailId body now).run w
      (answered ended.1, ended.2)

/-- The tables where the process dies within the request. -/
def PublicRequest.cut (g : Gateway) (statements : Nat) : PublicRequest → World → World
  | .lightning paymentHash now, w => (paygWebhookLightning g.int (g.delivery paymentHash) now).cut statements w
  | .external call, w => (externalTrail g.lower g.settings call).cut statements w
  | .nexus trailId body now, w => (nexusTrail g.settings trailId body now).cut statements w

inductive GatewayStep where
  | serve (request : PublicRequest)
  | crash (request : PublicRequest) (statements : Nat)

def GatewayStep.request : GatewayStep → PublicRequest
  | .serve request => request
  | .crash request _ => request

/-- The tables, and the payment hashes of the deliveries that were answered 200. -/
structure GatewayState where
  world : World
  acknowledged : List Str

def Gateway.step (g : Gateway) (s : GatewayState) : GatewayStep → GatewayState
  | .serve request =>
      let ended := request.serve g s.world
      { world := ended.2
        acknowledged :=
          match request, ended.1 with
          | .lightning paymentHash _, true => s.acknowledged ++ [paymentHash]
          | _, _ => s.acknowledged }
  | .crash request statements => { s with world := request.cut g statements s.world }

/-- What a delivery of the payment adds to the credit of an account. -/
def Gateway.added (g : Gateway) (paymentHash : Str) (apiKey : String) (s : GatewayState) (step : GatewayStep) : Int :=
  match step.request with
  | .lightning delivered _ =>
      if delivered = paymentHash then
        ((g.step s step).world.creditOf apiKey).getD 0 - (s.world.creditOf apiKey).getD 0
      else 0
  | _ => 0

/-- Of each payment for an account that exists, once a delivery of it was answered 200,
its deliveries added its trails once. -/
def CreditedOnce (g : Gateway) (start : World) (steps : List GatewayStep) : Prop :=
  ∀ paymentHash payment, g.payment? paymentHash = some payment →
    (start.accounts.find? payment.apiKey).isSome → start.nonces.find? payment.ref = none →
    paymentHash ∈ (run g.step ⟨start, []⟩ steps).acknowledged →
      total g.step (g.added paymentHash payment.apiKey) ⟨start, []⟩ steps = payment.trails

/-- An external request spends, as its action reference, the mark of a payment that
was not credited yet. -/
def Gateway.TakesMark (g : Gateway) (w : World) (call : ExternalCall) : Prop :=
  ∃ paymentHash payment request account, g.payment? paymentHash = some payment ∧
    (w.accounts.find? payment.apiKey).isSome ∧ admittedExternal call.body w = some (request, account) ∧
    request.actionRef = payment.ref

/-- No process dies between the credit of a payment and its mark, and no external
request takes the mark. -/
def Gateway.MarksWithCredit (g : Gateway) (s : GatewayState) : GatewayStep → Prop
  | .serve (.external call) => ¬ g.TakesMark s.world call
  | .crash (.external call) statements => 2 < statements → ¬ g.TakesMark s.world call
  | .crash (.lightning paymentHash _) statements => ∀ payment, g.payment? paymentHash = some payment →
      (s.world.accounts.find? payment.apiKey).isSome → s.world.nonces.find? payment.ref = none →
      statements ≠ 2 ∧ statements ≠ 3
  | _ => True

/-- The statement leaves the mark of a payment as it is, and the keys of the accounts. -/
def LeavesMark (ref : String) (marked : Bool) {β : Type} : Sql β → Prop
  | .insertNonce row => marked = true ∨ row.actionRef ≠ ref
  | .rekey .. => False
  | _ => True

/-- Whether the payment is marked, and that its account exists. -/
def World.Stands (ref : String) (marked : Bool) (apiKey : String) (w : World) : Prop :=
  (w.nonces.find? ref).isSome = marked ∧ (w.accounts.find? apiKey).isSome

section
variable {ref apiKey : String} {marked : Bool} {w : World}

theorem stands_exec {β : Type} (op : Sql β) (w : World) (leaves : LeavesMark ref marked op)
    (stands : w.Stands ref marked apiKey) : (exec op w).2.Stands ref marked apiKey := by
  obtain ⟨mark, account⟩ := stands
  cases op with
  | addCredit key trails now => exact ⟨mark, by simpa [exec, World.updateAccounts, Table.find?_update] using account⟩
  | takeCredit key now => exact ⟨mark, by simpa [exec, World.updateAccounts, Table.find?_update] using account⟩
  | rekey => cases leaves
  | insertNonce row =>
      refine ⟨?_, account⟩
      simp only [exec]
      rcases Option.eq_none_or_eq_some (w.nonces.insert? row) with taken | ⟨next, inserted⟩
      · rw [taken, Option.getD_none, mark]
      · rw [inserted, Option.getD_some, Table.find?_insert inserted]
        split
        · rename_i same
          rcases leaves with rfl | other
          · rfl
          · exact absurd same other
        · exact mark
  | insertIntent row =>
      refine ⟨?_, ?_⟩ <;> simp only [exec] <;> cases w.intents.insert? row <;> assumption
  | insertTrail row =>
      refine ⟨?_, ?_⟩ <;> simp only [exec] <;> cases w.trails.insert? row <;> assumption
  | _ => exact ⟨mark, account⟩

end

section
variable {ref : String} {marked : Bool} {settings : Settings} {now : Seconds}

theorem uses_recordTrail (trailId : String) (trail : NewTrail) :
    Script.Uses (LeavesMark ref marked) (recordTrail settings trailId trail now) :=
  uses_recordTrailAt (fun _ => trivial) (fun _ => trivial) fun _ _ _ => trivial

theorem uses_afterRecord (trailId : String) (receipt : Receipt) :
    Script.Uses (LeavesMark ref marked) (afterRecord settings trailId receipt now) := by
  apply Script.Uses.bind (Script.uses_sql trivial)
  intro _
  refine Script.Uses.bind ?_ fun _ => Script.Uses.bind ?_ fun _ => ?_
  · exact Script.Uses.bind (Script.uses_bound _) fun _ => Script.uses_sql trivial
  · unfold billTrail
    split
    · exact Script.uses_pure _
    · apply Script.Uses.bind (Script.uses_bound _)
      intro key
      apply Script.Uses.bind (Script.uses_sql trivial)
      intro found
      split
      · exact Script.uses_pure _
      split
      · exact Script.uses_sql trivial
      · exact Script.uses_pure _
  · split
    · exact Script.Uses.bind (Script.uses_sql trivial) fun _ => Script.uses_pure _
    · exact Script.uses_pure _

theorem uses_afterRefusal (charged : Option Account) (receipt : Receipt) :
    Script.Uses (LeavesMark ref marked) (afterRefusal settings charged receipt now) := by
  have counted : Script.Uses (LeavesMark ref marked) (do
      let usedMonth ← countTrailsThisMonth settings receipt.agentId now
      if monthlyLimitFree ≤ usedMonth then return .error ⟨429, "monthly_limit_exceeded"⟩
      else return .error ⟨429, "rate limit exceeded"⟩ : Script (Except Refusal Created)) := by
    apply Script.Uses.bind (Script.uses_sql trivial)
    intro usedMonth
    split <;> exact Script.uses_pure _
  cases charged with
  | none => exact counted
  | some account =>
      refine Script.Uses.bind ?_ fun _ => counted
      exact ⟨trivial, fun _ => ⟨trivial, fun _ => trivial⟩⟩

/-- `POST /nexus/trail` writes no nonce. -/
theorem uses_nexusTrail (trailId : String) (body : Json) :
    Script.Uses (LeavesMark ref marked) (nexusTrail settings trailId body now) := by
  apply Script.Uses.bind (Script.uses_bound _)
  rintro (refusal | receipt)
  · exact Script.uses_pure _
  refine Script.Uses.bind ?_ fun charged => ?_
  · apply Script.Uses.bind (Script.uses_sql trivial)
    rintro (_ | account)
    · exact Script.uses_pure _
    · exact Script.Uses.bind (Script.uses_sql trivial) fun _ => Script.uses_pure _
  · apply Script.Uses.bind (uses_recordTrail trailId _)
    rintro (_ | recorded)
    · exact uses_afterRefusal charged receipt
    · exact uses_afterRecord recorded receipt

/-- `POST /external/trail` writes its own action reference. -/
theorem uses_externalTrail {lower : String → String} {call : ExternalCall}
    (apart : ∀ request, readExternal call.body = .ok (.ok request) → marked = true ∨ request.actionRef ≠ ref) :
    Script.Uses (LeavesMark ref marked) (externalTrail lower settings call) := by
  apply Script.uses_bound_bind
  rintro (refusal | request) read
  · exact Script.uses_pure _
  apply Script.Uses.bind (Script.uses_bound _)
  intro key
  apply Script.Uses.bind (Script.uses_sql trivial)
  rintro (_ | account)
  · exact Script.uses_pure _
  apply Script.Uses.bind (Script.uses_sql trivial)
  rintro (_ | _)
  · apply Script.Uses.bind (Script.uses_sql (apart request read))
    intro _
    apply Script.Uses.bind (uses_recordTrail call.trailId _)
    intro recorded
    cases recorded with
    | none => exact Script.Uses.bind (Script.uses_sql trivial) fun _ => Script.uses_pure _
    | some trailId =>
        apply Script.Uses.bind (Script.uses_sql trivial)
        intro _
        exact Script.Uses.bind (Script.uses_sql trivial) fun _ => Script.uses_pure _
  · exact Script.uses_pure _

/-- A delivery marks the payment hash it carries. -/
theorem uses_paygWebhookLightning {int : Str → Option Int} {delivery : Delivery}
    (apart : ∀ other, bindStr delivery.paymentHash = .ok other → marked = true ∨ other ≠ ref) :
    Script.Uses (LeavesMark ref marked) (paygWebhookLightning int delivery now) := by
  apply Script.Uses.bind (Script.uses_bound _)
  rintro (_ | topup)
  · exact Script.uses_pure _
  refine Script.Uses.bind ?_ fun processed => ?_
  · unfold isProcessed
    split
    · exact Script.uses_pure _
    · exact Script.Uses.bind (Script.uses_bound _) fun _ => Script.uses_sql trivial
  apply Script.Uses.bind (Script.uses_bound _)
  intro apiKey
  split
  · exact Script.Uses.bind (Script.uses_sql trivial) fun _ => Script.uses_pure _
  · refine Script.Uses.bind ?_ fun found => ?_
    · exact Script.Uses.bind (Script.uses_bound _) fun _ =>
        Script.Uses.bind (Script.uses_sql trivial) fun _ => Script.uses_sql trivial
    cases found with
    | none => exact Script.uses_pure _
    | some account =>
        refine Script.Uses.bind ?_ fun _ => Script.uses_pure _
        unfold markProcessed
        split
        · exact Script.uses_pure _
        · exact Script.uses_bound_bind fun other bound => Script.uses_sql (apart other bound)

end

section
variable {g : Gateway} {paymentHash : Str} {payment : Payment} {now : Seconds} {w : World}

/-- An external request that is refused, or dies before its first write, leaves the tables alone. -/
theorem cut_externalTrail {lower : String → String} {settings : Settings} {call : ExternalCall} {statements : Nat}
    (unwritten : admittedExternal call.body w = none ∨ statements ≤ 2) :
    (externalTrail lower settings call).cut statements w = w := by
  revert unwritten
  rw [admittedExternal, externalTrail, Script.cut_bound_bind]
  rcases readExternal call.body with raised | refusal | request
  · exact fun _ => rfl
  · exact fun _ => Script.cut_pure _ _
  dsimp only
  rw [Script.cut_bound_bind]
  cases bindStr request.apiKey with
  | error raised => exact fun _ => rfl
  | ok key =>
      dsimp only
      cases statements with
      | zero => exact fun _ => Script.cut_zero _
      | succ statements =>
          rw [getPaygAccount, Script.cut_sql_bind]
          have read : (exec (.account key) w).1 = w.accounts.find? key := rfl
          rw [read]
          cases w.accounts.find? key with
          | none => exact fun _ => Script.cut_pure _ _
          | some account =>
              cases statements with
              | zero => exact fun _ => Script.cut_zero _
              | succ statements =>
                  rw [Option.bind_some]
                  dsimp only
                  intro unwritten
                  rw [Script.cut_sql_bind]
                  change Script.cut statements (if (w.nonces.find? request.actionRef).isSome = true then _ else _) w = w
                  cases used : (w.nonces.find? request.actionRef).isSome with
                  | true => exact Script.cut_pure _ _
                  | false =>
                      rw [used] at unwritten
                      have none : statements = 0 := by simpa using unwritten
                      rw [none]
                      exact Script.cut_zero _

/-- The statements of a delivery of a payment. -/
def delivering (payment : Payment) (now : Seconds) : Program Sql (Except Raised (Except Refusal WebhookAnswer)) :=
  .perform (.hasNonce payment.ref) fun processed =>
    if processed then
      .perform (.account payment.apiKey) fun account =>
        .done (.ok (.ok (.alreadyProcessed payment.apiKey (account.map Account.creditTrails))))
    else
      match bindInt payment.trails with
      | .error raised => .done (.error raised)
      | .ok trails =>
          .perform (.addCredit payment.apiKey trails now) fun _ =>
            .perform (.account payment.apiKey) fun found =>
              match found with
              | none => .done (.ok (.error ⟨404, "api_key not found"⟩))
              | some account =>
                  .perform (.insertNonce ⟨payment.ref, payment.apiKey, now⟩) fun _ =>
                    .done (.ok (.ok (.ok payment.apiKey payment.trails account.creditTrails)))

theorem paygWebhookLightning_payment (now : Seconds) (owed : g.payment? paymentHash = some payment) :
    ExceptT.run (paygWebhookLightning g.int (g.delivery paymentHash) now) = delivering payment now := by
  unfold Gateway.payment? at owed
  split at owed
  · cases owed
  rename_i present
  split at owed
  · rename_i topup ref read named
    split at owed
    · rename_i apiKey keyed
      cases owed
      have started : paygWebhookLightning g.int (g.delivery paymentHash) now = (do
          let processed ← isProcessed paymentHash
          let apiKey ← bound (bindStr topup.apiKey)
          if processed then do
            let account ← getPaygAccount apiKey
            return .ok (.alreadyProcessed apiKey (account.map Account.creditTrails))
          else do
            match ← topupPayg apiKey topup.trails now with
            | none => return .error ⟨404, "api_key not found"⟩
            | some account => do
                markProcessed paymentHash apiKey now
                return .ok (.ok apiKey topup.trails account.creditTrails)) := by
        rw [paygWebhookLightning, read]
        rfl
      rw [started, keyed]
      simp only [isProcessed, markProcessed, if_neg present, named, delivering, topupPayg]
      cases bindInt topup.trails <;> rfl
    · cases owed
  · cases owed

/-- The tables after the payment is credited and marked. -/
def World.settled (w : World) (payment : Payment) (now : Seconds) : World :=
  (exec (.insertNonce ⟨payment.ref, payment.apiKey, now⟩)
    (exec (.addCredit payment.apiKey payment.trails now) w).2).2

theorem isSome_insertNonce (row : ExternalNonce) (w : World) :
    ((exec (.insertNonce row) w).2.nonces.find? row.actionRef).isSome = true := by
  simp only [exec]
  cases inserted : w.nonces.insert? row with
  | none =>
      rw [Option.getD_none]
      by_contra absent
      have fresh : (w.nonces.insert? row).isSome :=
        Table.insert?_isSome_iff.mpr (Option.not_isSome_iff_eq_none.mp absent)
      rw [inserted] at fresh
      cases fresh
  | some next =>
      rw [Option.getD_some, Table.find?_insert inserted]
      exact congrArg Option.isSome (if_pos rfl)

theorem stands_settled (stands : w.Stands payment.ref false payment.apiKey) :
    (w.settled payment now).Stands payment.ref true payment.apiKey := by
  obtain ⟨mark, account⟩ := stands_exec (.addCredit payment.apiKey payment.trails now) w trivial stands
  exact ⟨isSome_insertNonce ⟨payment.ref, payment.apiKey, now⟩ _, account⟩

theorem creditOf_settled (stands : w.Stands payment.ref false payment.apiKey) :
    ((w.settled payment now).creditOf payment.apiKey).getD 0 =
      (w.creditOf payment.apiKey).getD 0 + payment.trails := by
  obtain ⟨row, found⟩ := Option.isSome_iff_exists.mp stands.2
  have credited : (w.settled payment now).creditOf payment.apiKey =
      (exec (.addCredit payment.apiKey payment.trails now) w).2.creditOf payment.apiKey := rfl
  rw [credited, creditOf_addCredit, World.creditOf, found]
  simp

/-- A delivery of a payment that is marked changes nothing. -/
theorem delivering_marked (now : Seconds) (marked : w.Stands payment.ref true payment.apiKey) :
    (∃ answer, (delivering payment now).run exec w = (.ok (.ok answer), w)) ∧
      ∀ statements, (delivering payment now).cut exec statements w = w := by
  have mark : (exec (.hasNonce payment.ref) w).1 = true := marked.1
  refine ⟨?_, fun statements => ?_⟩
  · rw [delivering, Program.run, mark]
    exact ⟨_, rfl⟩
  · cases statements with
    | zero => rfl
    | succ statements =>
        rw [delivering, Program.cut, mark]
        rcases statements with _ | _ | statements <;> rfl

/-- A delivery of a payment whose trails do not fit an INTEGER raises before it writes. -/
theorem delivering_unbound (now : Seconds) (unmarked : w.Stands payment.ref false payment.apiKey) {raised : Raised}
    (unbound : bindInt payment.trails = .error raised) :
    (delivering payment now).run exec w = (.error raised, w) ∧
      ∀ statements, (delivering payment now).cut exec statements w = w := by
  have mark : (exec (.hasNonce payment.ref) w).1 = false := unmarked.1
  refine ⟨?_, fun statements => ?_⟩
  · simp only [delivering, Program.run, mark, Bool.false_eq_true, if_false, unbound]
    rfl
  · cases statements with
    | zero => rfl
    | succ statements =>
        simp only [delivering, Program.cut, mark, Bool.false_eq_true, if_false, unbound]
        cases statements <;> rfl

/-- The first delivery of a payment credits it and marks it; where it dies between the
two, only the credit is there. -/
theorem delivering_unmarked (now : Seconds) (unmarked : w.Stands payment.ref false payment.apiKey)
    (fits : bindInt payment.trails = .ok payment.trails) :
    (∃ answer, (delivering payment now).run exec w = (.ok (.ok answer), w.settled payment now)) ∧
      (∀ statements, statements ≤ 1 → (delivering payment now).cut exec statements w = w) ∧
      ∀ statements, 3 < statements → (delivering payment now).cut exec statements w = w.settled payment now := by
  have mark : (exec (.hasNonce payment.ref) w).1 = false := unmarked.1
  have credited := stands_exec (.addCredit payment.apiKey payment.trails now) w trivial unmarked
  obtain ⟨row, found⟩ := Option.isSome_iff_exists.mp credited.2
  have read : (exec (.account payment.apiKey) (exec (.addCredit payment.apiKey payment.trails now) w).2).1 = some row :=
    found
  have asked : (exec (.hasNonce payment.ref) w).2 = w := rfl
  refine ⟨?_, fun statements early => ?_, fun statements late => ?_⟩
  · simp only [delivering, Program.run, mark, Bool.false_eq_true, if_false, asked, fits, read]
    exact ⟨_, rfl⟩
  · rcases statements with _ | _ | statements
    · rfl
    · rw [delivering, Program.cut, mark, fits]
      rfl
    · omega
  · obtain ⟨later, rfl⟩ : ∃ later, statements = later + 4 := ⟨statements - 4, by omega⟩
    simp only [delivering, Program.cut, mark, Bool.false_eq_true, if_false, asked, fits, read]
    cases later <;> rfl

theorem payment?_ref (owed : g.payment? paymentHash = some payment) : bindStr paymentHash = .ok payment.ref := by
  unfold Gateway.payment? at owed
  split at owed
  · cases owed
  split at owed
  · rename_i named
    split at owed
    · cases owed
      exact named
    · cases owed
  · cases owed

/-- Payments are marked by the hashes they have. -/
theorem bindStr_injective {first second : Str} {text : String} (left : bindStr first = .ok text)
    (right : bindStr second = .ok text) : first = second := by
  rw [← ofString_of_bindStr left, ofString_of_bindStr right]

end

/-- What a run keeps of a payment: its deliveries added its trails if it is marked, and
nothing otherwise, and it is marked if one of them was answered 200. -/
def Covered (paymentHash : Str) (payment : Payment) (s : GatewayState) (sum : Int) : Prop :=
  ∃ marked, s.world.Stands payment.ref marked payment.apiKey ∧
    (sum = if marked then payment.trails else 0) ∧ (paymentHash ∈ s.acknowledged → marked = true)

section
variable {g : Gateway} {paymentHash : Str} {payment : Payment} {s : GatewayState} {marked : Bool}

/-- An external request does not get to a write, or it leaves the mark of the payment. -/
theorem external_leaves (owed : g.payment? paymentHash = some payment)
    (stands : s.world.Stands payment.ref marked payment.apiKey) {call : ExternalCall}
    (untaken : marked = false → ¬ g.TakesMark s.world call) : admittedExternal call.body s.world = none ∨
      Script.Uses (LeavesMark payment.ref marked) (externalTrail g.lower g.settings call) := by
  rcases Option.eq_none_or_eq_some (admittedExternal call.body s.world) with refused | ⟨⟨request, account⟩, admitted⟩
  · exact Or.inl refused
  · right
    apply uses_externalTrail
    intro other read
    rw [(admittedExternal_eq_some admitted).1] at read
    cases read
    cases marked with
    | true => exact Or.inl rfl
    | false =>
        right
        intro same
        exact untaken rfl ⟨paymentHash, payment, request, account, owed, stands.2, admitted, same⟩

/-- A step that delivers no payment, or another one, leaves the mark and the account. -/
theorem stands_step (owed : g.payment? paymentHash = some payment)
    (stands : s.world.Stands payment.ref marked payment.apiKey) {step : GatewayStep}
    (guarded : g.MarksWithCredit s step) (other : ∀ now, step.request ≠ .lightning paymentHash now) :
    (g.step s step).world.Stands payment.ref marked payment.apiKey := by
  have apart : ∀ {delivered : Str}, delivered ≠ paymentHash → ∀ ref, bindStr delivered = .ok ref →
      marked = true ∨ ref ≠ payment.ref := by
    intro delivered differs ref named
    right
    rintro rfl
    exact differs (bindStr_injective named (payment?_ref owed))
  cases step with
  | serve request =>
      cases request with
      | lightning delivered now =>
          have differs : delivered ≠ paymentHash := fun same => other now (by rw [GatewayStep.request, same])
          exact (uses_paygWebhookLightning (apart differs)).run stands_exec stands
      | external call =>
          rcases external_leaves owed stands fun _ => guarded with refused | uses
          · rcases run_externalTrail g.lower g.settings call s.world with ⟨_, same, _⟩ | ⟨_, _, admitted, _⟩
            · change ((externalTrail g.lower g.settings call).run s.world).2.Stands _ _ _
              rwa [same]
            · rw [refused] at admitted
              cases admitted
          · exact uses.run stands_exec stands
      | nexus trailId body now => exact (uses_nexusTrail trailId body).run stands_exec stands
  | crash request statements =>
      cases request with
      | lightning delivered now =>
          have differs : delivered ≠ paymentHash := fun same => other now (by rw [GatewayStep.request, same])
          exact (uses_paygWebhookLightning (apart differs)).cut stands_exec stands statements
      | external call =>
          change ((externalTrail g.lower g.settings call).cut statements s.world).Stands _ _ _
          by_cases early : statements ≤ 2
          · rwa [cut_externalTrail (Or.inr early)]
          · rcases external_leaves owed stands fun _ => guarded (by omega) with refused | uses
            · rwa [cut_externalTrail (Or.inl refused)]
            · exact uses.cut stands_exec stands statements
      | nexus trailId body now => exact (uses_nexusTrail trailId body).cut stands_exec stands statements

/-- A step that delivers no payment, or another one, is no delivery of this one. -/
theorem Covered.other {sum : Int} (covered : Covered paymentHash payment s sum)
    (owed : g.payment? paymentHash = some payment) {step : GatewayStep} (guarded : g.MarksWithCredit s step)
    (other : ∀ now, step.request ≠ .lightning paymentHash now) :
    Covered paymentHash payment (g.step s step) (sum + g.added paymentHash payment.apiKey s step) := by
  obtain ⟨marked, stands, amount, answered⟩ := covered
  have none : g.added paymentHash payment.apiKey s step = 0 := by
    unfold Gateway.added
    split
    · rename_i delivered now same
      exact if_neg fun own => other now (by rw [same, own])
    · rfl
  refine ⟨marked, stands_step owed stands guarded other, by rw [none, add_zero, amount], fun acknowledged => ?_⟩
  apply answered
  cases step with
  | crash request statements => exact acknowledged
  | serve request =>
      simp only [Gateway.step] at acknowledged
      split at acknowledged
      · rename_i delivered now _
        rcases List.mem_append.mp acknowledged with earlier | last
        · exact earlier
        · exact absurd (by rw [GatewayStep.request, List.mem_singleton.mp last]) (other now)
      · exact acknowledged

/-- A delivery of the payment runs `delivering`, to its end or to where the process dies. -/
theorem world_serve (owed : g.payment? paymentHash = some payment) (now : Seconds) :
    (g.step s (.serve (.lightning paymentHash now))).world = ((delivering payment now).run exec s.world).2 := by
  change (Program.run exec (ExceptT.run (paygWebhookLightning _ _ now)) s.world).2 = _
  rw [paygWebhookLightning_payment now owed]

theorem world_crash (owed : g.payment? paymentHash = some payment) (now : Seconds) (statements : Nat) :
    (g.step s (.crash (.lightning paymentHash now) statements)).world =
      (delivering payment now).cut exec statements s.world := by
  change Program.cut exec statements (ExceptT.run (paygWebhookLightning _ _ now)) s.world = _
  rw [paygWebhookLightning_payment now owed]

section
variable {step : GatewayStep} {now : Seconds} {sum : Int}

theorem added_delivery (own : step.request = .lightning paymentHash now) (apiKey : String) :
    g.added paymentHash apiKey s step =
      ((g.step s step).world.creditOf apiKey).getD 0 - (s.world.creditOf apiKey).getD 0 := by
  rw [Gateway.added, own]
  exact if_pos rfl

/-- A delivery that leaves the tables adds nothing. -/
theorem Covered.unchanged (stands : s.world.Stands payment.ref marked payment.apiKey)
    (amount : sum = if marked then payment.trails else 0) (own : step.request = .lightning paymentHash now)
    (same : (g.step s step).world = s.world)
    (acknowledged : paymentHash ∈ (g.step s step).acknowledged → marked = true) :
    Covered paymentHash payment (g.step s step) (sum + g.added paymentHash payment.apiKey s step) := by
  have none : g.added paymentHash payment.apiKey s step = 0 := by rw [added_delivery own, same, sub_self]
  exact ⟨marked, by rwa [same], by rw [none, add_zero, amount], acknowledged⟩

/-- One that settles the payment adds its trails, with the mark. -/
theorem Covered.settles (stands : s.world.Stands payment.ref false payment.apiKey) (amount : sum = 0)
    (own : step.request = .lightning paymentHash now) (same : (g.step s step).world = s.world.settled payment now) :
    Covered paymentHash payment (g.step s step) (sum + g.added paymentHash payment.apiKey s step) := by
  refine ⟨true, ?_, ?_, fun _ => rfl⟩
  · rw [same]
    exact stands_settled stands
  · rw [added_delivery own, same, creditOf_settled stands, amount]
    simp

/-- A delivery of a payment that is marked finds the mark. -/
theorem Covered.again (stands : s.world.Stands payment.ref true payment.apiKey) (amount : sum = payment.trails)
    (owed : g.payment? paymentHash = some payment) (own : step.request = .lightning paymentHash now) :
    Covered paymentHash payment (g.step s step) (sum + g.added paymentHash payment.apiKey s step) := by
  obtain ⟨⟨_, served⟩, cut⟩ := delivering_marked now stands
  refine Covered.unchanged stands amount own ?_ fun _ => rfl
  cases step with
  | serve request =>
      obtain rfl : request = .lightning paymentHash now := own
      rw [world_serve owed, served]
  | crash request statements =>
      obtain rfl : request = .lightning paymentHash now := own
      rw [world_crash owed, cut]

/-- A delivery of a payment whose amount the database does not take raises before it writes. -/
theorem Covered.unbound (stands : s.world.Stands payment.ref false payment.apiKey) (amount : sum = 0)
    (unanswered : paymentHash ∉ s.acknowledged) {raised : Raised} (bounds : bindInt payment.trails = .error raised)
    (owed : g.payment? paymentHash = some payment) (own : step.request = .lightning paymentHash now) :
    Covered paymentHash payment (g.step s step) (sum + g.added paymentHash payment.apiKey s step) := by
  obtain ⟨run, cuts⟩ := delivering_unbound now stands bounds
  cases step with
  | serve request =>
      obtain rfl : request = .lightning paymentHash now := own
      refine Covered.unchanged stands amount rfl (by rw [world_serve owed, run]) fun acknowledged => ?_
      have refused : (PublicRequest.serve g (.lightning paymentHash now) s.world).1 = false := by
        change answered (Program.run exec (ExceptT.run (paygWebhookLightning _ _ now)) s.world).1 = false
        rw [paygWebhookLightning_payment now owed, run]
        rfl
      simp only [Gateway.step, refused] at acknowledged
      exact absurd acknowledged unanswered
  | crash request statements =>
      obtain rfl : request = .lightning paymentHash now := own
      exact Covered.unchanged stands amount rfl (by rw [world_crash owed, cuts]) fun acknowledged =>
        absurd acknowledged unanswered

/-- A delivery of an unmarked one credits and marks it, or dies before either. -/
theorem Covered.bound (stands : s.world.Stands payment.ref false payment.apiKey) (amount : sum = 0)
    (unanswered : paymentHash ∉ s.acknowledged) {trails : Int} (bounds : bindInt payment.trails = .ok trails)
    (owed : g.payment? paymentHash = some payment) (guarded : g.MarksWithCredit s step)
    (own : step.request = .lightning paymentHash now) :
    Covered paymentHash payment (g.step s step) (sum + g.added paymentHash payment.apiKey s step) := by
  obtain ⟨_, rfl⟩ := bindInt_eq_ok_iff.mp bounds
  obtain ⟨⟨_, run⟩, early, late⟩ := delivering_unmarked now stands bounds
  cases step with
  | serve request =>
      obtain rfl : request = .lightning paymentHash now := own
      exact Covered.settles stands amount rfl (by rw [world_serve owed, run])
  | crash request statements =>
      obtain rfl : request = .lightning paymentHash now := own
      obtain ⟨two, three⟩ := guarded payment owed stands.2 (by simpa using stands.1)
      by_cases first : statements ≤ 1
      · exact Covered.unchanged stands amount rfl (by rw [world_crash owed, early statements first])
          fun acknowledged => absurd acknowledged unanswered
      · exact Covered.settles stands amount rfl (by rw [world_crash owed, late statements (by omega)])

/-- A delivery of the payment credits and marks it, or finds it marked. -/
theorem Covered.own (covered : Covered paymentHash payment s sum) (owed : g.payment? paymentHash = some payment)
    (guarded : g.MarksWithCredit s step) (own : step.request = .lightning paymentHash now) :
    Covered paymentHash payment (g.step s step) (sum + g.added paymentHash payment.apiKey s step) := by
  obtain ⟨marked, stands, amount, acknowledged⟩ := covered
  cases marked with
  | true => exact Covered.again stands amount owed own
  | false =>
      have unanswered : paymentHash ∉ s.acknowledged := fun member => Bool.false_ne_true (acknowledged member)
      cases bounds : bindInt payment.trails with
      | error raised => exact Covered.unbound stands amount unanswered bounds owed own
      | ok trails => exact Covered.bound stands amount unanswered bounds owed guarded own

end

end

/-- Every payment is credited once in a run where no process dies between a credit and
its mark, and no external request takes a mark. -/
theorem creditedOnce_of_marksWithCredit {g : Gateway} {start : World} {steps : List GatewayStep}
    (admitted : Admits g.step g.MarksWithCredit ⟨start, []⟩ steps) : CreditedOnce g start steps := by
  intro paymentHash payment owed account unmarked acknowledged
  have begun : Covered paymentHash payment ⟨start, []⟩ 0 :=
    ⟨false, ⟨by rw [unmarked, Option.isSome_none], account⟩, rfl, fun none => nomatch none⟩
  have covered : Covered paymentHash payment _ (total g.step (g.added paymentHash payment.apiKey) ⟨start, []⟩ steps) :=
    admitted.tally (fun s step sum kept guarded => by
      by_cases own : ∃ now, step.request = .lightning paymentHash now
      · obtain ⟨now, own⟩ := own
        exact kept.own owed guarded own
      · exact kept.other owed guarded fun now same => own ⟨now, same⟩) begun
  obtain ⟨marked, _, amount, answered⟩ := covered
  rw [amount, answered acknowledged, if_pos rfl]

/-- `int` of the decimal texts. -/
def decimalInt (s : Str) : Option Int := if s ≠ [] && s.all isDigit then some (Jcs.digitsValue s) else none

def firstHash : Str := ofString "aaaaaaaaaaaaaaaaaaaaaaaaaaaaaaaaaaaaaaaaaaaaaaaaaaaaaaaaaaaaaaaa"

/-- A node that received one payment, for five trails. -/
def fiveTrails : Gateway :=
  ⟨decimalInt, id, oneADay, fun paymentHash => if paymentHash = firstHash then ofString "payg:key:5" else []⟩

theorem creditedOnce_redelivered : CreditedOnce fiveTrails oneCredit
    [.crash (.lightning firstHash 1) 1, .serve (.lightning firstHash 2), .serve (.lightning firstHash 3)] :=
  creditedOnce_of_marksWithCredit ⟨fun _ _ _ _ => ⟨by decide, by decide⟩, trivial, trivial, trivial⟩

theorem payment?_firstHash : fiveTrails.payment? firstHash =
    some ⟨"aaaaaaaaaaaaaaaaaaaaaaaaaaaaaaaaaaaaaaaaaaaaaaaaaaaaaaaaaaaaaaaa", "key", 5⟩ := by
  decide +kernel

/-- A payment is credited twice where the process dies before it marks it, and not at
all where a client has spent its hash. -/
theorem not_creditedOnce :
    ¬ CreditedOnce fiveTrails oneCredit [.crash (.lightning firstHash 1) 3, .serve (.lightning firstHash 2)] ∧
      ¬ CreditedOnce fiveTrails oneCredit [.serve (.external firstCall), .serve (.lightning firstHash 2)] := by
  constructor
  · intro once
    exact absurd (once firstHash _ payment?_firstHash rfl rfl (by decide +kernel)) (by decide +kernel)
  · intro once
    exact absurd (once firstHash _ payment?_firstHash rfl rfl (by decide +kernel)) (by decide +kernel)

end Argentum.Mycelium
