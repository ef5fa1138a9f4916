import Argentum.Mycelium.Intents

/-! The poller of USDC deposits. A cycle reads the pending intents once, keeps one of
each address, the last, and gives each log of the answer to the intent its sender
has there. Which transactions were used is a set of the process, so it is empty
after a restart. `lower` is `str.lower`. -/
namespace Argentum.Mycelium
open Argentum Text Transition

def usdcAmountTolerance : ℚ := nearestDouble (1 / 1000)

/-- `POST /payg/topup/usdc` -/
def paygTopupUsdc (lower : String → String) (intentId : String) (apiKey : Str) (trails : Int) (fromAddress : Str)
    (now : Seconds) : Script (Except Refusal Intent) :=
  if trails < 1 ∨ trails > 10000 then return .error ⟨400, "trails must be between 1 and 10000"⟩
  else if ¬ (ofString "0x").isPrefixOf fromAddress ∨ fromAddress.length ≠ 42 then
    return .error ⟨400, "from_address must be a valid EVM address (0x + 40 hex chars)"⟩
  else do
    let key ← bound (bindStr apiKey)
    match ← getPaygAccount key with
    | none => return .error ⟨404, "api_key not found"⟩
    | some _ =>
        let address ← bound (bindStr fromAddress)
        let intent ← createUsdcIntent intentId key (lower address) trails now
        return .ok intent

/-- A Transfer log to the deposit wallet. Its `data` is one word, `int(data, 16)`. -/
structure TransferLog where
  transactionHash : String
  logIndex : Nat
  topics : List String
  value : Nat
  deriving DecidableEq, Repr

/-- `"0x" + topics[1][-40:]` -/
def TransferLog.fromAddr (log : TransferLog) : String :=
  let topic := (log.topics.getD 1 "").toList
  "0x" ++ String.ofList (topic.drop (topic.length - 40))

/-- `not abs(raw_amount / 1_000_000 - expected) > USDC_AMOUNT_TOLERANCE` -/
def withinTolerance (rawAmount : Nat) (expected : ℚ) : Bool :=
  nearestDouble |nearestDouble (rawAmount / 10 ^ 6) - expected| ≤ usdcAmountTolerance

/-- `{i["from_address"]: i for i in intents}.get(address)` -/
def intentsByAddr (intents : List Intent) (address : String) : Option Intent :=
  intents.reverse.find? fun intent => intent.fromAddress = address

/-- The intent a log is given to. -/
def matchedIntent (lower : String → String) (intents : List Intent) (log : TransferLog) : Option Intent :=
  if log.topics.length < 3 then none
  else
    match intentsByAddr intents (lower log.fromAddr) with
    | none => none
    | some intent => if withinTolerance log.value intent.usdcAmount then some intent else none

/-- What the loop does with one log. -/
def pollLog (lower : String → String) (intents : List Intent) (now : Seconds) (log : TransferLog)
    (seenTx : List String) : Script (List String) :=
  if log.transactionHash ∈ seenTx then return seenTx
  else
    match matchedIntent lower intents log with
    | none => return seenTx
    | some intent => do
        match ← fulfillUsdcIntent intent.intentId log.transactionHash now with
        | none => return seenTx
        | some _ => return log.transactionHash :: seenTx

def pollLogs (lower : String → String) (intents : List Intent) (now : Seconds) :
    List TransferLog → List String → Script (List String)
  | [], seenTx => return seenTx
  | log :: rest, seenTx => do
      let seenTx ← pollLog lower intents now log seenTx
      pollLogs lower intents now rest seenTx

/-- One cycle of `_usdc_poller`, from the answer of the RPC node on. -/
def usdcPollerCycle (lower : String → String) (logs : List TransferLog) (now : Seconds) (seenTx : List String) :
    Script (List String) := do
  let intents ← getPendingUsdcIntents now
  if intents.isEmpty || logs.isEmpty then return seenTx else pollLogs lower intents now logs seenTx

/-- A transfer from the intent's address, of its amount within the tolerance. -/
def TransferLog.pays (lower : String → String) (log : TransferLog) (intent : Intent) : Bool :=
  3 ≤ log.topics.length && lower log.fromAddr = intent.fromAddress && withinTolerance log.value intent.usdcAmount

theorem intentsByAddr_eq_some {intents : List Intent} {address : String} {intent : Intent}
    (found : intentsByAddr intents address = some intent) : intent ∈ intents ∧ intent.fromAddress = address :=
  ⟨List.mem_reverse.mp (List.mem_of_find?_eq_some found), by simpa using List.find?_some found⟩

/-- A log is given to an intent iff it pays the intent, and the intent is the last of its address. -/
theorem matchedIntent_eq_some_iff {lower : String → String} {intents : List Intent} {log : TransferLog}
    {intent : Intent} : matchedIntent lower intents log = some intent ↔
      log.pays lower intent = true ∧ intentsByAddr intents intent.fromAddress = some intent := by
  unfold matchedIntent TransferLog.pays
  by_cases short : log.topics.length < 3
  · simp [short]
  · rw [if_neg short]
    have long : 3 ≤ log.topics.length := by omega
    constructor
    · intro given
      split at given
      · cases given
      · rename_i other found
        split at given
        · rename_i within
          obtain rfl := Option.some.inj given
          obtain ⟨_, sender⟩ := intentsByAddr_eq_some found
          simp [long, sender, within, found]
        · cases given
    · rintro ⟨paid, last⟩
      simp only [long, decide_true, Bool.true_and, Bool.and_eq_true, decide_eq_true_eq] at paid
      rw [paid.1, last]
      simp [paid.2]

/-- The tables after an intent is marked and its account is credited. -/
def World.fulfilled (w : World) (intent : Intent) (txHash : String) (now : Seconds) : World :=
  (exec (.addCredit intent.apiKey intent.trails now) (exec (.markFulfilled intent.intentId txHash now) w).2).2

/-- The intent under this id that is still pending. -/
def World.pending? (w : World) (intentId : String) : Option Intent :=
  (w.intents.find? intentId).filter fun row => row.status = .pending

theorem World.pending?_eq_some {w : World} {intentId : String} {intent : Intent}
    (open_ : w.pending? intentId = some intent) :
    w.intents.find? intentId = some intent ∧ intent.intentId = intentId ∧ intent.status = .pending := by
  obtain ⟨found, pending⟩ := Option.filter_eq_some_iff.mp open_
  exact ⟨found, Table.find?_key found, by simpa using pending⟩

theorem run_fulfillUsdcIntent {w : World} {intentId txHash : String} {now : Seconds} :
    (fulfillUsdcIntent intentId txHash now).run w =
      match w.pending? intentId with
      | none => (.ok none, w)
      | some intent =>
          (.ok (some ⟨intent, (w.fulfilled intent txHash now).accounts.find? intent.apiKey, txHash⟩),
            w.fulfilled intent txHash now) := by
  rw [fulfillUsdcIntent, Script.run_sql_bind]
  change Script.run (match w.pending? intentId with
    | none => _
    | some intent => _) w = _
  cases open_ : w.pending? intentId with
  | none => rfl
  | some intent =>
      obtain ⟨_, rfl, _⟩ := World.pending?_eq_some open_
      rfl

theorem run_pollLog {lower : String → String} {intents : List Intent} {now : Seconds} {log : TransferLog}
    {seenTx : List String} {w : World} : (pollLog lower intents now log seenTx).run w =
      if log.transactionHash ∈ seenTx then (.ok seenTx, w)
      else
        match (matchedIntent lower intents log).bind fun intent => w.pending? intent.intentId with
        | none => (.ok seenTx, w)
        | some intent => (.ok (log.transactionHash :: seenTx), w.fulfilled intent log.transactionHash now) := by
  rw [pollLog]
  split
  · rfl
  cases matchedIntent lower intents log with
  | none => rfl
  | some given =>
      rw [Option.bind_some, Script.run_bind, run_fulfillUsdcIntent]
      cases w.pending? given.intentId with
      | none => rfl
      | some intent => rfl

theorem pollLog_ends (lower : String → String) (intents : List Intent) (now : Seconds) (log : TransferLog)
    (seenTx : List String) (w : World) :
    ∃ seen after, (pollLog lower intents now log seenTx).run w = (.ok seen, after) := by
  rw [run_pollLog]
  split
  · exact ⟨_, _, rfl⟩
  · split <;> exact ⟨_, _, rfl⟩

section
variable {w : World} {intent : Intent} {txHash : String} {now : Seconds}

theorem find?_fulfilled (intentId : String) : (w.fulfilled intent txHash now).intents.find? intentId =
    if intent.intentId = intentId then (w.intents.find? intentId).map fun row => row.fulfill txHash now
    else w.intents.find? intentId :=
  find?_markFulfilled

theorem pending?_fulfilled (intentId : String) : (w.fulfilled intent txHash now).pending? intentId =
    if intent.intentId = intentId then none else w.pending? intentId := by
  rw [World.pending?, find?_fulfilled]
  split
  · cases w.intents.find? intentId <;> rfl
  · rfl

theorem creditOf_fulfilled (key : String) : (w.fulfilled intent txHash now).creditOf key =
    (w.creditOf key).map fun credit => credit + if intent.apiKey = key then intent.trails else 0 :=
  creditOf_addCredit key

end

/-- The logs that fulfil an intent, each with its intent: a transaction is used once,
and an intent is fulfilled once. -/
def payments (given : TransferLog → Option Intent) :
    List String → List String → List TransferLog → List (TransferLog × Intent)
  | _, _, [] => []
  | seenTx, paid, log :: rest =>
      if log.transactionHash ∈ seenTx then payments given seenTx paid rest
      else
        match (given log).filter fun intent => intent.intentId ∉ paid with
        | none => payments given seenTx paid rest
        | some intent =>
            (log, intent) :: payments given (log.transactionHash :: seenTx) (intent.intentId :: paid) rest

/-- The tables after these payments. -/
def World.paid (w : World) (now : Seconds) (payments : List (TransferLog × Intent)) : World :=
  payments.foldl (fun w payment => w.fulfilled payment.2 payment.1.transactionHash now) w

/-- The intents that were read are pending, but for those that were paid since. -/
def Current (w : World) (intents : List Intent) (paid : List String) : Prop :=
  ∀ intent ∈ intents, w.pending? intent.intentId = if intent.intentId ∈ paid then none else some intent

theorem Current.distinct {w : World} {intents : List Intent} (current : Current w intents []) :
    ∀ first ∈ intents, ∀ second ∈ intents, first.intentId = second.intentId → first = second := by
  intro first one second two same
  have read := current first one
  rw [same, current second two] at read
  simpa using read.symm

theorem Current.fulfilled {w : World} {intents : List Intent} {paid : List String} {intent : Intent}
    {txHash : String} {now : Seconds} (current : Current w intents paid) :
    Current (w.fulfilled intent txHash now) intents (intent.intentId :: paid) := by
  intro other member
  rw [pending?_fulfilled, current other member]
  by_cases same : intent.intentId = other.intentId
  · simp [same]
  · simp [same, Ne.symm same]

theorem Current.paid {w : World} {intents : List Intent} {paid : List String} {now : Seconds}
    (current : Current w intents paid) (payments : List (TransferLog × Intent)) :
    Current (w.paid now payments) intents ((payments.map fun payment => payment.2.intentId).reverse ++ paid) := by
  induction payments generalizing w paid with
  | nil => exact current
  | cons payment rest ih =>
      rw [List.map_cons, List.reverse_cons, List.append_assoc]
      exact ih current.fulfilled

/-- The loop pays what `payments` lists. -/
theorem run_pollLogs {lower : String → String} {intents : List Intent} {now : Seconds} (logs : List TransferLog)
    (seenTx : List String) {paid : List String} {w : World} (current : Current w intents paid) :
    ∃ seen, (pollLogs lower intents now logs seenTx).run w =
      (.ok seen, w.paid now (payments (matchedIntent lower intents) seenTx paid logs)) := by
  induction logs generalizing seenTx paid w with
  | nil => exact ⟨seenTx, rfl⟩
  | cons log rest ih =>
      have answer : ((matchedIntent lower intents log).bind fun intent => w.pending? intent.intentId) =
          (matchedIntent lower intents log).filter fun intent => intent.intentId ∉ paid := by
        cases given : matchedIntent lower intents log with
        | none => rfl
        | some intent =>
            have read := (intentsByAddr_eq_some (matchedIntent_eq_some_iff.mp given).2).1
            rw [Option.bind_some, current intent read]
            by_cases done : intent.intentId ∈ paid <;> simp [Option.filter, done]
      rw [pollLogs, Script.run_bind, run_pollLog, payments, answer]
      by_cases seen : log.transactionHash ∈ seenTx
      · simp only [if_pos seen]
        exact ih _ current
      · simp only [if_neg seen]
        cases (matchedIntent lower intents log).filter fun intent => intent.intentId ∉ paid with
        | none => exact ih _ current
        | some intent => exact ih _ current.fulfilled

theorem current_pendingIntents (w : World) (now : Seconds) :
    Current w (exec (.pendingIntents now) w).1 [] := by
  intro intent member
  obtain ⟨stored, pending⟩ := List.mem_filter.mp member
  have found : w.intents.find? intent.intentId = some intent := Table.find?_eq_some_iff.mpr ⟨stored, rfl⟩
  rw [World.pending?, found, if_neg List.not_mem_nil, Option.filter_some, if_pos]
  simp only [Bool.and_eq_true, decide_eq_true_eq] at pending
  simpa using pending.1

section
variable {given : TransferLog → Option Intent} {seenTx paid : List String} {logs : List TransferLog}

theorem payments_append (before after : List TransferLog) : payments given seenTx paid (before ++ after) =
    payments given seenTx paid before ++
      payments given (((payments given seenTx paid before).map fun payment => payment.1.transactionHash).reverse ++
        seenTx) (((payments given seenTx paid before).map fun payment => payment.2.intentId).reverse ++ paid)
        after := by
  induction before generalizing seenTx paid with
  | nil => rfl
  | cons log rest ih =>
      rw [List.cons_append, payments, payments]
      split
      · exact ih
      · split
        · exact ih
        · rw [ih]
          simp

/-- A payment is made by a log of an unused transaction, for an intent not paid before. -/
theorem of_mem_payments {log : TransferLog} {intent : Intent} (made : (log, intent) ∈ payments given seenTx paid logs) :
    log ∈ logs ∧ given log = some intent ∧ log.transactionHash ∉ seenTx ∧ intent.intentId ∉ paid := by
  induction logs generalizing seenTx paid with
  | nil => cases made
  | cons first rest ih =>
      rw [payments] at made
      split at made
      · obtain ⟨member, facts⟩ := ih made
        exact ⟨List.mem_cons_of_mem _ member, facts⟩
      rename_i unused
      split at made
      · obtain ⟨member, facts⟩ := ih made
        exact ⟨List.mem_cons_of_mem _ member, facts⟩
      rename_i other chosen
      obtain ⟨matched, unpaid⟩ := Option.filter_eq_some_iff.mp chosen
      rcases List.mem_cons.mp made with here | later
      · cases here
        exact ⟨List.mem_cons_self, matched, unused, by simpa using unpaid⟩
      · obtain ⟨member, matched, unused, unpaid⟩ := ih later
        exact ⟨List.mem_cons_of_mem _ member, matched, fun seen => unused (List.mem_cons_of_mem _ seen),
          fun done => unpaid (List.mem_cons_of_mem _ done)⟩

/-- No intent is paid twice. -/
theorem nodup_payments : ((payments given seenTx paid logs).map fun payment => payment.2.intentId).Nodup := by
  induction logs generalizing seenTx paid with
  | nil => exact List.nodup_nil
  | cons log rest ih =>
      rw [payments]
      split
      · exact ih
      · split
        · exact ih
        · rw [List.map_cons, List.nodup_cons]
          refine ⟨fun again => ?_, ih⟩
          obtain ⟨⟨later, intent⟩, made, same⟩ := List.mem_map.mp again
          obtain ⟨_, _, _, unpaid⟩ := of_mem_payments made
          exact unpaid (List.mem_cons.mpr (Or.inl same))

/-- A payment is made where nothing before it in the list used its transaction. -/
theorem split_of_mem_payments {log : TransferLog} {intent : Intent}
    (made : (log, intent) ∈ payments given seenTx paid logs) :
    ∃ before after, logs = before ++ log :: after ∧
      ∀ payment ∈ payments given seenTx paid before, payment.1.transactionHash ≠ log.transactionHash := by
  induction logs generalizing seenTx paid with
  | nil => cases made
  | cons first rest ih =>
      rw [payments] at made
      split at made
      · rename_i used
        obtain ⟨before, after, rfl, apart⟩ := ih made
        exact ⟨first :: before, after, rfl, by rwa [payments, if_pos used]⟩
      rename_i unused
      split at made
      · rename_i none
        obtain ⟨before, after, rfl, apart⟩ := ih made
        exact ⟨first :: before, after, rfl, by rwa [payments, if_neg unused, none]⟩
      rename_i other chosen
      rcases List.mem_cons.mp made with here | later
      · cases here
        exact ⟨[], rest, rfl, by simp [payments]⟩
      · obtain ⟨before, after, rfl, apart⟩ := ih later
        refine ⟨first :: before, after, rfl, ?_⟩
        rw [payments, if_neg unused, chosen]
        obtain ⟨_, _, free, _⟩ := of_mem_payments later
        intro payment member
        rcases List.mem_cons.mp member with rfl | member
        · exact fun same => free (List.mem_cons.mpr (Or.inl same.symm))
        · exact apart payment member

/-- Where no log is given to an intent, nothing is paid. -/
theorem payments_eq_nil (unmatched : ∀ log ∈ logs, given log = none) : payments given seenTx paid logs = [] := by
  apply List.eq_nil_iff_forall_not_mem.mpr
  rintro ⟨log, intent⟩ made
  obtain ⟨member, matched, _⟩ := of_mem_payments made
  rw [unmatched log member] at matched
  cases matched

end

/-- One cycle pays what `payments` lists of the intents it read. -/
theorem run_usdcPollerCycle (lower : String → String) (logs : List TransferLog) (now : Seconds)
    (seenTx : List String) (w : World) :
    ∃ seen, (usdcPollerCycle lower logs now seenTx).run w = (.ok seen,
      w.paid now (payments (matchedIntent lower (exec (.pendingIntents now) w).1) seenTx [] logs)) := by
  have read : getPendingUsdcIntents now = sql (.pendingIntents now) := rfl
  rw [usdcPollerCycle, read, Script.run_sql_bind]
  split
  · rename_i idle
    refine ⟨seenTx, ?_⟩
    rcases (Bool.or_eq_true _ _).mp idle with empty | empty
    · have unmatched : ∀ log, matchedIntent lower (exec (.pendingIntents now) w).1 log = none := by
        intro log
        rw [List.isEmpty_iff.mp empty]
        simp [matchedIntent, intentsByAddr]
      rw [payments_eq_nil fun log _ => unmatched log]
      rfl
    · rw [List.isEmpty_iff.mp empty]
      rfl
  · exact run_pollLogs logs seenTx (current_pendingIntents w now)

/-- The row of an intent is marked as fulfilled. -/
def World.hasFulfilled (w : World) (intent : Intent) : Bool :=
  (w.intents.find? intent.intentId).any fun row => row.status = .fulfilled

theorem hasFulfilled_iff {w : World} {intent : Intent} : w.hasFulfilled intent = true ↔
    (w.intents.find? intent.intentId).isSome ∧ w.pending? intent.intentId = none := by
  unfold World.hasFulfilled World.pending?
  cases w.intents.find? intent.intentId with
  | none => simp
  | some row => cases status : row.status <;> simp [Option.filter, status]

section
variable {w : World} {now : Seconds}

theorem isSome_find?_paid (intentId : String) (payments : List (TransferLog × Intent)) :
    ((w.paid now payments).intents.find? intentId).isSome = (w.intents.find? intentId).isSome := by
  induction payments generalizing w with
  | nil => rfl
  | cons payment rest ih =>
      refine ih.trans ?_
      rw [find?_fulfilled]
      split <;> simp

theorem creditOf_paid (key : String) (payments : List (TransferLog × Intent)) :
    (w.paid now payments).creditOf key = (w.creditOf key).map fun credit =>
      credit + (((payments.map Prod.snd).filter fun intent => intent.apiKey = key).map Intent.trails).sum := by
  induction payments generalizing w with
  | nil => simp [World.paid]
  | cons payment rest ih =>
      refine ih.trans ?_
      rw [creditOf_fulfilled, List.map_cons, List.filter_cons, Option.map_map]
      congr 1
      funext credit
      by_cases own : payment.2.apiKey = key <;> simp [own, add_assoc]

/-- The intents that were read and fulfilled are those that were paid. -/
theorem hasFulfilled_paid {intents : List Intent} {given : TransferLog → Option Intent} {seenTx : List String}
    {logs : List TransferLog} (current : Current w intents [])
    (of_given : ∀ log intent, given log = some intent → intent ∈ intents) {intent : Intent}
    (read : intent ∈ intents) :
    (w.paid now (payments given seenTx [] logs)).hasFulfilled intent = true ↔
      intent ∈ (payments given seenTx [] logs).map Prod.snd := by
  have stored : ((w.paid now (payments given seenTx [] logs)).intents.find? intent.intentId).isSome := by
    rw [isSome_find?_paid]
    have pending := current intent read
    rw [if_neg List.not_mem_nil] at pending
    obtain ⟨found, _⟩ := World.pending?_eq_some pending
    rw [found, Option.isSome_some]
  rw [hasFulfilled_iff, current.paid _ intent read]
  simp only [List.append_nil, List.mem_reverse]
  constructor
  · rintro ⟨_, paid⟩
    split at paid
    · rename_i member
      obtain ⟨⟨log, other⟩, made, same⟩ := List.mem_map.mp member
      obtain ⟨_, matched, _⟩ := of_mem_payments made
      obtain rfl := current.distinct other (of_given log other matched) intent read same
      exact List.mem_map.mpr ⟨_, made, rfl⟩
    · cases paid
  · intro paid
    obtain ⟨payment, made, rfl⟩ := List.mem_map.mp paid
    exact ⟨stored, if_pos (List.mem_map_of_mem made)⟩

end

/-- An unused transfer pays the intent, and no other pending one. -/
def Paid (lower : String → String) (pending : List Intent) (used : TransferLog → Prop) (logs : List TransferLog)
    (intent : Intent) : Prop :=
  ∃ log ∈ logs, ¬ used log ∧ log.pays lower intent = true ∧
    ∀ other ∈ pending, log.pays lower other = true → other = intent

/-- The intent was fulfilled and its account was credited: the account has what it
had and the trails of its intents that were fulfilled. -/
def Honoured (w after : World) (pending : List Intent) (intent : Intent) : Prop :=
  after.hasFulfilled intent = true ∧ ∃ credit, w.creditOf intent.apiKey = some credit ∧
    after.creditOf intent.apiKey = some (credit +
      ((pending.filter fun other => other.apiKey = intent.apiKey && after.hasFulfilled other).map Intent.trails).sum)

/-- Every pending intent that was paid is honoured by one cycle. -/
def NoPaymentIgnored (lower : String → String) (w : World) (used : TransferLog → Prop) (logs : List TransferLog)
    (now : Seconds) (seenTx : List String) : Prop :=
  ∀ intent ∈ (exec (.pendingIntents now) w).1, Paid lower (exec (.pendingIntents now) w).1 used logs intent →
    Honoured w ((usdcPollerCycle lower logs now seenTx).run w).2 (exec (.pendingIntents now) w).1 intent

/-- The intent is the last of its address, and a log pays it whose transaction is not
used: the process did not see it, and no log before it in the list pays another
intent with it. -/
def Served (lower : String → String) (pending : List Intent) (seenTx : List String) (logs : List TransferLog)
    (intent : Intent) : Prop :=
  intentsByAddr pending intent.fromAddress = some intent ∧
    ∃ before log after, logs = before ++ log :: after ∧ log.pays lower intent = true ∧
      log.transactionHash ∉ seenTx ∧ ∀ payment ∈ payments (matchedIntent lower pending) seenTx [] before,
        payment.1.transactionHash = log.transactionHash → payment.2 = intent

section
variable {lower : String → String} {pending : List Intent} {seenTx : List String} {logs : List TransferLog}

theorem given_mem (log : TransferLog) (intent : Intent) (given : matchedIntent lower pending log = some intent) :
    intent ∈ pending :=
  (intentsByAddr_eq_some (matchedIntent_eq_some_iff.mp given).2).1

theorem mem_payments_iff_served
    (distinct : ∀ first ∈ pending, ∀ second ∈ pending, first.intentId = second.intentId → first = second)
    {intent : Intent} : intent ∈ (payments (matchedIntent lower pending) seenTx [] logs).map Prod.snd ↔
      Served lower pending seenTx logs intent := by
  constructor
  · intro paid
    obtain ⟨⟨log, _⟩, made, rfl⟩ := List.mem_map.mp paid
    obtain ⟨_, matched, unused, _⟩ := of_mem_payments made
    obtain ⟨pays, last⟩ := matchedIntent_eq_some_iff.mp matched
    obtain ⟨before, after, split, apart⟩ := split_of_mem_payments made
    exact ⟨last, before, log, after, split, pays, unused,
      fun payment member same => absurd same (apart payment member)⟩
  · rintro ⟨last, before, log, after, rfl, pays, unused, free⟩
    have matched := matchedIntent_eq_some_iff.mpr ⟨pays, last⟩
    rw [payments_append, List.map_append, List.mem_append]
    by_cases earlier : intent ∈ (payments (matchedIntent lower pending) seenTx [] before).map Prod.snd
    · exact Or.inl earlier
    · have unseen : log.transactionHash ∉
          ((payments (matchedIntent lower pending) seenTx [] before).map fun payment =>
            payment.1.transactionHash).reverse ++ seenTx := by
        rw [List.mem_append, List.mem_reverse, not_or]
        refine ⟨fun used => ?_, unused⟩
        obtain ⟨payment, member, same⟩ := List.mem_map.mp used
        exact earlier (free payment member same ▸ List.mem_map_of_mem member)
      have unpaid : intent.intentId ∉
          ((payments (matchedIntent lower pending) seenTx [] before).map fun payment =>
            payment.2.intentId).reverse ++ [] := by
        rw [List.append_nil, List.mem_reverse]
        intro done
        obtain ⟨⟨other, paid⟩, member, same⟩ := List.mem_map.mp done
        obtain ⟨_, given, _⟩ := of_mem_payments member
        obtain rfl := distinct paid (given_mem other paid given) intent (given_mem log intent matched) same
        exact earlier (List.mem_map_of_mem member)
      right
      rw [payments, if_neg unseen, matched, Option.filter_some, if_pos (by simpa using unpaid)]
      exact List.mem_cons_self

end

/-- The pending intents that a cycle fulfilled are, up to order, those that were paid. -/
theorem fulfilled_perm {lower : String → String} {w : World} {logs : List TransferLog} {now : Seconds}
    {seenTx : List String} :
    let pending := (exec (.pendingIntents now) w).1
    let paid := payments (matchedIntent lower pending) seenTx [] logs
    (pending.filter fun intent => (w.paid now paid).hasFulfilled intent).Perm (paid.map Prod.snd) := by
  intro pending paid
  have stored : w.intents.rows.Nodup := w.intents.unique.of_map _
  have ids : ((paid.map Prod.snd).map Intent.intentId).Nodup := by
    rw [List.map_map]
    exact nodup_payments
  have read : pending.Nodup := stored.filter _
  rw [List.perm_ext_iff_of_nodup (read.filter _) (ids.of_map _)]
  intro intent
  rw [List.mem_filter]
  constructor
  · rintro ⟨read, fulfilled⟩
    exact (hasFulfilled_paid (current_pendingIntents w now) given_mem read).mp fulfilled
  · intro made
    obtain ⟨⟨log, _⟩, member, rfl⟩ := List.mem_map.mp made
    have read := given_mem _ _ (of_mem_payments member).2.1
    exact ⟨read, (hasFulfilled_paid (current_pendingIntents w now) given_mem read).mpr made⟩

/-- No payment is ignored iff every paid intent is the last of its address, is paid by
a transaction that is not used otherwise, and has an account under its key. -/
theorem noPaymentIgnored_iff {lower : String → String} {w : World} {used : TransferLog → Prop}
    {logs : List TransferLog} {now : Seconds} {seenTx : List String} :
    NoPaymentIgnored lower w used logs now seenTx ↔
      ∀ intent ∈ (exec (.pendingIntents now) w).1, Paid lower (exec (.pendingIntents now) w).1 used logs intent →
        (w.creditOf intent.apiKey).isSome ∧
          Served lower (exec (.pendingIntents now) w).1 seenTx logs intent := by
  unfold NoPaymentIgnored
  apply forall_congr'
  intro intent
  apply forall_congr'
  intro read
  apply imp_congr_right
  intro _
  have current := current_pendingIntents w now
  obtain ⟨seen, cycle⟩ := run_usdcPollerCycle lower logs now seenTx w
  rw [cycle, Honoured, hasFulfilled_paid current given_mem read, mem_payments_iff_served current.distinct]
  constructor
  · rintro ⟨served, credit, held, _⟩
    exact ⟨by rw [held, Option.isSome_some], served⟩
  · rintro ⟨held, served⟩
    obtain ⟨credit, held⟩ := Option.isSome_iff_exists.mp held
    refine ⟨served, credit, held, ?_⟩
    rw [creditOf_paid, held, Option.map_some, ← List.filter_filter, fulfilled_perm.filter _ |>.map _ |>.sum_eq]

/-- `str.lower` of ASCII text. -/
def asciiLower (s : String) : String := String.ofList (s.toList.map Char.toLower)

def payer : String := "0xaaaaaaaaaaaaaaaaaaaaaaaaaaaaaaaaaaaaaaaa"

/-- A pending intent of the payer. -/
def intentFor (intentId : String) (trails : Int) : Intent :=
  ⟨intentId, "key", payer, trails, usdcPrice trails, .pending, none, 0, 3600, none⟩

def twoIntents : World :=
  { deposit with intents := ⟨[intentFor "first" 100, intentFor "second" 200], by decide⟩ }

/-- A transfer of the payer for 100 trails. -/
def transfer : TransferLog :=
  ⟨"0x01", 0, ["0xddf252ad1be2c89b69c2b068fc378daa952ba7f163c4a11628f55a4df523b3ef",
    "0x000000000000000000000000aaaaaaaaaaaaaaaaaaaaaaaaaaaaaaaaaaaaaaaa",
    "0x000000000000000000000000bbbbbbbbbbbbbbbbbbbbbbbbbbbbbbbbbbbbbbbb"], 300000⟩

/-- The transfer pays the first intent and no other, and is ignored. -/
theorem not_noPaymentIgnored_twoIntents :
    ¬ NoPaymentIgnored asciiLower twoIntents (fun _ => False) [transfer] 10 [] := by
  intro honoured
  have read : (exec (.pendingIntents 10) twoIntents).1 = [intentFor "first" 100, intentFor "second" 200] := by
    decide +kernel
  have paid : Paid asciiLower (exec (.pendingIntents 10) twoIntents).1 (fun _ => False) [transfer]
      (intentFor "first" 100) := by
    rw [read]
    refine ⟨transfer, List.mem_singleton_self _, id, by decide +kernel, ?_⟩
    simp only [List.mem_cons, List.not_mem_nil, or_false, forall_eq_or_imp, forall_eq]
    exact ⟨fun _ => trivial, fun pays => absurd pays (by decide +kernel)⟩
  have fulfilled := (honoured (intentFor "first" 100) (by rw [read]; exact List.mem_cons_self) paid).1
  exact absurd fulfilled (by decide +kernel)

end Argentum.Mycelium
