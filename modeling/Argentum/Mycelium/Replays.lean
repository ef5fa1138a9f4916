import Argentum.Mycelium.Anchor

/-! Receipts that are sent again. `POST /nexus/trail` asks of an action reference only
that it is the hash of the receipt. Each row leads to one anchor call, one credit of
karma and one billing event at most; a pair of agent and reference has one row iff no
receipt that the caps let through is recorded or charged again. -/
namespace Argentum.Mycelium
open Argentum Text Transition

def TrailRow.ofPair (agentId actionRef : String) (row : TrailRow) : Bool :=
  row.agentId = agentId ∧ row.actionRef = some actionRef

def AnchorThread.ofPair (agentId actionRef : String) (thread : AnchorThread) : Bool :=
  thread.agentId = agentId ∧ thread.actionRef = actionRef

def Receipt.ofPair (agentId actionRef : String) (receipt : Receipt) : Bool :=
  receipt.agentId = agentId ∧ receipt.actionRef = actionRef

/-- `get_trail_by_action_ref`: one of the rows that match. -/
def World.trailByActionRef (w : World) (agentId actionRef : String) : Option TrailRow :=
  w.trails.rows.find? (TrailRow.ofPair agentId actionRef)

def World.recorded (w : World) (agentId actionRef : String) : Nat :=
  w.trails.rows.countP (TrailRow.ofPair agentId actionRef)

/-- The billing events of the trails of a pair. -/
def World.billed (w : World) (agentId actionRef : String) : Nat :=
  w.billing.countP fun event => (w.trails.find? event.trailId).any (TrailRow.ofPair agentId actionRef)

/-- The credit that a request consumes for a receipt of the pair. -/
def Chain.consumed (chain : Chain) (agentId actionRef : String) (s : AnchorState) : AnchorStep → Int
  | .request trailId body now =>
      match readReceipt body with
      | .ok (.ok receipt) =>
          if receipt.ofPair agentId actionRef then
            s.world.totalCredit - (chain.step s (.request trailId body now)).world.totalCredit
          else 0
      | _ => 0
  | _ => 0

/-- The tables before any trail was recorded. -/
def World.unrecorded (w : World) : World :=
  { w with trails := .empty, billing := [], threads := [], anchorCalls := [] }

/-- Each pair of agent and action reference has one row at most, which is the one that is
looked up, and at most one anchor call, credit of karma, billing event and consumed credit. -/
def RecordedOnce (chain : Chain) (w : World) (steps : List AnchorStep) : Prop :=
  let start : AnchorState := ⟨⟨w.unrecorded, []⟩, [], []⟩
  let s := run chain.step start steps
  ∀ agentId actionRef,
    s.world.recorded agentId actionRef ≤ 1 ∧
    (∀ row ∈ s.world.trails.rows, row.ofPair agentId actionRef →
      s.world.trailByActionRef agentId actionRef = some row) ∧
    s.world.anchorCalls.countP (AnchorThread.ofPair agentId actionRef) ≤ 1 ∧
    s.credited.countP (AnchorThread.ofPair agentId actionRef) ≤ 1 ∧
    s.world.billed agentId actionRef ≤ 1 ∧
    total chain.step (chain.consumed agentId actionRef) start steps ≤ 1

/-- No receipt that the caps let through is recorded where its pair was recorded, or
charged where its pair was charged. -/
def FreshReceipts (chain : Chain) (w : World) (steps : List AnchorStep) : Prop :=
  let start : AnchorState := ⟨⟨w.unrecorded, []⟩, [], []⟩
  ∀ before trailId body now after receipt, steps = before ++ .request trailId body now :: after →
    readReceipt body = .ok (.ok receipt) →
    let s := run chain.step start before
    let asked := s.world.asked chain.settings receipt
    chain.settings.refuses asked now s.world = false →
      (asked.fits trailId now s.world = true → s.world.recorded receipt.agentId receipt.actionRef = 0) ∧
      ((s.world.payer? receipt.agentId).isSome →
        total chain.step (chain.consumed receipt.agentId receipt.actionRef) start before = 0)

section
variable {w after : World} {agentId actionRef : String} {now : Seconds}

theorem ofPair_iff_identity (row : TrailRow) : row.ofPair agentId actionRef =
    decide (row.identity.1 = agentId ∧ row.identity.2.1 = some actionRef) := rfl

/-- A statement of a call leaves what the rows say. -/
theorem Effect.recorded {call : AnchorCall} {stage later : Stage} (effect : Effect w call stage after later)
    (agentId actionRef : String) : after.recorded agentId actionRef = w.recorded agentId actionRef := by
  have updated : ∀ (named : String) (f : TrailRow → TrailRow) (keeps : ∀ row, Keyed.key (f row) = Keyed.key row),
      (∀ row, (f row).identity = row.identity) →
      (w.updateTrail named f keeps).recorded agentId actionRef = w.recorded agentId actionRef := by
    intro named f keeps same
    rw [World.recorded, World.updateTrail, Table.rows_update, List.countP_map]
    apply List.countP_congr
    intro row _
    rw [Function.comp_apply, ofPair_iff_identity, ofPair_iff_identity]
    split
    · rw [same]
    · rfl
  cases effect with
  | submit | confirm | fail => exact updated _ _ _ fun _ => rfl
  | _ => rfl

theorem Effect.billing {call : AnchorCall} {stage later : Stage} (effect : Effect w call stage after later) :
    after.billing = w.billing := by
  cases effect <;> rfl

theorem Effect.billed {call : AnchorCall} {stage later : Stage} (effect : Effect w call stage after later)
    (agentId actionRef : String) : after.billed agentId actionRef = w.billed agentId actionRef := by
  have said : ∀ (w : World) trailId, (w.trails.find? trailId).any (TrailRow.ofPair agentId actionRef) =
      ((w.trails.find? trailId).map TrailRow.identity).any fun said =>
        decide (said.1 = agentId ∧ said.2.1 = some actionRef) := by
    intro w trailId
    rw [Option.any_map]
    rfl
  rw [World.billed, World.billed, effect.billing]
  apply List.countP_congr
  intro event _
  rw [said, said, effect.identity]

theorem totalCredit_charged {account : Account} (found : w.payer? agentId = some account) :
    (w.charged account now).totalCredit = w.totalCredit - 1 := by
  obtain ⟨stored, _, payable⟩ := payer?_eq_some found
  have selects : ∀ row ∈ w.accounts.rows,
      (decide (row.apiKey = account.apiKey) && row.payable) = decide (row.apiKey = account.apiKey) := by
    intro row member
    by_cases same : row.apiKey = account.apiKey
    · have one : some row = some account := (Table.find?_eq_some_iff.mpr ⟨member, same⟩).symm.trans stored
      rw [Option.some.inj one, payable, Bool.and_true]
    · rw [decide_eq_false same, Bool.false_and]
  rw [World.charged]
  simp only [exec]
  rw [totalCredit_updateAccounts selects stored, Account.debit]
  dsimp only
  omega

theorem totalCredit_chargedFor : (w.chargedFor agentId now).totalCredit =
    w.totalCredit - if (w.payer? agentId).isSome then 1 else 0 := by
  unfold World.chargedFor
  cases found : w.payer? agentId with
  | none => simp
  | some account => exact totalCredit_charged found

theorem totalCredit_refundedFor : (w.refundedFor agentId now).totalCredit = w.totalCredit := by
  unfold World.refundedFor
  cases found : w.payer? agentId with
  | none => rfl
  | some account =>
      obtain ⟨stored, _, payable⟩ := payer?_eq_some found
      have held : (w.charged account now).accounts.find? account.apiKey = some (account.debit now) := by
        simp [World.charged, exec, World.updateAccounts, Table.find?_update, stored, payable]
      simp only [exec]
      rw [totalCredit_updateAccounts (fun _ _ => rfl) held, totalCredit_charged found, Account.credit]
      dsimp only
      omega

end

section
variable {chain : Chain} {s : AnchorState} {agentId actionRef trailId : String} {body : Json} {now : Seconds}
  {receipt : Receipt}

/-- What a receipt is answered with: it is refused, it is charged alone, or it is recorded. -/
theorem request_cases (chain : Chain) (s : AnchorState) (trailId : String) (now : Seconds)
    (read : readReceipt body = .ok (.ok receipt)) :
    let asked := s.world.asked chain.settings receipt
    let after := (chain.step s (.request trailId body now)).world
    (chain.settings.refuses asked now s.world = true ∧ after = s.world.refundedFor receipt.agentId now) ∨
    (chain.settings.refuses asked now s.world = false ∧ asked.fits trailId now s.world = false ∧
      after = s.world.chargedFor receipt.agentId now) ∨
    (chain.settings.refuses asked now s.world = false ∧ asked.fits trailId now s.world = true ∧
      Recorded (s.world.chargedFor receipt.agentId now) after trailId receipt) := by
  rcases nexusTrail_cases chain.settings trailId body now s.world with ⟨none, _⟩ | ⟨other, again, cases⟩
  · exact absurd read (none receipt)
  · rw [read] at again
    cases again
    exact cases

/-- A request that is no receipt changes nothing. -/
theorem request_unread (unread : ∀ receipt, readReceipt body ≠ .ok (.ok receipt)) :
    (chain.step s (.request trailId body now)).world = s.world := by
  rcases nexusTrail_cases chain.settings trailId body now s.world with ⟨_, same⟩ | ⟨receipt, read, _⟩
  · exact same
  · exact absurd read (unread receipt)

/-- The row of a receipt counts for its pair. -/
theorem Recorded.recorded {w after : World} (recorded : Recorded w after trailId receipt) (agentId actionRef : String) :
    after.recorded agentId actionRef =
      w.recorded agentId actionRef + if receipt.ofPair agentId actionRef then 1 else 0 := by
  obtain ⟨row, rows, _, agent, ref, _⟩ := recorded.trails
  have same : row.ofPair agentId actionRef = receipt.ofPair agentId actionRef := by
    simp only [TrailRow.ofPair, Receipt.ofPair, agent, ref, Option.some.injEq]
  rw [World.recorded, rows, List.countP_append, List.countP_singleton, same]
  rfl

theorem recorded_request (chain : Chain) (s : AnchorState) (trailId : String) (now : Seconds)
    (read : readReceipt body = .ok (.ok receipt)) (agentId actionRef : String) :
    (chain.step s (.request trailId body now)).world.recorded agentId actionRef =
      s.world.recorded agentId actionRef + if receipt.ofPair agentId actionRef ∧
        chain.settings.refuses (s.world.asked chain.settings receipt) now s.world = false ∧
        (s.world.asked chain.settings receipt).fits trailId now s.world = true then 1 else 0 := by
  rcases request_cases chain s trailId now read with ⟨refused, after⟩ | ⟨asked, unfit, after⟩ | ⟨asked, fit, recorded⟩
  · rw [after, World.recorded, trails_refundedFor]
    simp [World.recorded, refused]
  · rw [after, World.recorded, trails_chargedFor]
    simp [World.recorded, unfit]
  · rw [recorded.recorded, World.recorded, trails_chargedFor]
    simp [World.recorded, asked, fit]

theorem consumed_request (chain : Chain) (s : AnchorState) (trailId : String) (now : Seconds)
    (read : readReceipt body = .ok (.ok receipt)) (agentId actionRef : String) :
    chain.consumed agentId actionRef s (.request trailId body now) = if receipt.ofPair agentId actionRef ∧
      chain.settings.refuses (s.world.asked chain.settings receipt) now s.world = false ∧
      (s.world.payer? receipt.agentId).isSome then 1 else 0 := by
  rw [Chain.consumed, read]
  dsimp only
  cases pair : receipt.ofPair agentId actionRef with
  | false => simp
  | true =>
      rw [if_pos rfl]
      rcases request_cases chain s trailId now read with ⟨refused, after⟩ | ⟨asked, _, after⟩ | ⟨asked, _, recorded⟩
      · rw [after, totalCredit_refundedFor]
        simp [refused]
      · rw [after, totalCredit_chargedFor]
        simp [asked]
      · have charged : (chain.step s (.request trailId body now)).world.totalCredit =
            (s.world.chargedFor receipt.agentId now).totalCredit := by
          rw [recorded.frame]
          rfl
        rw [charged, totalCredit_chargedFor]
        simp [asked]

end

/-- A thread of the pair that has its anchor call to make. -/
def AnchorCall.calls (agentId actionRef : String) : AnchorCall → Stage → Bool
  | .anchor thread _ _ _, .broadcast => thread.ofPair agentId actionRef
  | _, _ => false

/-- A thread of the pair that may yet credit karma. -/
def AnchorCall.pays (agentId actionRef : String) : AnchorCall → Stage → Bool
  | .anchor thread _ _ _, .broadcast => thread.ofPair agentId actionRef
  | .anchor thread _ _ _, .submit => thread.ofPair agentId actionRef
  | .anchor thread _ _ _, .credit => thread.ofPair agentId actionRef
  | _, _ => false

/-- How many calls in flight have something to do. -/
def AnchorState.count (s : AnchorState) (p : AnchorCall → Stage → Bool) : Nat :=
  s.pool.processes.countP fun process => p process.call (stage process.program)

/-- What a row leads to is no more than the rows. -/
structure AnchorState.Traced (agentId actionRef : String) (s : AnchorState) : Prop where
  called : s.world.threads.countP (AnchorThread.ofPair agentId actionRef) +
    s.count (AnchorCall.calls agentId actionRef) +
    s.world.anchorCalls.countP (AnchorThread.ofPair agentId actionRef) ≤ s.world.recorded agentId actionRef
  credited : s.world.threads.countP (AnchorThread.ofPair agentId actionRef) +
    s.count (AnchorCall.pays agentId actionRef) +
    s.credited.countP (AnchorThread.ofPair agentId actionRef) ≤ s.world.recorded agentId actionRef
  billed : s.world.billed agentId actionRef ≤ s.world.recorded agentId actionRef
  events : ∀ event ∈ s.world.billing, (s.world.trails.find? event.trailId).isSome

section
variable {chain : Chain} {s : AnchorState} {agentId actionRef trailId : String} {body : Json} {now : Seconds}
  {receipt : Receipt}

/-- The billing event of a receipt counts for its pair, and the others as before. -/
theorem Recorded.billed {w after : World} (recorded : Recorded w after trailId receipt)
    (events : ∀ event ∈ w.billing, (w.trails.find? event.trailId).isSome) :
    after.billed agentId actionRef ≤
        w.billed agentId actionRef + (if receipt.ofPair agentId actionRef then 1 else 0) ∧
      ∀ event ∈ after.billing, (after.trails.find? event.trailId).isSome := by
  obtain ⟨row, named, identity, _, absent, found⟩ := recorded.find?
  have pair : row.ofPair agentId actionRef = receipt.ofPair agentId actionRef := by
    rw [ofPair_iff_identity, identity]
    simp only [Receipt.ofPair, Option.some.injEq]
  have kept : ∀ event ∈ w.billing, after.trails.find? event.trailId = w.trails.find? event.trailId := by
    intro event member
    rw [found, if_neg]
    intro same
    have there := events event member
    rw [← same, absent] at there
    cases there
  have before : w.billing.countP (fun event =>
      (after.trails.find? event.trailId).any (TrailRow.ofPair agentId actionRef)) = w.billed agentId actionRef := by
    apply List.countP_congr
    intro event member
    rw [kept event member]
  rcases recorded.billing with same | ⟨event, about, more⟩
  · constructor
    · rw [World.billed, same, before]
      exact Nat.le_add_right _ _
    · intro event member
      rw [same] at member
      rw [kept event member]
      exact events event member
  · have new : after.trails.find? event.trailId = some row := by rw [found, about, if_pos rfl]
    constructor
    · rw [World.billed, more, List.countP_append, before, List.countP_singleton, new, Option.any_some, pair]
    · intro other member
      rw [more] at member
      rcases List.mem_append.mp member with earlier | last
      · rw [kept other earlier]
        exact events other earlier
      · rw [List.mem_singleton.mp last, new, Option.isSome_some]

theorem AnchorState.Traced.request (traced : s.Traced agentId actionRef) (trailId : String) (body : Json)
    (now : Seconds) : (chain.step s (.request trailId body now)).Traced agentId actionRef := by
  obtain ⟨accounts, same | ⟨receipt, _, recorded⟩⟩ := nexusTrail_frame chain.settings trailId body now s.world
  · rw [Chain.step, same]
    exact ⟨traced.called, traced.credited, traced.billed, traced.events⟩
  have rows := recorded.recorded agentId actionRef
  obtain ⟨billed, events⟩ := @Recorded.billed agentId actionRef _ _ _ _ recorded traced.events
  have calls : ((nexusTrail chain.settings trailId body now).run s.world).2.anchorCalls = s.world.anchorCalls := by
    rw [recorded.frame]
  have threads : ((nexusTrail chain.settings trailId body now).run s.world).2.threads.countP
      (AnchorThread.ofPair agentId actionRef) ≤ s.world.threads.countP (AnchorThread.ofPair agentId actionRef) +
        if receipt.ofPair agentId actionRef then 1 else 0 := by
    rcases recorded.threads with same | started
    · rw [same]
      exact Nat.le_add_right _ _
    · rw [started, List.countP_append, List.countP_singleton]
      rfl
  have called := traced.called
  have credited := traced.credited
  have before := traced.billed
  change _ = s.world.recorded agentId actionRef + _ at rows
  change _ ≤ s.world.billed agentId actionRef + _ at billed
  constructor
  · change ((nexusTrail chain.settings trailId body now).run s.world).2.threads.countP
        (AnchorThread.ofPair agentId actionRef) + s.count (AnchorCall.calls agentId actionRef) +
        ((nexusTrail chain.settings trailId body now).run s.world).2.anchorCalls.countP
          (AnchorThread.ofPair agentId actionRef) ≤
      ((nexusTrail chain.settings trailId body now).run s.world).2.recorded agentId actionRef
    rw [rows, calls]
    omega
  · change ((nexusTrail chain.settings trailId body now).run s.world).2.threads.countP
        (AnchorThread.ofPair agentId actionRef) + s.count (AnchorCall.pays agentId actionRef) +
        s.credited.countP (AnchorThread.ofPair agentId actionRef) ≤
      ((nexusTrail chain.settings trailId body now).run s.world).2.recorded agentId actionRef
    rw [rows]
    omega
  · change ((nexusTrail chain.settings trailId body now).run s.world).2.billed agentId actionRef ≤
      ((nexusTrail chain.settings trailId body now).run s.world).2.recorded agentId actionRef
    rw [rows]
    omega
  · exact events

/-- A call that starts in a pool counts by its first statement. -/
theorem count_start (chain : Chain) (s : AnchorState) (p : AnchorCall → Stage → Bool) (call : AnchorCall) (w : World) :
    AnchorState.count { s with pool := ⟨w, s.pool.processes ++ [⟨call, call.code chain⟩]⟩ } p =
      s.count p + if p call (stage (call.code chain)) then 1 else 0 := by
  rw [AnchorState.count, List.countP_append, List.countP_singleton]
  rfl

theorem AnchorState.Traced.begin (traced : s.Traced agentId actionRef) (index : Nat) (tx : Option String)
    (now : Seconds) (lastAction : Community.Instant) :
    (chain.step s (.begin index tx now lastAction)).Traced agentId actionRef := by
  simp only [Chain.step]
  split
  · exact traced
  rename_i thread found
  have taken := @countP_eraseIdx_add _ (AnchorThread.ofPair agentId actionRef) _ _ _ found
  have called := traced.called
  have credited := traced.credited
  have first : stage (AnchorCall.code chain (.anchor thread tx now lastAction)) = .broadcast := by
    rw [code_anchor]
    rfl
  constructor
  · have started := count_start chain s (AnchorCall.calls agentId actionRef)
      (.anchor thread tx now lastAction) { s.world with threads := s.world.threads.eraseIdx index }
    rw [first, AnchorCall.calls] at started
    rw [started]
    change (s.world.threads.eraseIdx index).countP _ + _ + s.world.anchorCalls.countP _ ≤
      s.world.recorded agentId actionRef
    omega
  · have started := count_start chain s (AnchorCall.pays agentId actionRef)
      (.anchor thread tx now lastAction) { s.world with threads := s.world.threads.eraseIdx index }
    rw [first, AnchorCall.pays] at started
    rw [started]
    change (s.world.threads.eraseIdx index).countP _ + _ + s.credited.countP _ ≤ s.world.recorded agentId actionRef
    omega
  · exact traced.billed
  · exact traced.events

theorem AnchorState.Traced.check (traced : s.Traced agentId actionRef) (receipt : Except Raised Json) (now : Seconds) :
    (chain.step s (.check receipt now)).Traced agentId actionRef := by
  simp only [Chain.step]
  split
  · rename_i row rest _ _
    constructor
    · have still := count_start chain s (AnchorCall.calls agentId actionRef) (.check row receipt now) s.world
      change s.world.threads.countP _ + _ + s.world.anchorCalls.countP _ ≤ s.world.recorded agentId actionRef
      exact (congrArg (s.world.threads.countP _ + · + _) still).trans_le traced.called
    · have still := count_start chain s (AnchorCall.pays agentId actionRef) (.check row receipt now) s.world
      change s.world.threads.countP _ + _ + s.credited.countP _ ≤ s.world.recorded agentId actionRef
      exact (congrArg (s.world.threads.countP _ + · + _) still).trans_le traced.credited
    · exact traced.billed
    · exact traced.events
  · exact traced

/-- A statement does no more than its call had yet to do. -/
theorem Effect.calls {w after : World} {call : AnchorCall} {stage later : Stage}
    (effect : Effect w call stage after later) (agentId actionRef : String) :
    after.anchorCalls.countP (AnchorThread.ofPair agentId actionRef) +
        (if call.calls agentId actionRef later then 1 else 0) ≤
      w.anchorCalls.countP (AnchorThread.ofPair agentId actionRef) +
        (if call.calls agentId actionRef stage then 1 else 0) := by
  cases effect with
  | broadcast next =>
      simp only [exec]
      rw [List.countP_append, List.countP_singleton]
      rcases next with rfl | rfl <;> exact Nat.le_refl _
  | submit _ next => rcases next with rfl | rfl | rfl <;> exact Nat.le_refl _
  | credit next => rcases next with rfl | rfl <;> exact Nat.le_refl _
  | ask next _ => rcases next with rfl | rfl <;> exact Nat.le_refl _
  | _ => exact Nat.le_refl _

theorem Effect.pays {w after : World} {call : AnchorCall} {stage later : Stage}
    (effect : Effect w call stage after later) (agentId actionRef : String) :
    (call.credits stage).countP (AnchorThread.ofPair agentId actionRef) +
        (if call.pays agentId actionRef later then 1 else 0) ≤ if call.pays agentId actionRef stage then 1 else 0 := by
  cases effect with
  | broadcast next =>
      rcases next with rfl | rfl
      · exact (Nat.zero_add _).le
      · exact Nat.zero_le _
  | submit _ next =>
      rcases next with rfl | rfl | rfl
      · exact (Nat.zero_add _).le
      · exact Nat.zero_le _
      · exact Nat.zero_le _
  | credit next => rcases next with rfl | rfl <;> exact List.countP_singleton.le
  | ask next _ => rcases next with rfl | rfl <;> exact Nat.le_refl _
  | _ => exact Nat.le_refl _

theorem AnchorState.Traced.advance (traced : s.Traced agentId actionRef) (runs : s.pool.Runs (AnchorCall.code chain))
    (index : Nat) : (chain.step s (.advance index)).Traced agentId actionRef := by
  rcases advance_cases runs index with ⟨call, program, w, left, found, effect, stepped⟩ | still
  · have rows := effect.recorded agentId actionRef
    have threads := effect.threads
    have calls := effect.calls agentId actionRef
    have pays := effect.pays agentId actionRef
    have called := traced.called
    have credited := traced.credited
    have replaced := fun p : AnchorCall → Stage → Bool =>
      @countP_set_add _ (fun process : Process AnchorCall Sql (Except Raised Unit) =>
        p process.call (stage process.program)) _ _ _ ⟨call, left⟩ found
    rw [stepped]
    constructor
    · have count := replaced (AnchorCall.calls agentId actionRef)
      change _ = s.count _ + _ at count
      dsimp only at count
      change w.threads.countP (AnchorThread.ofPair agentId actionRef) +
        (s.pool.processes.set index ⟨call, left⟩).countP
          (fun process => process.call.calls agentId actionRef (stage process.program)) +
        w.anchorCalls.countP (AnchorThread.ofPair agentId actionRef) ≤ w.recorded agentId actionRef
      rw [threads, rows]
      omega
    · have count := replaced (AnchorCall.pays agentId actionRef)
      change _ = s.count _ + _ at count
      dsimp only at count
      change w.threads.countP (AnchorThread.ofPair agentId actionRef) +
        (s.pool.processes.set index ⟨call, left⟩).countP
          (fun process => process.call.pays agentId actionRef (stage process.program)) +
        (s.credited ++ call.credits (stage program)).countP (AnchorThread.ofPair agentId actionRef) ≤
          w.recorded agentId actionRef
      rw [threads, rows, List.countP_append]
      omega
    · change w.billed agentId actionRef ≤ w.recorded agentId actionRef
      rw [effect.billed, rows]
      exact traced.billed
    · intro event member
      have kept : event ∈ s.world.billing := effect.billing ▸ member
      rw [← Option.isSome_map (f := TrailRow.identity)]
      change ((w.trails.find? event.trailId).map TrailRow.identity).isSome
      rw [effect.identity, Option.isSome_map]
      exact traced.events event kept
  · rwa [still]

/-- What the rows lead to is kept by every step. -/
theorem AnchorState.Traced.step (traced : s.Traced agentId actionRef) (runs : s.pool.Runs (AnchorCall.code chain))
    (step : AnchorStep) : (chain.step s step).Traced agentId actionRef := by
  cases step with
  | request trailId body now => exact traced.request trailId body now
  | begin index tx now lastAction => exact traced.begin index tx now lastAction
  | poll =>
      simp only [Chain.step]
      split
      · exact ⟨traced.called, traced.credited, traced.billed, traced.events⟩
      · exact traced
  | check receipt now => exact traced.check receipt now
  | advance index => exact traced.advance runs index

/-- A step that records for a pair is a request for it that the caps let through. -/
theorem recorded_step (runs : s.pool.Runs (AnchorCall.code chain)) (step : AnchorStep) (agentId actionRef : String) :
    (chain.step s step).world.recorded agentId actionRef = s.world.recorded agentId actionRef ∨
    ∃ trailId body now receipt, step = .request trailId body now ∧ readReceipt body = .ok (.ok receipt) ∧
      receipt.ofPair agentId actionRef ∧
      chain.settings.refuses (s.world.asked chain.settings receipt) now s.world = false ∧
      (s.world.asked chain.settings receipt).fits trailId now s.world = true ∧
      (chain.step s step).world.recorded agentId actionRef = s.world.recorded agentId actionRef + 1 := by
  cases step with
  | request trailId body now =>
      by_cases unread : ∀ receipt, readReceipt body ≠ .ok (.ok receipt)
      · rw [request_unread unread]
        exact Or.inl rfl
      · obtain ⟨receipt, read⟩ := not_forall.mp unread
        have read := not_not.mp read
        have rows := recorded_request chain s trailId now read agentId actionRef
        split at rows
        · rename_i admitted
          exact Or.inr ⟨trailId, body, now, receipt, rfl, read, admitted.1, admitted.2.1, admitted.2.2, rows⟩
        · exact Or.inl rows
  | begin index tx now lastAction =>
      simp only [Chain.step]
      split <;> exact Or.inl rfl
  | poll =>
      simp only [Chain.step]
      split <;> exact Or.inl rfl
  | check receipt now =>
      simp only [Chain.step]
      split <;> exact Or.inl rfl
  | advance index =>
      rcases advance_cases runs index with ⟨call, program, w, left, _, effect, stepped⟩ | still
      · rw [stepped]
        exact Or.inl (effect.recorded agentId actionRef)
      · rw [still]
        exact Or.inl rfl

/-- A step that consumes a credit for a pair is a request for it that the caps let through. -/
theorem consumed_step (chain : Chain) (s : AnchorState) (step : AnchorStep) (agentId actionRef : String) :
    chain.consumed agentId actionRef s step = 0 ∨
    ∃ trailId body now receipt, step = .request trailId body now ∧ readReceipt body = .ok (.ok receipt) ∧
      receipt.ofPair agentId actionRef ∧
      chain.settings.refuses (s.world.asked chain.settings receipt) now s.world = false ∧
      (s.world.payer? receipt.agentId).isSome ∧ chain.consumed agentId actionRef s step = 1 := by
  cases step with
  | request trailId body now =>
      by_cases unread : ∀ receipt, readReceipt body ≠ .ok (.ok receipt)
      · left
        rw [Chain.consumed]
        split
        · rename_i receipt read
          exact absurd read (unread receipt)
        · rfl
      · obtain ⟨receipt, read⟩ := not_forall.mp unread
        have read := not_not.mp read
        have taken := consumed_request chain s trailId now read agentId actionRef
        split at taken
        · rename_i admitted
          exact Or.inr ⟨trailId, body, now, receipt, rfl, read, admitted.1, admitted.2.1, admitted.2.2, taken⟩
        · exact Or.inl taken
  | begin | poll | check | advance => exact Or.inl rfl

end

section
variable {chain : Chain} {start : AnchorState}

theorem runs_run (runs : start.pool.Runs (AnchorCall.code chain)) (steps : List AnchorStep) :
    (run chain.step start steps).pool.Runs (AnchorCall.code chain) :=
  run_invariant (P := fun s : AnchorState => s.pool.Runs (AnchorCall.code chain))
    (fun _ step runs => runs_step runs step) steps runs

/-- Rows stay. -/
theorem recorded_le (runs : start.pool.Runs (AnchorCall.code chain)) (steps : List AnchorStep)
    (agentId actionRef : String) :
    start.world.recorded agentId actionRef ≤ (run chain.step start steps).world.recorded agentId actionRef := by
  induction steps generalizing start with
  | nil => exact Nat.le_refl _
  | cons step rest ih =>
      apply Nat.le_trans ?_ (ih (runs_step runs step))
      rcases recorded_step runs step agentId actionRef with same | ⟨_, _, _, _, _, _, _, _, _, more⟩ <;> omega

/-- No step gives a consumed credit back. -/
theorem consumed_nonneg (chain : Chain) (start : AnchorState) (steps : List AnchorStep) (agentId actionRef : String) :
    0 ≤ total chain.step (chain.consumed agentId actionRef) start steps := by
  induction steps generalizing start with
  | nil => exact Int.le_refl _
  | cons step rest ih =>
      have later := ih (chain.step start step)
      rw [total]
      rcases consumed_step chain start step agentId actionRef with
        none | ⟨_, _, _, _, _, _, _, _, _, one⟩ <;> omega

end

/-- The state before any trail was recorded. -/
theorem traced_unrecorded (chain : Chain) (w : World) (agentId actionRef : String) :
    let start : AnchorState := ⟨⟨w.unrecorded, []⟩, [], []⟩
    start.pool.Runs (AnchorCall.code chain) ∧ start.Traced agentId actionRef := by
  constructor
  · intro process member
    cases member
  · constructor
    · exact Nat.le_refl _
    · exact Nat.le_refl _
    · exact Nat.le_refl _
    · intro event member
      cases member

/-- Where every receipt is fresh, a pair is recorded and charged once at most. -/
theorem FreshReceipts.once {chain : Chain} {w : World} {steps : List AnchorStep} (fresh : FreshReceipts chain w steps)
    (agentId actionRef : String) :
    let start : AnchorState := ⟨⟨w.unrecorded, []⟩, [], []⟩
    (run chain.step start steps).world.recorded agentId actionRef ≤ 1 ∧
      total chain.step (chain.consumed agentId actionRef) start steps ≤ 1 := by
  intro start
  induction steps using List.reverseRecOn with
  | nil => exact ⟨Nat.zero_le 1, Int.le_of_lt Int.one_pos⟩
  | append_singleton before step ih =>
      have earlier : FreshReceipts chain w before := by
        intro first trailId body now after receipt split
        apply fresh first trailId body now (after ++ [step]) receipt
        rw [split, List.append_assoc, List.cons_append]
      obtain ⟨rows, consumed⟩ := ih earlier
      have runs : (run chain.step start before).pool.Runs (AnchorCall.code chain) :=
        runs_run (traced_unrecorded chain w agentId actionRef).1 before
      constructor
      · rw [run_concat]
        rcases recorded_step runs step agentId actionRef with
          same | ⟨trailId, body, now, receipt, rfl, read, pair, asked, fit, more⟩
        · rwa [same]
        · obtain ⟨rfl, rfl⟩ := of_decide_eq_true pair
          rw [more, (fresh before trailId body now [] receipt rfl read asked).1 fit]
      · rw [total_concat]
        rcases consumed_step chain (run chain.step start before) step agentId actionRef with
          none | ⟨trailId, body, now, receipt, rfl, read, pair, asked, payer, one⟩
        · rwa [none, add_zero]
        · obtain ⟨rfl, rfl⟩ := of_decide_eq_true pair
          rw [one, (fresh before trailId body now [] receipt rfl read asked).2 payer]
          exact Int.le_refl _

/-- A pair is recorded once, and leads to one of each of its effects, iff no receipt that
the caps let through is recorded or charged again. -/
theorem recordedOnce_iff (chain : Chain) (w : World) (steps : List AnchorStep) :
    RecordedOnce chain w steps ↔ FreshReceipts chain w steps := by
  constructor
  · rintro once before trailId body now after receipt rfl read s asked admitted
    have start := traced_unrecorded chain w receipt.agentId receipt.actionRef
    obtain ⟨rows, _, _, _, _, consumed⟩ := once receipt.agentId receipt.actionRef
    have runs : s.pool.Runs (AnchorCall.code chain) := runs_run start.1 before
    have pair : receipt.ofPair receipt.agentId receipt.actionRef := decide_eq_true ⟨rfl, rfl⟩
    constructor
    · intro fit
      have more := recorded_request chain s trailId now read receipt.agentId receipt.actionRef
      rw [if_pos ⟨pair, admitted, fit⟩] at more
      have kept := recorded_le (runs_step runs (.request trailId body now)) after receipt.agentId receipt.actionRef
      rw [run_append, run_cons] at rows
      have last := kept.trans rows
      rw [more] at last
      omega
    · intro payer
      have one := consumed_request chain s trailId now read receipt.agentId receipt.actionRef
      rw [if_pos ⟨pair, admitted, payer⟩] at one
      have earlier := consumed_nonneg chain ⟨⟨w.unrecorded, []⟩, [], []⟩ before receipt.agentId receipt.actionRef
      have later := consumed_nonneg chain (chain.step s (.request trailId body now)) after
        receipt.agentId receipt.actionRef
      rw [total_append, total] at consumed
      change _ + (chain.consumed _ _ s (.request trailId body now) + total _ _ (chain.step s _) after) ≤ 1 at consumed
      rw [one] at consumed
      omega
  · intro fresh agentId actionRef
    obtain ⟨rows, consumed⟩ := fresh.once agentId actionRef
    obtain ⟨_, traced⟩ := run_invariant
      (P := fun s : AnchorState => s.pool.Runs (AnchorCall.code chain) ∧ s.Traced agentId actionRef)
      (fun s step kept => ⟨runs_step kept.1 step, kept.2.step kept.1 step⟩) steps
      (traced_unrecorded chain w agentId actionRef)
    have called := traced.called
    have credited := traced.credited
    refine ⟨rows, ?_, by omega, by omega, traced.billed.trans rows, consumed⟩
    intro row member pair
    exact find?_of_countP_le_one rows member pair

/-- A chain that confirms no block. -/
def unconfirmed : Chain := ⟨deployed, fun _ => none, 900⟩

/-- The same receipt, sent twice. -/
def resent : List AnchorStep :=
  [.request "first" (receiptOf .null .null) 100, .request "second" (receiptOf .null .null) 110]

/-- What is recorded once is one row of its pair. -/
theorem RecordedOnce.rows {chain : Chain} {w : World} {steps : List AnchorStep} (once : RecordedOnce chain w steps) :
    let s := run chain.step ⟨⟨w.unrecorded, []⟩, [], []⟩ steps
    s.world.trails.rows.all (fun row => row.actionRef.all fun ref => s.world.recorded row.agentId ref ≤ 1) = true := by
  intro s
  apply List.all_eq_true.mpr
  intro row member
  cases row.actionRef with
  | none => rfl
  | some ref => exact decide_eq_true (once row.agentId ref).1

/-- The receipt has two rows. -/
theorem not_recordedOnce_resent : ¬ RecordedOnce unconfirmed oneCredit resent :=
  fun once => absurd once.rows (by decide +kernel)

end Argentum.Mycelium
