import Argentum.Mycelium.Poller

/-! The poller across restarts. A run creates intents, starts cycles, processes logs
and dies anywhere. The intents and the credit are durable, the set of used
transactions is not: it keeps a process from using a log twice, and does not keep it
from using one that an earlier process used. -/
namespace Argentum.Mycelium
open Argentum Text Transition

/-- The tables, what the process remembers, and the logs under which intents were
fulfilled, with the intents as they were: by the processes before this one, and by this
one. -/
structure PollerState where
  world : World
  seenTx : List String
  intents : List Intent
  before : List (TransferLog × Intent)
  since : List (TransferLog × Intent)

def PollerState.history (s : PollerState) : List (TransferLog × Intent) := s.before ++ s.since

/-- A request creates an intent, a cycle begins with the intents it reads, the cycle
processes a log, or the process dies within that and starts again. -/
inductive PollerStep where
  | create (intentId : String) (apiKey : Str) (trails : Int) (fromAddress : Str) (now : Seconds)
  | poll (now : Seconds)
  | log (log : TransferLog) (now : Seconds)
  | crash (log : TransferLog) (now : Seconds) (statements : Nat)

/-- The intents that are pending before and fulfilled after. -/
def turned (before after : World) : List Intent :=
  before.intents.rows.filter fun row => row.status = .pending && after.hasFulfilled row

def PollerState.step (lower : String → String) (s : PollerState) : PollerStep → PollerState
  | .create intentId apiKey trails fromAddress now =>
      { s with world := ((paygTopupUsdc lower intentId apiKey trails fromAddress now).run s.world).2 }
  | .poll now => { s with intents := (exec (.pendingIntents now) s.world).1 }
  | .log log now =>
      let ended := (pollLog lower s.intents now log s.seenTx).run s.world
      { s with
        world := ended.2
        seenTx := ended.1.toOption.getD s.seenTx
        since := s.since ++ (turned s.world ended.2).map fun intent => (log, intent) }
  | .crash log now statements =>
      let left := (pollLog lower s.intents now log s.seenTx).cut statements s.world
      { world := left
        seenTx := []
        intents := []
        before := s.history ++ (turned s.world left).map fun intent => (log, intent)
        since := [] }

/-- A cycle is its first step and one step for each of its logs. -/
theorem run_cycle {lower : String → String} {now : Seconds} (logs : List TransferLog) (s : PollerState) :
    ((usdcPollerCycle lower logs now s.seenTx).run s.world).2 =
      (run (PollerState.step lower) s (.poll now :: logs.map fun log => .log log now)).world := by
  have loop : ∀ (logs : List TransferLog) (s : PollerState),
      ((pollLogs lower s.intents now logs s.seenTx).run s.world).2 =
        (run (PollerState.step lower) s (logs.map fun log => .log log now)).world := by
    intro logs
    induction logs with
    | nil => exact fun s => rfl
    | cons log rest ih =>
        intro s
        obtain ⟨seen, after, ended⟩ := pollLog_ends lower s.intents now log s.seenTx s.world
        rw [pollLogs, Script.run_bind, List.map_cons, run_cons, ← ih, ended]
        simp only [PollerState.step, ended]
        rfl
  obtain ⟨_, cycle⟩ := run_usdcPollerCycle lower logs now s.seenTx s.world
  obtain ⟨_, looped⟩ := run_pollLogs logs s.seenTx (current_pendingIntents s.world now)
  rw [run_cons, ← loop, cycle]
  exact (congrArg Prod.snd looped).symm

/-- The log fulfilled an intent before the process started, and no log of its transaction
fulfilled one since. -/
def PollerState.Forgotten (s : PollerState) (log : TransferLog) : Prop :=
  log ∈ s.before.map Prod.fst ∧ ∀ payment ∈ s.since, payment.1.transactionHash ≠ log.transactionHash

/-- No pending intent of the cycle is for a log that an earlier process used. -/
def NotReplayed (lower : String → String) (s : PollerState) : PollerStep → Prop
  | .create .. => True
  | .poll _ => True
  | .log log _ => s.Forgotten log →
      ((matchedIntent lower s.intents log).bind fun intent => s.world.pending? intent.intentId) = none
  | .crash log _ statements => 1 < statements → s.Forgotten log →
      ((matchedIntent lower s.intents log).bind fun intent => s.world.pending? intent.intentId) = none

def PollerStep.dies : PollerStep → Bool
  | .crash .. => true
  | _ => false

/-- Nothing is replayed in the runs in which no process dies. -/
theorem notReplayed_of_alive {lower : String → String} {start : PollerState} {steps : List PollerStep}
    (first : start.before = []) (alive : ∀ step ∈ steps, step.dies = false) :
    Admits (PollerState.step lower) (NotReplayed lower) start steps := by
  induction steps generalizing start with
  | nil => trivial
  | cons step rest ih =>
      obtain ⟨lives, later⟩ := List.forall_mem_cons.mp alive
      cases step with
      | create | poll => exact ⟨trivial, ih first later⟩
      | log log now => exact ⟨fun forgotten => by simp [first, PollerState.Forgotten] at forgotten, ih first later⟩
      | crash => cases lives

/-- Each log fulfilled one intent at most, which it pays, and the credit that was added
is no more than the trails of the intents that were paid. -/
def PaidOnce (lower : String → String) (start : PollerState) (steps : List PollerStep) : Prop :=
  let s := run (PollerState.step lower) start steps
  (s.history.map Prod.fst).Nodup ∧ (∀ payment ∈ s.history, payment.1.pays lower payment.2 = true) ∧
    s.world.totalCredit - start.world.totalCredit ≤ (s.history.map fun payment => payment.2.trails).sum

section
variable {w : World} {intent : Intent} {txHash : String} {now : Seconds}

/-- The tables after an intent is marked, before its account is credited. -/
def World.marked (w : World) (intent : Intent) (txHash : String) (now : Seconds) : World :=
  (exec (.markFulfilled intent.intentId txHash now) w).2

/-- The statements under a log that is given to an intent. -/
def giving (log : TransferLog) (intentId : String) (now : Seconds) (seenTx : List String) :
    Program Sql (Except Raised (List String)) :=
  .perform (.pendingIntent intentId) fun found =>
    match found with
    | none => .done (.ok seenTx)
    | some intent =>
        .perform (.markFulfilled intentId log.transactionHash now) fun _ =>
          .perform (.addCredit intent.apiKey intent.trails now) fun _ =>
            .perform (.account intent.apiKey) fun _ => .done (.ok (log.transactionHash :: seenTx))

theorem pollLog_given {lower : String → String} {intents : List Intent} {log : TransferLog}
    {seenTx : List String} (unused : log.transactionHash ∉ seenTx)
    (given : matchedIntent lower intents log = some intent) :
    ExceptT.run (pollLog lower intents now log seenTx) = giving log intent.intentId now seenTx := by
  rw [pollLog, if_neg unused, given]
  change Program.perform _ _ = Program.perform _ _
  congr 1
  funext found
  cases found <;> rfl

/-- Where the statements are cut, nothing was written yet, or the intent was marked, or
credited as well. -/
theorem cut_giving (w : World) (now : Seconds) (log : TransferLog) (intentId : String) (seenTx : List String)
    (statements : Nat) :
    (giving log intentId now seenTx).cut exec statements w = w ∨
      (1 < statements ∧ ∃ row, w.pending? intentId = some row ∧
        ((giving log intentId now seenTx).cut exec statements w = w.marked row log.transactionHash now ∨
          (giving log intentId now seenTx).cut exec statements w = w.fulfilled row log.transactionHash now)) := by
  cases statements with
  | zero => exact Or.inl rfl
  | succ statements =>
      have answered : (giving log intentId now seenTx).cut exec (statements + 1) w =
          Program.cut exec statements (match w.pending? intentId with
            | none => .done (.ok seenTx)
            | some intent =>
                .perform (.markFulfilled intentId log.transactionHash now) fun _ =>
                  .perform (.addCredit intent.apiKey intent.trails now) fun _ =>
                    .perform (.account intent.apiKey) fun _ =>
                      .done (.ok (log.transactionHash :: seenTx)) : Program Sql (Except Raised (List String))) w :=
        rfl
      rw [answered]
      cases stillPending : w.pending? intentId with
      | none =>
          left
          cases statements <;> rfl
      | some row =>
          obtain ⟨_, rfl, _⟩ := World.pending?_eq_some stillPending
          rcases statements with _ | _ | statements
          · exact Or.inl rfl
          · exact Or.inr ⟨by omega, row, rfl, Or.inl rfl⟩
          · refine Or.inr ⟨by omega, row, rfl, Or.inr ?_⟩
            rcases statements with _ | _ | statements <;> rfl

theorem cut_pollLog (lower : String → String) (intents : List Intent) (now : Seconds) (log : TransferLog)
    (seenTx : List String) (w : World) (statements : Nat) :
    (pollLog lower intents now log seenTx).cut statements w = w ∨
      (1 < statements ∧ log.transactionHash ∉ seenTx ∧ ∃ given row,
        matchedIntent lower intents log = some given ∧ w.pending? given.intentId = some row ∧
        ((pollLog lower intents now log seenTx).cut statements w = w.marked row log.transactionHash now ∨
          (pollLog lower intents now log seenTx).cut statements w = w.fulfilled row log.transactionHash now)) := by
  by_cases used : log.transactionHash ∈ seenTx
  · left
    rw [pollLog, if_pos used]
    cases statements <;> rfl
  cases given : matchedIntent lower intents log with
  | none =>
      left
      rw [pollLog, if_neg used, given]
      cases statements <;> rfl
  | some intent =>
      rw [Script.cut, pollLog_given used given]
      rcases cut_giving w now log intent.intentId seenTx statements with still | ⟨later, row, stillPending, left⟩
      · exact Or.inl still
      · exact Or.inr ⟨later, used, intent, row, rfl, stillPending, left⟩

/-- The one intent that turns is the one that is marked. -/
theorem turned_fulfilled (stillPending : w.pending? intent.intentId = some intent) :
    turned w (w.fulfilled intent txHash now) = [intent] := by
  obtain ⟨found, _, pending⟩ := World.pending?_eq_some stillPending
  apply List.perm_singleton.mp
  rw [turned, List.perm_ext_iff_of_nodup ((w.intents.unique.of_map _).filter _) (List.nodup_singleton _)]
  intro row
  rw [List.mem_filter, List.mem_singleton, Bool.and_eq_true, decide_eq_true_eq, hasFulfilled_iff, find?_fulfilled,
    pending?_fulfilled]
  constructor
  · rintro ⟨stored, waiting, _, closed⟩
    have named : w.intents.find? row.intentId = some row := Table.find?_eq_some_iff.mpr ⟨stored, rfl⟩
    split at closed
    · rename_i same
      rw [← same, found] at named
      exact (Option.some.inj named).symm
    · rw [World.pending?, named, Option.filter_some, if_pos (by simpa using waiting)] at closed
      cases closed
  · rintro rfl
    exact ⟨Table.find?_mem found, pending, by simp [found], by simp⟩

theorem turned_self : turned w w = [] := by
  apply List.filter_eq_nil_iff.mpr
  intro row stored both
  have named : w.intents.find? row.intentId = some row := Table.find?_eq_some_iff.mpr ⟨stored, rfl⟩
  simp only [World.hasFulfilled, named, Option.any_some, Bool.and_eq_true, decide_eq_true_eq] at both
  exact absurd (both.1.symm.trans both.2) (by decide)

theorem totalCredit_addCredit (apiKey : String) {trails : Int} (nonneg : 0 ≤ trails) :
    (exec (.addCredit apiKey trails now) w).2.totalCredit ≤ w.totalCredit + trails := by
  cases found : w.accounts.find? apiKey with
  | none =>
      have absent := Table.find?_eq_none_iff.mp found
      have same : (exec (.addCredit apiKey trails now) w).2.accounts.rows = w.accounts.rows := by
        refine (List.map_congr_left fun row stored => ?_).trans (List.map_id _)
        exact if_neg fun same => absent row stored (of_decide_eq_true same)
      rw [World.totalCredit, same, World.totalCredit]
      omega
  | some row =>
      simp only [exec]
      rw [totalCredit_updateAccounts (fun _ _ => rfl) found, Account.credit]
      dsimp only
      omega

/-- What a creation does to the tables: nothing, or it adds an intent for a number of
trails that is not negative. -/
theorem run_paygTopupUsdc (lower : String → String) (intentId : String) (apiKey fromAddress : Str) (trails : Int)
    (now : Seconds) (w : World) :
    ((paygTopupUsdc lower intentId apiKey trails fromAddress now).run w).2 = w ∨
      ∃ row next, 0 ≤ row.trails ∧ w.intents.insert? row = some next ∧
        ((paygTopupUsdc lower intentId apiKey trails fromAddress now).run w).2 = { w with intents := next } := by
  rw [paygTopupUsdc]
  split
  · exact Or.inl rfl
  rename_i amount
  split
  · exact Or.inl rfl
  rw [Script.run_bind, Script.run_bound]
  cases bindStr apiKey with
  | error raised => exact Or.inl rfl
  | ok key =>
      dsimp only
      rw [getPaygAccount, Script.run_sql_bind]
      split
      · exact Or.inl rfl
      rw [Script.run_bind, Script.run_bound]
      cases bindStr fromAddress with
      | error raised => exact Or.inl rfl
      | ok address =>
          dsimp only
          rw [Script.run_bind, createUsdcIntent, Script.run_bind, Script.run_sqlOrRaise]
          simp only [exec]
          rcases Option.eq_none_or_eq_some (w.intents.insert? _) with taken | ⟨next, inserted⟩
          · rw [taken]
            exact Or.inl rfl
          · rw [inserted]
            refine Or.inr ⟨_, next, ?_, inserted, rfl⟩
            dsimp only
            omega

end

/-- What the run keeps: each log is used once and pays its intent, the process knows the
transactions it used, the intents of the cycle are stored, and the credit is covered by
what was paid. -/
structure PollerState.Sound (lower : String → String) (begun : Int) (s : PollerState) : Prop where
  once : (s.history.map Prod.fst).Nodup
  known : ∀ payment ∈ s.since, payment.1.transactionHash ∈ s.seenTx
  pays : ∀ payment ∈ s.history, payment.1.pays lower payment.2 = true
  amounts : ∀ row ∈ s.world.intents.rows, 0 ≤ row.trails
  read : ∀ intent ∈ s.intents, ∃ row, s.world.intents.find? intent.intentId = some row ∧
    row.fromAddress = intent.fromAddress ∧ row.usdcAmount = intent.usdcAmount
  covered : s.world.totalCredit ≤ begun + (s.history.map fun payment => payment.2.trails).sum

section
variable {lower : String → String} {begun : Int} {s : PollerState}

/-- A process that does not know the transaction of a log did not use the log itself. -/
theorem PollerState.Sound.forgotten (sound : s.Sound lower begun) {log : TransferLog}
    (unknown : log.transactionHash ∉ s.seenTx) (used : log ∈ s.history.map Prod.fst) : s.Forgotten log := by
  have apart : ∀ payment ∈ s.since, payment.1.transactionHash ≠ log.transactionHash :=
    fun payment member same => unknown (same ▸ sound.known payment member)
  rw [PollerState.history, List.map_append, List.mem_append] at used
  rcases used with earlier | own
  · exact ⟨earlier, apart⟩
  · obtain ⟨payment, member, rfl⟩ := List.mem_map.mp own
    exact absurd rfl (apart payment member)

/-- A log that was not used pays the intent it is given to. -/
theorem PollerState.Sound.pay (sound : s.Sound lower begun) {log : TransferLog} {given row : Intent}
    {next : PollerState} (now : Seconds) (matched : matchedIntent lower s.intents log = some given)
    (stillPending : s.world.pending? given.intentId = some row) (unused : log ∉ s.history.map Prod.fst)
    (marked : next.world.intents = (s.world.fulfilled row log.transactionHash now).intents)
    (credited : next.world.totalCredit ≤ s.world.totalCredit + row.trails)
    (kept : ∀ intent ∈ next.intents, intent ∈ s.intents)
    (history : next.history = s.history ++ (turned s.world next.world).map fun intent => (log, intent))
    (known : ∀ payment ∈ next.since, payment.1.transactionHash ∈ next.seenTx) : next.Sound lower begun := by
  obtain ⟨found, named, _⟩ := World.pending?_eq_some stillPending
  have one : turned s.world next.world = [row] := by
    have same : turned s.world next.world = turned s.world (s.world.fulfilled row log.transactionHash now) := by
      simp only [turned, World.hasFulfilled, marked]
    rw [same]
    exact turned_fulfilled (by rw [named, stillPending])
  obtain ⟨pays, last⟩ := matchedIntent_eq_some_iff.mp matched
  obtain ⟨stored, present, sender, amount⟩ := sound.read given (intentsByAddr_eq_some last).1
  obtain rfl := Option.some.inj (present.symm.trans found)
  rw [one, List.map_singleton] at history
  refine ⟨?_, known, ?_, ?_, ?_, ?_⟩
  · rw [history, List.map_append, List.map_singleton]
    refine List.nodup_append.mpr ⟨sound.once, List.nodup_singleton _, fun used member other single same => ?_⟩
    obtain rfl := same
    rw [List.mem_singleton.mp single] at member
    exact unused member
  · intro payment member
    rw [history] at member
    rcases List.mem_append.mp member with earlier | last
    · exact sound.pays payment earlier
    · rw [List.mem_singleton.mp last]
      simpa only [TransferLog.pays, sender, amount] using pays
  · intro row member
    rw [marked] at member
    obtain ⟨row, earlier, rfl⟩ := List.mem_map.mp member
    split
    · exact sound.amounts row earlier
    · exact sound.amounts row earlier
  · intro intent member
    obtain ⟨row, found, facts⟩ := sound.read intent (kept intent member)
    rw [marked, find?_fulfilled, found]
    split
    · exact ⟨_, rfl, facts⟩
    · exact ⟨row, rfl, facts⟩
  · have before := sound.covered
    rw [history]
    simp only [List.map_append, List.map_singleton, List.sum_append, List.sum_singleton]
    omega

/-- Where nothing is written, what the process forgets is all that changes. -/
theorem PollerState.Sound.still (sound : s.Sound lower begun) {next : PollerState} (world : next.world = s.world)
    (kept : ∀ intent ∈ next.intents, intent ∈ s.intents) (history : next.history = s.history)
    (known : ∀ payment ∈ next.since, payment.1.transactionHash ∈ next.seenTx) : next.Sound lower begun := by
  refine ⟨history ▸ sound.once, known, history ▸ sound.pays, world ▸ sound.amounts, ?_, ?_⟩
  · rw [world]
    exact fun intent member => sound.read intent (kept intent member)
  · rw [world, history]
    exact sound.covered

theorem fulfilled_credit (sound : s.Sound lower begun) {intentId txHash : String} {row : Intent} {now : Seconds}
    (stillPending : s.world.pending? intentId = some row) :
    (s.world.fulfilled row txHash now).totalCredit ≤ s.world.totalCredit + row.trails :=
  totalCredit_addCredit row.apiKey (sound.amounts row (Table.find?_mem (World.pending?_eq_some stillPending).1))

/-- The step of a log. -/
theorem PollerState.Sound.log (sound : s.Sound lower begun) {log : TransferLog} {now : Seconds}
    (fresh : NotReplayed lower s (.log log now)) : (s.step lower (.log log now)).Sound lower begun := by
  rw [PollerState.step, run_pollLog]
  split
  · refine sound.still rfl (fun _ => id) ?_ ?_
    · simp only [PollerState.history, turned_self, List.map_nil, List.append_nil]
    · simp only [turned_self, List.map_nil, List.append_nil]
      exact sound.known
  rename_i unknown
  cases stillPending : (matchedIntent lower s.intents log).bind fun intent => s.world.pending? intent.intentId with
  | none =>
      refine sound.still rfl (fun _ => id) ?_ ?_
      · simp only [PollerState.history, turned_self, List.map_nil, List.append_nil]
      · simp only [turned_self, List.map_nil, List.append_nil]
        exact sound.known
  | some row =>
      obtain ⟨given, matched, waiting⟩ := Option.bind_eq_some_iff.mp stillPending
      refine sound.pay now matched waiting (fun used => ?_) rfl (fulfilled_credit sound waiting) (fun _ => id) ?_ ?_
      · rw [fresh (sound.forgotten unknown used)] at stillPending
        cases stillPending
      · simp only [PollerState.history, List.append_assoc]
      · intro payment member
        rcases List.mem_append.mp member with earlier | last
        · exact List.mem_cons_of_mem _ (sound.known payment earlier)
        · obtain ⟨_, _, rfl⟩ := List.mem_map.mp last
          exact List.mem_cons_self

/-- The step of a process that dies. -/
theorem PollerState.Sound.crash (sound : s.Sound lower begun) {log : TransferLog} {now : Seconds} {statements : Nat}
    (fresh : NotReplayed lower s (.crash log now statements)) :
    (s.step lower (.crash log now statements)).Sound lower begun := by
  have forgets : ∀ intent ∈ ([] : List Intent), intent ∈ s.intents := List.forall_mem_nil _
  have nothing : ∀ payment ∈ ([] : List (TransferLog × Intent)), payment.1.transactionHash ∈ ([] : List String) :=
    List.forall_mem_nil _
  rw [PollerState.step]
  rcases cut_pollLog lower s.intents now log s.seenTx s.world statements with
    still | ⟨later, unknown, given, row, matched, waiting, left⟩
  · refine sound.still still forgets ?_ nothing
    simp only [PollerState.history, still, turned_self, List.map_nil, List.append_nil]
  · have unused : log ∉ s.history.map Prod.fst := by
      intro used
      have none := fresh later (sound.forgotten unknown used)
      rw [matched, Option.bind_some, waiting] at none
      cases none
    rcases left with left | left
    · rw [left]
      refine sound.pay now matched waiting unused rfl ?_ forgets ?_ nothing
      · have marked : (s.world.marked row log.transactionHash now).totalCredit = s.world.totalCredit := rfl
        have nonneg := sound.amounts row (Table.find?_mem (World.pending?_eq_some waiting).1)
        dsimp only
        omega
      · simp only [PollerState.history, List.append_nil]
    · rw [left]
      refine sound.pay now matched waiting unused rfl (fulfilled_credit sound waiting) forgets ?_ nothing
      simp only [PollerState.history, List.append_nil]

theorem PollerState.Sound.step (sound : s.Sound lower begun) {step : PollerStep} (fresh : NotReplayed lower s step) :
    (s.step lower step).Sound lower begun := by
  cases step with
  | create intentId apiKey trails fromAddress now =>
      rcases run_paygTopupUsdc lower intentId apiKey fromAddress trails now s.world with
        same | ⟨row, next, nonneg, inserted, created⟩
      · rw [PollerState.step, same]
        exact sound
      · rw [PollerState.step, created]
        refine ⟨sound.once, sound.known, sound.pays, ?_, ?_, sound.covered⟩
        · intro other member
          rw [Table.rows_insert inserted] at member
          rcases List.mem_append.mp member with earlier | last
          · exact sound.amounts other earlier
          · rwa [List.mem_singleton.mp last]
        · intro intent member
          obtain ⟨stored, found, facts⟩ := sound.read intent member
          refine ⟨stored, ?_, facts⟩
          rw [Table.find?_insert inserted, if_neg, found]
          intro same
          rw [← same, (Table.insert?_eq_some_iff.mp inserted).2] at found
          cases found
  | poll now =>
      refine ⟨sound.once, sound.known, sound.pays, sound.amounts, ?_, sound.covered⟩
      intro intent member
      obtain ⟨stored, _⟩ := List.mem_filter.mp member
      exact ⟨intent, Table.find?_eq_some_iff.mpr ⟨stored, rfl⟩, rfl, rfl⟩
  | log log now => exact sound.log fresh
  | crash log now statements => exact sound.crash fresh

end

/-- In a run without replays each transfer pays once, and no more is credited than was paid. -/
theorem paidOnce_of_notReplayed {lower : String → String} {start : PollerState} {steps : List PollerStep}
    (unused : start.history = []) (none : start.intents = []) (noIntents : start.world.intents.rows = [])
    (admitted : Admits (PollerState.step lower) (NotReplayed lower) start steps) : PaidOnce lower start steps := by
  have begun : start.Sound lower start.world.totalCredit := {
    once := by simp [unused]
    known := fun payment member => by
      have used : payment ∈ start.history := List.mem_append_right _ member
      simp [unused] at used
    pays := by simp [unused]
    amounts := by simp [noIntents]
    read := by simp [none]
    covered := by simp [unused] }
  have sound := admitted.invariant (fun _ _ sound fresh => PollerState.Sound.step sound fresh) begun
  refine ⟨sound.once, sound.pays, ?_⟩
  have covered := sound.covered
  omega

/-- A process that just started, with one account. -/
def started : PollerState :=
  ⟨{ deposit with intents := .empty }, [], [], [], []⟩

/-- The payer buys 100 trails and pays for them. -/
def bought (intentId : String) : List PollerStep :=
  [.create intentId (ofString "key") 100 (ofString payer) 0, .poll 10, .log transfer 10]

/-- The process dies and starts again between the two purchases, and each is paid with a
transfer of its own. -/
def boughtTwice : List PollerStep :=
  bought "first" ++ [.crash transfer 20 0, .create "second" (ofString "key") 100 (ofString payer) 20, .poll 30,
    .log { transfer with transactionHash := "0xother" } 30]

theorem paidOnce_boughtTwice : PaidOnce asciiLower started boughtTwice := by
  refine paidOnce_of_notReplayed rfl rfl rfl
    ⟨trivial, trivial, ?_, ?_, trivial, trivial, ?_, trivial⟩
  · intro forgotten
    exact absurd forgotten.1 (by decide +kernel)
  · intro running
    exact absurd running (by decide)
  · intro forgotten
    exact absurd forgotten.1 (by decide +kernel)

/-- After a restart, a second intent is fulfilled by the transfer for the first. -/
theorem not_paidOnce_restarted :
    ¬ PaidOnce asciiLower started (bought "first" ++ [.crash transfer 20 0] ++ bought "second") := by
  intro once
  exact absurd once.1 (by decide +kernel)

end Argentum.Mycelium
