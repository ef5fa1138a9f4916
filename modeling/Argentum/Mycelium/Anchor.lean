import Argentum.Mycelium.Nexus
import Argentum.Mycelium.External

/-! Anchoring. The thread of a recorded trail broadcasts its action reference, and on an
answer writes the row, credits karma and notifies. The poller reads the receipts of the
transactions, confirms or fails the rows, and notifies too. The two meet in the row of
the trail alone, and their statements interleave in any way. -/
namespace Argentum.Mycelium
open Argentum Text Transition

def trailKarmaDelta : ℚ := 1

/-- What the anchor adds to a deployment: `int(_, 16)`, and how long a receipt is awaited. -/
structure Chain where
  settings : Settings
  intBase16 : Str → Option Int
  freshnessTtl : Seconds

/-- The notification of the agent's webhook, if it has one. -/
def notify (settings : Settings) (agentId trailId txHash : String) : Script Unit :=
  if settings.webhookOk then do
    match ← sql (.notifyWebhook agentId) with
    | none => return ()
    | some hook => sql (.notifyAnchor ⟨hook, trailId, txHash⟩)
  else return ()

/-- `tx` is what `anchor_action_ref` answers. -/
def doAnchor (settings : Settings) (thread : AnchorThread) (tx : Option String) (now : Seconds)
    (lastAction : Community.Instant) : Script Unit := do
  sql (.anchorActionRef thread)
  match tx.filter (· ≠ "") with
  | none => return ()
  | some tx => do
      sql (.setTxHash thread.trailId tx now)
      if thread.origin = "nexus" then sql (.creditKarma thread.agentId trailKarmaDelta lastAction)
      notify settings thread.agentId thread.trailId tx

inductive AnchorAction where
  | confirm | failRevert | failTimeout | wait
  deriving DecidableEq, Repr

def classifyAnchorReceipt (receipt : Json) (submittedAt : Option Seconds) (now ttl : Seconds) :
    Except Raised AnchorAction :=
  let pending : AnchorAction := if submittedAt.any fun sent => ttl < now - sent then .failTimeout else .wait
  if !receipt.truthy then .ok pending
  else if !receipt.isDict then .error .attributeError
  else
    let status := receipt.get (ofString "status")
    if status.eq (.str (ofString "0x1")) then .ok .confirm
    else if status.eq (.str (ofString "0x0")) then .ok .failRevert
    else .ok pending

/-- `int(receipt.get("blockNumber", "0x0"), 16)` -/
def blockNumber (intBase16 : Str → Option Int) (receipt : Json) : Except Raised Int :=
  match receipt.getD (ofString "blockNumber") (.str (ofString "0x0")) with
  | .str s =>
      match intBase16 s with
      | some n => .ok n
      | none => .error (.python .valueError)
  | _ => .error (.python .typeError)

/-- `tx if tx.startswith("0x") else "0x" + tx` -/
def prefixed (tx : String) : String := if "0x".toList.isPrefixOf tx.toList then tx else "0x" ++ tx

/-- The poller's turn on one trail. `receipt` is the `result` of the RPC's answer, or the
exception that reading it raised; an exception ends the turn. -/
def checkTrail (chain : Chain) (row : TrailRow) (receipt : Except Raised Json) (now : Seconds) : Script Unit := do
  let receipt ← bound receipt
  match ← bound (classifyAnchorReceipt receipt row.anchorSubmittedAt now chain.freshnessTtl) with
  | .confirm => do
      let block ← bound (blockNumber chain.intBase16 receipt)
      sql (.confirmAnchor row.trailId block)
      notify chain.settings row.agentId row.trailId (prefixed (row.txHash.getD ""))
  | .failRevert => sql (.failAnchor row.trailId .reverted)
  | .failTimeout => sql (.failAnchor row.trailId .nonArrivalTimeout)
  | .wait => return ()

/-- What runs beside the requests. -/
inductive AnchorCall where
  | anchor (thread : AnchorThread) (tx : Option String) (now : Seconds) (lastAction : Community.Instant)
  | check (row : TrailRow) (receipt : Except Raised Json) (now : Seconds)

def AnchorCall.code (chain : Chain) : AnchorCall → Program Sql (Except Raised Unit)
  | .anchor thread tx now lastAction => ExceptT.run (doAnchor chain.settings thread tx now lastAction)
  | .check row receipt now => ExceptT.run (checkTrail chain row receipt now)

/-- The next statement of a call, by what it does. -/
inductive Stage where
  | broadcast | submit | credit | confirm | fail | ask | notify | finished
  deriving DecidableEq, Repr

def stage : Program Sql (Except Raised Unit) → Stage
  | .perform (.anchorActionRef _) _ => .broadcast
  | .perform (.setTxHash ..) _ => .submit
  | .perform (.creditKarma ..) _ => .credit
  | .perform (.confirmAnchor ..) _ => .confirm
  | .perform (.failAnchor ..) _ => .fail
  | .perform (.notifyWebhook _) _ => .ask
  | .perform (.notifyAnchor _) _ => .notify
  | _ => .finished

abbrev AnchorPool := Pool AnchorCall Sql (Except Raised Unit) World

/-- The calls in flight over the tables, the rows that the poller's cycle has yet to
check, and the threads that credited karma. -/
structure AnchorState where
  pool : AnchorPool
  pending : List TrailRow
  credited : List AnchorThread

/-- A request is handled, a thread that was started begins, the poller begins a cycle or
the next turn of it, or a call executes its next statement. -/
inductive AnchorStep where
  | request (trailId : String) (body : Json) (now : Seconds)
  | begin (index : Nat) (tx : Option String) (now : Seconds) (lastAction : Community.Instant)
  | poll
  | check (receipt : Except Raised Json) (now : Seconds)
  | advance (index : Nat)

/-- The poller takes its turns one after the other. -/
def AnchorState.idle (s : AnchorState) : Bool :=
  s.pool.processes.all fun process =>
    match process.call with
    | .check .. => stage process.program = .finished
    | .anchor .. => true

def AnchorState.world (s : AnchorState) : World := s.pool.state

/-- The thread that credits karma with its next statement. -/
def AnchorCall.credits : AnchorCall → Stage → List AnchorThread
  | .anchor thread _ _ _, .credit => [thread]
  | _, _ => []

def Chain.step (chain : Chain) (s : AnchorState) : AnchorStep → AnchorState
  | .request trailId body now =>
      { s with pool := { s.pool with state := ((nexusTrail chain.settings trailId body now).run s.world).2 } }
  | .begin index tx now lastAction =>
      match s.world.threads[index]? with
      | none => s
      | some thread =>
          let call : AnchorCall := .anchor thread tx now lastAction
          { s with
            pool :=
              { state := { s.world with threads := s.world.threads.eraseIdx index }
                processes := s.pool.processes ++ [⟨call, call.code chain⟩] } }
  | .poll =>
      if s.idle && s.pending.isEmpty then { s with pending := (exec (.submittedTrails 20) s.world).1 } else s
  | .check receipt now =>
      match s.idle, s.pending with
      | true, row :: rest =>
          let call : AnchorCall := .check row receipt now
          { s with
            pool := { s.pool with processes := s.pool.processes ++ [⟨call, call.code chain⟩] }
            pending := rest }
      | _, _ => s
  | .advance index =>
      { s with
        pool := s.pool.step exec (AnchorCall.code chain) (.advance index)
        credited := s.credited ++ (s.pool.processes[index]?).elim [] fun process =>
          process.call.credits (stage process.program) }

/-- The action that a failure of a row is for. -/
def FailReason.action : FailReason → AnchorAction
  | .reverted => .failRevert
  | .nonArrivalTimeout => .failTimeout

/-- The statements of a notification. -/
def asking (agentId trailId txHash : String) : Program Sql (Except Raised Unit) :=
  .perform (.notifyWebhook agentId) fun found =>
    match found with
    | none => .done (.ok ())
    | some hook => .perform (.notifyAnchor ⟨hook, trailId, txHash⟩) fun _ => .done (.ok ())

/-- What is left of a thread whose broadcast was answered. -/
def submitting (settings : Settings) (thread : AnchorThread) (txHash : String) (now : Seconds)
    (lastAction : Community.Instant) : Program Sql (Except Raised Unit) :=
  .perform (.setTxHash thread.trailId txHash now) fun _ =>
    let told := if settings.webhookOk then asking thread.agentId thread.trailId txHash else .done (.ok ())
    if thread.origin = "nexus" then .perform (.creditKarma thread.agentId trailKarmaDelta lastAction) fun _ => told
    else told

theorem code_anchor (chain : Chain) (thread : AnchorThread) (tx : Option String) (now : Seconds)
    (lastAction : Community.Instant) :
    AnchorCall.code chain (.anchor thread tx now lastAction) =
      .perform (.anchorActionRef thread) fun _ =>
        match tx.filter (· ≠ "") with
        | none => .done (.ok ())
        | some txHash => submitting chain.settings thread txHash now lastAction := by
  rfl

/-- The poller confirms a row, or fails it, or leaves it, by how its receipt classifies. -/
theorem code_check (chain : Chain) (row : TrailRow) (receipt : Except Raised Json) (now : Seconds) :
    (∃ block, (AnchorCall.code chain (.check row receipt now) = .perform (.confirmAnchor row.trailId block) fun _ =>
      if chain.settings.webhookOk then asking row.agentId row.trailId (prefixed (row.txHash.getD ""))
      else .done (.ok ())) ∧ ∃ answer, receipt = .ok answer ∧
        classifyAnchorReceipt answer row.anchorSubmittedAt now chain.freshnessTtl = .ok .confirm ∧
        blockNumber chain.intBase16 answer = .ok block) ∨
    (∃ reason, (AnchorCall.code chain (.check row receipt now) =
      .perform (.failAnchor row.trailId reason) fun _ => .done (.ok ())) ∧ ∃ answer, receipt = .ok answer ∧
        classifyAnchorReceipt answer row.anchorSubmittedAt now chain.freshnessTtl = .ok reason.action) ∨
    ∃ ended, AnchorCall.code chain (.check row receipt now) = .done ended := by
  cases receipt with
  | error raised => exact Or.inr (Or.inr ⟨.error raised, rfl⟩)
  | ok receipt =>
      have started : AnchorCall.code chain (.check row (.ok receipt) now) = ExceptT.run (do
          match ← bound (classifyAnchorReceipt receipt row.anchorSubmittedAt now chain.freshnessTtl) with
          | .confirm => do
              let block ← bound (blockNumber chain.intBase16 receipt)
              sql (.confirmAnchor row.trailId block)
              notify chain.settings row.agentId row.trailId (prefixed (row.txHash.getD ""))
          | .failRevert => sql (.failAnchor row.trailId .reverted)
          | .failTimeout => sql (.failAnchor row.trailId .nonArrivalTimeout)
          | .wait => return ()) := rfl
      rw [started]
      cases classified : classifyAnchorReceipt receipt row.anchorSubmittedAt now chain.freshnessTtl with
      | error raised => exact Or.inr (Or.inr ⟨.error raised, rfl⟩)
      | ok action =>
          cases action with
          | confirm =>
              cases numbered : blockNumber chain.intBase16 receipt with
              | error raised => exact Or.inr (Or.inr ⟨.error raised, rfl⟩)
              | ok block => exact Or.inl ⟨block, rfl, receipt, rfl, classified, numbered⟩
          | failRevert => exact Or.inr (Or.inl ⟨.reverted, rfl, receipt, rfl, classified⟩)
          | failTimeout => exact Or.inr (Or.inl ⟨.nonArrivalTimeout, rfl, receipt, rfl, classified⟩)
          | wait => exact Or.inr (Or.inr ⟨.ok (), rfl⟩)

/-- What a statement of a call does: the stage it is at, the tables it leaves, and the
stage that is next. -/
inductive Effect (w : World) : AnchorCall → Stage → World → Stage → Prop
  | broadcast {thread tx now lastAction later} (next : later = .submit ∨ later = .finished) :
      Effect w (.anchor thread tx now lastAction) .broadcast (exec (.anchorActionRef thread) w).2 later
  | submit {thread tx now lastAction later} (txHash : String)
      (next : later = .credit ∨ later = .ask ∨ later = .finished) :
      Effect w (.anchor thread tx now lastAction) .submit (exec (.setTxHash thread.trailId txHash now) w).2 later
  | credit {thread tx now lastAction later} (next : later = .ask ∨ later = .finished) :
      Effect w (.anchor thread tx now lastAction) .credit
        (exec (.creditKarma thread.agentId trailKarmaDelta lastAction) w).2 later
  | ask {thread tx now lastAction later} (next : later = .notify ∨ later = .finished)
      (found : later = .notify → (exec (.notifyWebhook thread.agentId) w).1.isSome) :
      Effect w (.anchor thread tx now lastAction) .ask w later
  | notify {thread tx now lastAction} (notification : Notification) (about : notification.trailId = thread.trailId) :
      Effect w (.anchor thread tx now lastAction) .notify (exec (.notifyAnchor notification) w).2 .finished
  | confirm {row receipt now later} (block : Int) (next : later = .ask ∨ later = .finished) :
      Effect w (.check row receipt now) .confirm (exec (.confirmAnchor row.trailId block) w).2 later
  | fail {row receipt now} (reason : FailReason) :
      Effect w (.check row receipt now) .fail (exec (.failAnchor row.trailId reason) w).2 .finished
  | askConfirmed {row receipt now later} (next : later = .notify ∨ later = .finished) :
      Effect w (.check row receipt now) .ask w later
  | notifyConfirmed {row receipt now} (notification : Notification) (about : notification.trailId = row.trailId) :
      Effect w (.check row receipt now) .notify (exec (.notifyAnchor notification) w).2 .finished

section
variable {chain : Chain} {settings : Settings} {agentId trailId txHash : String} {β : Type} {op : Sql β}
  {next : β → Program Sql (Except Raised Unit)}

theorem stage_asking : stage (if settings.webhookOk then asking agentId trailId txHash else .done (.ok ())) = .ask ∨
    stage (if settings.webhookOk then asking agentId trailId txHash else .done (.ok ())) = .finished := by
  cases settings.webhookOk with
  | true => exact Or.inl rfl
  | false => exact Or.inr rfl

theorem residual_asking
    (left : Program.Residual (if settings.webhookOk then asking agentId trailId txHash else .done (.ok ()))
      (.perform op next)) :
    Program.perform op next = asking agentId trailId txHash ∨
      ∃ hook, Program.perform op next = .perform (.notifyAnchor ⟨hook, trailId, txHash⟩) fun _ => .done (.ok ()) := by
  split at left
  · rcases Program.residual_perform_iff.mp left with same | ⟨found, left⟩
    · exact Or.inl same
    cases found with
    | none => cases Program.residual_done_iff.mp left
    | some hook =>
        rcases Program.residual_perform_iff.mp left with same | ⟨_, left⟩
        · exact Or.inr ⟨hook, same⟩
        cases Program.residual_done_iff.mp left
  · cases Program.residual_done_iff.mp left

/-- The statement that a call on its way executes next has its effect. -/
theorem effect_of_residual {call : AnchorCall} (left : (call.code chain).Residual (.perform op next)) (w : World) :
    Effect w call (stage (.perform op next)) (exec op w).2 (stage (next (exec op w).1)) := by
  cases call with
  | anchor thread tx now lastAction =>
      have told : ∀ {txHash : String}, Program.Residual (if chain.settings.webhookOk then
          asking thread.agentId thread.trailId txHash else .done (.ok ())) (.perform op next) →
          Effect w (.anchor thread tx now lastAction) (stage (.perform op next)) (exec op w).2
            (stage (next (exec op w).1)) := by
        intro txHash left
        rcases residual_asking left with same | ⟨hook, same⟩
        · cases same
          refine .ask ?_ ?_
          · cases (exec (.notifyWebhook thread.agentId) w).1 with
            | none => exact Or.inr rfl
            | some hook => exact Or.inl rfl
          · cases (exec (.notifyWebhook thread.agentId) w).1 with
            | none =>
                intro same
                cases same
            | some hook => exact fun _ => rfl
        · cases same
          exact .notify _ rfl
      rw [code_anchor] at left
      rcases Program.residual_perform_iff.mp left with same | ⟨_, left⟩
      · cases same
        refine .broadcast ?_
        cases tx.filter (· ≠ "") with
        | none => exact Or.inr rfl
        | some txHash => exact Or.inl rfl
      cases broadcast : tx.filter (· ≠ "") with
      | none =>
          rw [broadcast] at left
          cases Program.residual_done_iff.mp left
      | some txHash =>
          rw [broadcast] at left
          rcases Program.residual_perform_iff.mp left with same | ⟨_, left⟩
          · cases same
            refine .submit txHash ?_
            dsimp only
            split
            · exact Or.inl rfl
            · exact Or.inr stage_asking
          dsimp only at left
          split at left
          · rcases Program.residual_perform_iff.mp left with same | ⟨_, left⟩
            · cases same
              exact .credit stage_asking
            · exact told left
          · exact told left
  | check row receipt now =>
      rcases code_check chain row receipt now with ⟨block, program, _⟩ | ⟨reason, program, _⟩ | ⟨ended, program⟩
      · rw [program] at left
        rcases Program.residual_perform_iff.mp left with same | ⟨_, left⟩
        · cases same
          exact .confirm block stage_asking
        rcases residual_asking left with same | ⟨hook, same⟩
        · cases same
          refine .askConfirmed ?_
          cases (exec (.notifyWebhook row.agentId) w).1 with
          | none => exact Or.inr rfl
          | some hook => exact Or.inl rfl
        · cases same
          exact .notifyConfirmed _ rfl
      · rw [program] at left
        rcases Program.residual_perform_iff.mp left with same | ⟨_, left⟩
        · cases same
          exact .fail reason
        cases Program.residual_done_iff.mp left
      · rw [program] at left
        cases Program.residual_done_iff.mp left

/-- An advance executes the next statement of a call, or there is none. -/
theorem advance_cases {s : AnchorState} (runs : s.pool.Runs (AnchorCall.code chain)) (index : Nat) :
    (∃ call program w left, s.pool.processes[index]? = some ⟨call, program⟩ ∧
      Effect s.world call (stage program) w (stage left) ∧
      chain.step s (.advance index) =
        { pool := { state := w, processes := s.pool.processes.set index ⟨call, left⟩ }
          pending := s.pending
          credited := s.credited ++ call.credits (stage program) }) ∨
    chain.step s (.advance index) = s := by
  rcases s.pool.step_advance exec (AnchorCall.code chain) index with
    ⟨call, β, op, next, found, stepped⟩ | ⟨idle, still⟩
  · left
    have effect := effect_of_residual (runs _ (List.mem_of_getElem? found)) s.pool.state
    refine ⟨call, _, _, _, found, effect, ?_⟩
    rw [Chain.step, stepped, found]
    rfl
  · right
    rw [Chain.step, still]
    cases found : s.pool.processes[index]? with
    | none => rw [Option.elim_none, List.append_nil]
    | some process =>
        obtain ⟨call, program⟩ := process
        obtain ⟨ended, rfl⟩ := idle _ found
        have none : call.credits (stage (.done ended)) = [] := by cases call <;> rfl
        rw [Option.elim_some, none, List.append_nil]

theorem runs_step {s : AnchorState} (runs : s.pool.Runs (AnchorCall.code chain)) (step : AnchorStep) :
    (chain.step s step).pool.Runs (AnchorCall.code chain) := by
  cases step with
  | request trailId body now => exact runs
  | begin index tx now lastAction =>
      simp only [Chain.step]
      split
      · exact runs
      · exact @Pool.Runs.step _ _ _ _ exec _ ⟨_, s.pool.processes⟩ runs (.start _)
  | poll =>
      simp only [Chain.step]
      split <;> exact runs
  | check receipt now =>
      simp only [Chain.step]
      split
      · exact @Pool.Runs.step _ _ _ _ exec _ s.pool runs (.start _)
      · exact runs
  | advance index => exact runs.step (.advance index)

end

/-- A request writes an account, or it records a trail besides. -/
theorem nexusTrail_frame (settings : Settings) (trailId : String) (body : Json) (now : Seconds) (w : World) :
    ∃ accounts, ((nexusTrail settings trailId body now).run w).2 = { w with accounts } ∨
      ∃ receipt, readReceipt body = .ok (.ok receipt) ∧
        Recorded { w with accounts } ((nexusTrail settings trailId body now).run w).2 trailId receipt := by
  have charged : ∀ agentId, w.chargedFor agentId now = { w with accounts := (w.chargedFor agentId now).accounts } := by
    intro agentId
    unfold World.chargedFor
    split <;> rfl
  have refunded : ∀ agentId,
      w.refundedFor agentId now = { w with accounts := (w.refundedFor agentId now).accounts } := by
    intro agentId
    unfold World.refundedFor
    split <;> rfl
  rcases nexusTrail_cases settings trailId body now w with
    ⟨_, same⟩ | ⟨receipt, read, ⟨_, same⟩ | ⟨_, _, same⟩ | ⟨_, _, recorded⟩⟩
  · exact ⟨w.accounts, Or.inl same⟩
  · exact ⟨_, Or.inl (same.trans (refunded receipt.agentId))⟩
  · exact ⟨_, Or.inl (same.trans (charged receipt.agentId))⟩
  · rw [charged receipt.agentId] at recorded
    exact ⟨_, Or.inr ⟨receipt, read, recorded⟩⟩

/-- What a row says from the time it was recorded. -/
def TrailRow.identity (row : TrailRow) : String × Option String × String := (row.agentId, row.actionRef, row.origin)

/-- The thread is one of a trail that is there. -/
def World.Owns (w : World) (thread : AnchorThread) : Prop :=
  ∃ origin, (w.trails.find? thread.trailId).map TrailRow.identity =
    some (thread.agentId, some thread.actionRef, origin)

theorem find?_updateTrail {w : World} {named : String} {f : TrailRow → TrailRow}
    {keeps : ∀ row, Keyed.key (f row) = Keyed.key row} (trailId : String) :
    (w.updateTrail named f keeps).trails.find? trailId =
      if named = trailId then (w.trails.find? trailId).map f else w.trails.find? trailId := by
  have selects : ∀ row : TrailRow, decide (row.trailId = named) = decide (Keyed.key row = named) := fun _ => rfl
  rw [World.updateTrail, Table.find?_update_key selects]

section
variable {chain : Chain} {w after : World} {trailId : String} {receipt : Receipt}

/-- A statement of a call leaves what the rows say. -/
theorem Effect.identity {call : AnchorCall} {stage later : Stage} (effect : Effect w call stage after later)
    (trailId : String) : (after.trails.find? trailId).map TrailRow.identity =
      (w.trails.find? trailId).map TrailRow.identity := by
  cases effect with
  | submit | confirm | fail =>
      simp only [exec]
      rw [find?_updateTrail]
      split
      · rw [Option.map_map]
        rfl
      · rfl
  | _ => rfl

/-- The row that a request records is new, and the others stay. -/
theorem Recorded.find? (recorded : Recorded w after trailId receipt) : ∃ row, row.trailId = trailId ∧
    row.identity = (receipt.agentId, some receipt.actionRef, receipt.origin) ∧ row.anchorStatus = none ∧
    w.trails.find? trailId = none ∧
    ∀ other, after.trails.find? other = if trailId = other then some row else w.trails.find? other := by
  obtain ⟨row, rows, rfl, agent, ref, origin, status⟩ := recorded.trails
  have unique := after.trails.unique
  rw [rows, List.map_append, List.nodup_append] at unique
  have absent : w.trails.find? row.trailId = none := by
    apply Table.find?_eq_none_iff.mpr
    intro other member same
    exact unique.2.2 _ (List.mem_map_of_mem member) row.trailId List.mem_cons_self same
  have inserted : w.trails.insert? row = some after.trails := Table.insert?_eq_some_iff.mpr ⟨rows, absent⟩
  exact ⟨row, rfl, by rw [TrailRow.identity, agent, ref, origin], status, absent, Table.find?_insert inserted⟩

end

def AnchorCall.thread? : AnchorCall → Option AnchorThread
  | .anchor thread _ _ _ => some thread
  | .check .. => none

/-- Every thread is one of a trail, before it begins, on its way, and when it credited. -/
structure AnchorState.Owned (s : AnchorState) : Prop where
  started : ∀ thread ∈ s.world.threads, s.world.Owns thread
  running : ∀ process ∈ s.pool.processes, ∀ thread ∈ process.call.thread?, s.world.Owns thread
  credited : ∀ thread ∈ s.credited, s.world.Owns thread

section
variable {chain : Chain} {s : AnchorState}

theorem Effect.threads {w after : World} {call : AnchorCall} {stage later : Stage}
    (effect : Effect w call stage after later) : after.threads = w.threads := by
  cases effect <;> rfl

theorem Effect.owns {w after : World} {call : AnchorCall} {stage later : Stage}
    (effect : Effect w call stage after later) {thread : AnchorThread} (owns : w.Owns thread) : after.Owns thread := by
  rw [World.Owns, effect.identity]
  exact owns

theorem Recorded.owns {w after : World} {trailId : String} {receipt : Receipt}
    (recorded : Recorded w after trailId receipt) {thread : AnchorThread} (owns : w.Owns thread) :
    after.Owns thread := by
  obtain ⟨row, _, _, _, absent, found⟩ := recorded.find?
  rw [World.Owns, found]
  split
  · rename_i same
    obtain ⟨_, there⟩ := owns
    rw [← same, absent] at there
    cases there
  · exact owns

/-- The tables change, and no thread loses its trail. -/
theorem AnchorState.Owned.moved (owned : s.Owned) {after : World}
    (keeps : ∀ thread, s.world.Owns thread → after.Owns thread)
    (threads : ∀ thread ∈ after.threads, thread ∈ s.world.threads ∨ after.Owns thread) :
    AnchorState.Owned { s with pool := { s.pool with state := after } } := by
  constructor
  · intro thread member
    rcases threads thread member with earlier | owns
    · exact keeps _ (owned.started _ earlier)
    · exact owns
  · intro process member thread ran
    exact keeps _ (owned.running process member thread ran)
  · intro thread member
    exact keeps _ (owned.credited _ member)

theorem AnchorState.Owned.request (owned : s.Owned) (trailId : String) (body : Json) (now : Seconds) :
    (chain.step s (.request trailId body now)).Owned := by
  obtain ⟨accounts, same | ⟨receipt, _, recorded⟩⟩ := nexusTrail_frame chain.settings trailId body now s.world
  · rw [Chain.step, same]
    exact owned.moved (fun _ owns => owns) fun _ member => Or.inl member
  · refine owned.moved (fun _ owns => recorded.owns owns) fun thread member => ?_
    rcases recorded.threads with same | started
    · exact Or.inl (same ▸ member)
    · obtain ⟨row, _, identity, _, _, found⟩ := recorded.find?
      rw [started] at member
      rcases List.mem_append.mp member with earlier | last
      · exact Or.inl earlier
      · obtain rfl := List.mem_singleton.mp last
        exact Or.inr ⟨receipt.origin, by rw [found, if_pos rfl, Option.map_some, identity]⟩

/-- A thread that credits is the one that runs. -/
theorem thread_of_credits {call : AnchorCall} {stage : Stage} {thread : AnchorThread}
    (credits : thread ∈ call.credits stage) : thread ∈ call.thread? := by
  cases call with
  | anchor other tx now lastAction =>
      cases stage with
      | credit => exact congrArg some (List.mem_singleton.mp credits).symm
      | _ => cases credits
  | check => cases credits

theorem AnchorState.Owned.step (owned : s.Owned) (runs : s.pool.Runs (AnchorCall.code chain)) (step : AnchorStep) :
    (chain.step s step).Owned := by
  cases step with
  | request trailId body now => exact owned.request trailId body now
  | begin index tx now lastAction =>
      simp only [Chain.step]
      split
      · exact owned
      · rename_i thread found
        constructor
        · intro other member
          exact owned.started _ (List.mem_of_mem_eraseIdx member)
        · intro process member other ran
          rcases List.mem_append.mp member with earlier | last
          · exact owned.running process earlier other ran
          · rw [List.mem_singleton.mp last] at ran
            obtain rfl := Option.some.inj ran
            exact owned.started _ (List.mem_of_getElem? found)
        · exact owned.credited
  | poll =>
      simp only [Chain.step]
      split
      · exact ⟨owned.started, owned.running, owned.credited⟩
      · exact owned
  | check receipt now =>
      simp only [Chain.step]
      split
      · refine ⟨owned.started, ?_, owned.credited⟩
        intro process member thread ran
        rcases List.mem_append.mp member with earlier | last
        · exact owned.running process earlier thread ran
        · rw [List.mem_singleton.mp last] at ran
          cases ran
      · exact owned
  | advance index =>
      rcases advance_cases runs index with ⟨call, program, w, left, found, effect, stepped⟩ | still
      · rw [stepped]
        have own : ∀ thread ∈ call.thread?, s.world.Owns thread := owned.running _ (List.mem_of_getElem? found)
        constructor
        · intro thread member
          exact effect.owns (owned.started _ (effect.threads ▸ member))
        · intro process member thread ran
          rcases List.mem_or_eq_of_mem_set member with earlier | rfl
          · exact effect.owns (owned.running process earlier thread ran)
          · exact effect.owns (own thread ran)
        · intro thread member
          rcases List.mem_append.mp member with earlier | last
          · exact effect.owns (owned.credited _ earlier)
          · exact effect.owns (own thread (thread_of_credits last))
      · rwa [still]

end

end Argentum.Mycelium
