import Argentum.Mycelium.Confirmation

/-! The status of an anchor. A trail is sent, and then it is anchored or it fails, for
good. The statements that write a status read none: that it moves so rests on each trail
being sent once, and on the poller reading a trail once in a cycle. -/
namespace Argentum.Mycelium
open Argentum Text Transition

/-- `receipt.get("status") == status` -/
def HasStatus (receipt : Json) (status : String) : Prop :=
  (receipt.get (ofString "status")).eq (.str (ofString status)) = true

/-- What a failure of a trail sent at `submittedAt` rests on, by the reason it gives. -/
def FailReason.Holds (chain : Chain) (submittedAt : Option Seconds) (receipt : Json) (now : Seconds) :
    FailReason → Prop
  | .reverted => HasStatus receipt "0x0"
  | .nonArrivalTimeout => ¬ HasStatus receipt "0x0" ∧ ¬ HasStatus receipt "0x1" ∧
      ∃ sent, submittedAt = some sent ∧ chain.freshnessTtl < now - sent

/-- The answers of the RPC for a trail, each with the poller's clock. A cycle asks for a
trail once. -/
def AnchorState.answered (s : AnchorState) (trailId : String) : List (Json × Seconds) :=
  (s.pool.processes.map Process.call).filterMap fun call =>
    match call with
    | .check row (.ok receipt) now => if row.trailId = trailId then some (receipt, now) else none
    | _ => none

/-- `NULL`, then `submitted`, then `anchored` or `failed`. -/
def AnchorStatus.moves : Option AnchorStatus → Option AnchorStatus → Bool
  | none, some .submitted => true
  | some .submitted, some .anchored => true
  | some .submitted, some .failed => true
  | before, after => before = after

/-- The state a run reaches from tables where no thread waits. -/
def Chain.reached (chain : Chain) (start : World) (steps : List AnchorStep) : AnchorState :=
  run chain.step ⟨⟨start, []⟩, [], []⟩ steps

/-- The status of every trail moves in its order at every step of a run, and where it
ends in is what a receipt said, or it ended there before the run. `numbers` relates a
receipt to the block it is of. -/
structure AnchorLifecycle (numbers : Json → Int → Prop) (chain : Chain) (start : World) (steps : List AnchorStep) :
    Prop where
  recorded : ∀ before step after, steps = before ++ step :: after → ∀ trailId row,
    (chain.reached start before).world.trails.find? trailId = none →
    (chain.reached start (before ++ [step])).world.trails.find? trailId = some row → row.anchorStatus = none
  moves : ∀ before step after, steps = before ++ step :: after → ∀ trailId row,
    (chain.reached start before).world.trails.find? trailId = some row →
    ∃ next, (chain.reached start (before ++ [step])).world.trails.find? trailId = some next ∧
      AnchorStatus.moves row.anchorStatus next.anchorStatus
  anchored : ∀ trailId row, (chain.reached start steps).world.trails.find? trailId = some row →
    row.anchorStatus = some .anchored → start.trails.find? trailId = some row ∨
      ∃ receipt now block, (receipt, now) ∈ (chain.reached start steps).answered trailId ∧
        HasStatus receipt "0x1" ∧ row.anchorBlock = some block ∧ numbers receipt block
  failed : ∀ trailId row, (chain.reached start steps).world.trails.find? trailId = some row →
    row.anchorStatus = some .failed → start.trails.find? trailId = some row ∨
      ∃ receipt now reason, (receipt, now) ∈ (chain.reached start steps).answered trailId ∧
        row.anchorFailReason = some reason ∧ reason.Holds chain row.anchorSubmittedAt receipt now

/-- The number that a receipt carries. -/
def Carries (chain : Chain) (receipt : Json) (block : Int) : Prop :=
  ∃ s, receipt.get (ofString "blockNumber") = .str s ∧ chain.intBase16 s = some block

/-- The number that a receipt carries, or zero where it carries none. -/
def CarriesOrZero (chain : Chain) (receipt : Json) (block : Int) : Prop :=
  Carries chain receipt block ∨ receipt.has (ofString "blockNumber") = false ∧ block = 0

section
variable {chain : Chain} {receipt : Json}

theorem HasStatus.isDict {status : String} (has : HasStatus receipt status) :
    receipt.truthy = true ∧ receipt.isDict = true := by
  cases receipt with
  | dict items =>
      refine ⟨?_, rfl⟩
      cases items with
      | nil => exact absurd has (by rw [HasStatus]; exact Bool.false_ne_true)
      | cons => rfl
  | _ => exact absurd has (by rw [HasStatus]; exact Bool.false_ne_true)

/-- A receipt of status 0x1 confirms and one of status 0x0 fails. Any other leaves the row
to its age, or raises. -/
theorem classify_cases (receipt : Json) (submittedAt : Option Seconds) (now ttl : Seconds) :
    (classifyAnchorReceipt receipt submittedAt now ttl = .ok .confirm ∧ HasStatus receipt "0x1") ∨
    (classifyAnchorReceipt receipt submittedAt now ttl = .ok .failRevert ∧ HasStatus receipt "0x0") ∨
    (¬ HasStatus receipt "0x0" ∧ ¬ HasStatus receipt "0x1" ∧
      (classifyAnchorReceipt receipt submittedAt now ttl = .error .attributeError ∨
        classifyAnchorReceipt receipt submittedAt now ttl =
          .ok (if submittedAt.any fun sent => ttl < now - sent then .failTimeout else .wait))) := by
  by_cases dict : receipt.truthy = true ∧ receipt.isDict = true
  · by_cases mined : HasStatus receipt "0x1"
    · exact Or.inl ⟨by rw [HasStatus] at mined; simp [classifyAnchorReceipt, dict, mined], mined⟩
    by_cases reverted : HasStatus receipt "0x0"
    · refine Or.inr (Or.inl ⟨?_, reverted⟩)
      rw [HasStatus] at mined reverted
      simp [classifyAnchorReceipt, dict, mined, reverted]
    · refine Or.inr (Or.inr ⟨reverted, mined, Or.inr ?_⟩)
      rw [HasStatus] at mined reverted
      simp [classifyAnchorReceipt, dict, mined, reverted]
  · have none : ∀ status, ¬ HasStatus receipt status := fun status has => dict has.isDict
    refine Or.inr (Or.inr ⟨none _, none _, ?_⟩)
    rw [not_and_or, Bool.not_eq_true, Bool.not_eq_true] at dict
    cases truthy : receipt.truthy with
    | false => exact Or.inr (by simp [classifyAnchorReceipt, truthy])
    | true =>
        rw [truthy] at dict
        have notDict := dict.resolve_left Bool.noConfusion
        exact Or.inl (by simp [classifyAnchorReceipt, truthy, notDict])

theorem hasStatus_of_confirm {submittedAt : Option Seconds} {now ttl : Seconds}
    (classified : classifyAnchorReceipt receipt submittedAt now ttl = .ok .confirm) : HasStatus receipt "0x1" := by
  rcases classify_cases receipt submittedAt now ttl with ⟨_, mined⟩ | ⟨other, _⟩ | ⟨_, _, other | other⟩
  · exact mined
  · rw [other] at classified
    cases classified
  · rw [other] at classified
    cases classified
  · rw [other] at classified
    split at classified <;> cases classified

/-- A row that fails has a reason to. -/
theorem holds_of_action {reason : FailReason} {submittedAt : Option Seconds} {now : Seconds}
    (classified : classifyAnchorReceipt receipt submittedAt now chain.freshnessTtl = .ok reason.action) :
    reason.Holds chain submittedAt receipt now := by
  rcases classify_cases receipt submittedAt now chain.freshnessTtl with
    ⟨same, _⟩ | ⟨same, reverted⟩ | ⟨notReverted, notMined, same | same⟩ <;> rw [same] at classified
  · cases reason <;> cases classified
  · cases reason with
    | reverted => exact reverted
    | nonArrivalTimeout => cases classified
  · cases classified
  · split at classified
    · rename_i late
      obtain ⟨sent, submitted, later⟩ := (Option.any_eq_true ..).mp late
      cases reason with
      | reverted => cases classified
      | nonArrivalTimeout => exact ⟨notReverted, notMined, sent, submitted, of_decide_eq_true later⟩
    · cases reason <;> cases classified

/-- The block of a receipt is the number it carries, or zero. -/
theorem carriesOrZero_of_blockNumber (zero : chain.intBase16 (ofString "0x0") = some 0) {block : Int}
    (numbered : blockNumber chain.intBase16 receipt = .ok block) : CarriesOrZero chain receipt block := by
  cases receipt with
  | dict items =>
      cases found : items.lookup (ofString "blockNumber") with
      | none =>
          refine Or.inr ⟨by rw [Json.has, found]; rfl, ?_⟩
          rw [blockNumber, Json.getD, found, Option.getD_none] at numbered
          dsimp only at numbered
          rw [zero] at numbered
          exact (Except.ok.inj numbered).symm
      | some value =>
          rw [blockNumber, Json.getD, found, Option.getD_some] at numbered
          split at numbered
          · rename_i s
            split at numbered
            · rename_i number parsed
              obtain rfl := Except.ok.inj numbered
              exact Or.inl ⟨s, by rw [Json.get, found, Option.getD_some], parsed⟩
            · cases numbered
          · cases numbered
  | _ => cases numbered

end

/-- A check that is about to confirm its row has a receipt for it, and one that is about
to fail it has a reason. -/
theorem statement_of_check {chain : Chain} {row : TrailRow} {receipt : Except Raised Json} {now : Seconds}
    {program : Program Sql (Except Raised Unit)}
    (left : (AnchorCall.code chain (.check row receipt now)).Residual program) :
    (stage program = .confirm → ∃ answer block next, receipt = .ok answer ∧ HasStatus answer "0x1" ∧
      blockNumber chain.intBase16 answer = .ok block ∧ program = .perform (.confirmAnchor row.trailId block) next) ∧
    (stage program = .fail → ∃ answer reason next, receipt = .ok answer ∧
      reason.Holds chain row.anchorSubmittedAt answer now ∧
      program = .perform (.failAnchor row.trailId reason) next) := by
  rcases code_check chain row receipt now with
    ⟨block, code, answer, returned, classified, numbered⟩ | ⟨reason, code, answer, returned, classified⟩ | ⟨ended, code⟩
  · rw [code] at left
    rcases Program.residual_perform_iff.mp left with same | ⟨_, left⟩
    · refine ⟨fun _ => ⟨answer, block, _, returned, hasStatus_of_confirm classified, numbered, same⟩, ?_⟩
      rw [same]
      intro other
      cases other
    · cases program with
      | done value => constructor <;> intro other <;> cases other
      | perform op next =>
          rcases residual_asking left with same | ⟨hook, same⟩ <;> rw [same] <;>
            constructor <;> intro other <;> cases other
  · rw [code] at left
    rcases Program.residual_perform_iff.mp left with same | ⟨_, left⟩
    · refine ⟨?_, fun _ => ⟨answer, reason, _, returned, holds_of_action classified, same⟩⟩
      rw [same]
      intro other
      cases other
    · rw [Program.residual_done_iff.mp left]
      constructor <;> intro other <;> cases other
  · rw [code] at left
    rw [Program.residual_done_iff.mp left]
    constructor <;> intro other <;> cases other

/-- What a step does to the row of a trail, where `answers` is what the RPC has answered
for it. -/
inductive RowStep (chain : Chain) (answers : List (Json × Seconds)) : Option TrailRow → Option TrailRow → Prop
  | stays (row : Option TrailRow) : RowStep chain answers row row
  | records (row : TrailRow) (fresh : row.anchorStatus = none) : RowStep chain answers none (some row)
  | submits (row : TrailRow) (txHash : String) (now : Seconds) (fresh : row.anchorStatus = none) :
      RowStep chain answers (some row)
        (some { row with txHash := some txHash, anchorStatus := some .submitted, anchorSubmittedAt := some now })
  | confirms (row : TrailRow) {receipt : Json} {now : Seconds} {block : Int}
      (submitted : row.anchorStatus = some .submitted) (answered : (receipt, now) ∈ answers)
      (mined : HasStatus receipt "0x1") (numbered : blockNumber chain.intBase16 receipt = .ok block) :
      RowStep chain answers (some row) (some { row with anchorStatus := some .anchored, anchorBlock := some block })
  | fails (row : TrailRow) {receipt : Json} {now : Seconds} {reason : FailReason}
      (submitted : row.anchorStatus = some .submitted) (answered : (receipt, now) ∈ answers)
      (holds : reason.Holds chain row.anchorSubmittedAt receipt now) :
      RowStep chain answers (some row)
        (some { row with anchorStatus := some .failed, anchorFailReason := some reason })

theorem RowStep.mono {chain : Chain} {answers more : List (Json × Seconds)} {before after : Option TrailRow}
    (step : RowStep chain answers before after) (subset : ∀ {answer}, answer ∈ answers → answer ∈ more) :
    RowStep chain more before after := by
  cases step with
  | stays => exact .stays _
  | records row fresh => exact .records row fresh
  | submits row txHash now fresh => exact .submits row txHash now fresh
  | confirms row submitted answered mined numbered => exact .confirms row submitted (subset answered) mined numbered
  | fails row submitted answered holds => exact .fails row submitted (subset answered) holds

/-- The poller has read the row, and has neither confirmed it since nor failed it. -/
def AnchorState.Awaits (s : AnchorState) (row : TrailRow) : Prop :=
  row ∈ s.pending ∨ ∃ process ∈ s.pool.processes, (∃ receipt now, process.call = .check row receipt now) ∧
    AnchorProcess.plays row.trailId .checking process = true

/-- A trail is sent once, and checked once in a cycle. A thread that has not sent it has a
row without a status, and the poller waits for a row as it is stored. -/
structure AnchorState.Tracks (s : AnchorState) (trailId : String) : Prop where
  sentOnce : (s.view trailId).unsent ≤ 1
  checkedOnce : (s.view trailId).checking ≤ 1
  fresh : 0 < (s.view trailId).unsent → ∃ row, s.world.trails.find? trailId = some row ∧ row.anchorStatus = none
  awaited : ∀ row, s.Awaits row → row.trailId = trailId →
    s.world.trails.find? trailId = some row ∧ row.anchorStatus = some .submitted

structure AnchorState.Tracked (chain : Chain) (s : AnchorState) : Prop where
  runs : s.pool.Runs (AnchorCall.code chain)
  tracks : ∀ trailId, s.Tracks trailId

section
variable {chain : Chain} {s : AnchorState} {trailId : String}

theorem AnchorState.Awaits.checking_pos {row : TrailRow} (awaits : s.Awaits row) :
    0 < (s.view row.trailId).checking := by
  rcases awaits with waiting | ⟨process, member, _, plays⟩
  · exact Nat.add_pos_left (List.countP_pos_iff.mpr ⟨row, waiting, decide_eq_true rfl⟩) _
  · exact Nat.add_pos_right _ (List.countP_pos_iff.mpr ⟨process, member, plays⟩)

/-- What the RPC answered stays answered. -/
theorem answered_step (runs : s.pool.Runs (AnchorCall.code chain)) (step : AnchorStep) {answer : Json × Seconds}
    (answered : answer ∈ s.answered trailId) : answer ∈ (chain.step s step).answered trailId := by
  have more : ∀ call : AnchorCall, answer ∈
      AnchorState.answered { s with pool := { s.pool with
        processes := s.pool.processes ++ [⟨call, call.code chain⟩] } } trailId := by
    intro call
    rw [AnchorState.answered, List.map_append, List.filterMap_append]
    exact List.mem_append_left _ answered
  cases step with
  | request named body now => exact answered
  | begin index tx now lastAction =>
      simp only [Chain.step]
      split
      · exact answered
      · exact more _
  | poll =>
      simp only [Chain.step]
      split <;> exact answered
  | check receipt now =>
      simp only [Chain.step]
      split
      · exact more _
      · exact answered
  | advance index =>
      rcases advance_cases runs index with ⟨call, program, w, left, found, _, stepped⟩ | still
      · obtain ⟨inside, same⟩ := List.getElem?_eq_some_iff.mp found
        have calls : (s.pool.processes.set index ⟨call, left⟩).map Process.call =
            s.pool.processes.map Process.call := by
          have bound : index < (s.pool.processes.map Process.call).length := by rwa [List.length_map]
          have there : (s.pool.processes.map Process.call)[index] = call := by rw [List.getElem_map, same]
          rw [List.map_set]
          conv_lhs => rw [← there]
          exact List.set_getElem_self _
        rw [stepped, AnchorState.answered, calls]
        exact answered
      · rwa [still]

/-- A statement for another trail, or one that writes no row, leaves the row. -/
theorem Effect.find? {w after : World} {call : AnchorCall} {stage later : Stage}
    (effect : Effect w call stage after later)
    (elsewhere : call.trailId = trailId → stage ≠ .submit ∧ stage ≠ .confirm ∧ stage ≠ .fail) :
    after.trails.find? trailId = w.trails.find? trailId := by
  cases effect with
  | submit txHash next =>
      simp only [exec]
      exact (find?_updateTrail trailId).trans (if_neg fun same => (elsewhere same).1 rfl)
  | confirm block next =>
      simp only [exec]
      exact (find?_updateTrail trailId).trans (if_neg fun same => (elsewhere same).2.1 rfl)
  | fail reason =>
      simp only [exec]
      exact (find?_updateTrail trailId).trans (if_neg fun same => (elsewhere same).2.2 rfl)
  | _ => rfl

/-- The row of a check that writes is the row it has read. -/
theorem AnchorState.Tracks.checked (tracks : s.Tracks trailId) {index : Nat} {row : TrailRow}
    {receipt : Except Raised Json} {now : Seconds} {program : Program Sql (Except Raised Unit)}
    (found : s.pool.processes[index]? = some ⟨.check row receipt now, program⟩) (own : row.trailId = trailId)
    (writes : stage program = .confirm ∨ stage program = .fail) :
    s.world.trails.find? trailId = some row ∧ row.anchorStatus = some .submitted := by
  refine tracks.awaited row
    (Or.inr ⟨_, List.mem_of_getElem? found, ⟨receipt, now, rfl⟩, decide_eq_true ⟨rfl, ?_⟩⟩) own
  rcases writes with same | same <;> rw [same] <;> rfl

theorem mem_answered {index : Nat} {row : TrailRow} {receipt : Json} {now : Seconds}
    {program : Program Sql (Except Raised Unit)}
    (found : s.pool.processes[index]? = some ⟨.check row (.ok receipt) now, program⟩) :
    (receipt, now) ∈ s.answered row.trailId := by
  refine List.mem_filterMap.mpr ⟨_, List.mem_map_of_mem (List.mem_of_getElem? found), ?_⟩
  exact if_pos rfl

/-- A call that writes the row of its trail finds it as the order of its statuses has it. -/
theorem AnchorState.Tracked.rowStep_writes (tracked : s.Tracked chain) {index : Nat} {call : AnchorCall}
    {program left : Program Sql (Except Raised Unit)} {w : World}
    (found : s.pool.processes[index]? = some ⟨call, program⟩)
    (effect : Effect s.world call (stage program) w (stage left)) (own : call.trailId = trailId)
    (writes : ¬ (stage program ≠ .submit ∧ stage program ≠ .confirm ∧ stage program ≠ .fail))
    (after : (chain.step s (.advance index)).world = w) :
    RowStep chain (s.answered trailId) (s.world.trails.find? trailId) (w.trails.find? trailId) := by
  have runs := tracked.runs _ (List.mem_of_getElem? found)
  have performs : ∀ {β : Type} {op : Sql β} {next : β → Program Sql (Except Raised Unit)},
      program = .perform op next → w = (exec op s.world).2 := by
    rintro β op next rfl
    rw [← after, AnchorState.world, Chain.step]
    simp [Pool.step, found]
    rfl
  by_cases sends : stage program = .submit
  · rw [sends] at effect
    cases effect with
    | submit txHash next =>
        rename_i thread tx now lastAction
        have unsent : 0 < (s.view trailId).unsent := by
          refine Nat.add_pos_right _ (List.countP_pos_iff.mpr ⟨_, List.mem_of_getElem? found, decide_eq_true ⟨own, ?_⟩⟩)
          rw [sends]
          rfl
        obtain rfl : thread.trailId = trailId := own
        obtain ⟨row, stored, fresh⟩ := (tracked.tracks _).fresh unsent
        simp only [exec]
        rw [find?_updateTrail, if_pos rfl, stored]
        exact .submits row txHash now fresh
  by_cases confirms : stage program = .confirm
  · rw [confirms] at effect
    cases effect with
    | confirm =>
        rename_i row receipt now _ _
        obtain rfl : row.trailId = trailId := own
        obtain ⟨stored, submitted⟩ := (tracked.tracks _).checked found rfl (Or.inl confirms)
        obtain ⟨answer, block, next, rfl, mined, numbered, same⟩ := (statement_of_check runs).1 confirms
        rw [performs same]
        simp only [exec]
        rw [find?_updateTrail, if_pos rfl, stored]
        exact .confirms row submitted (mem_answered found) mined numbered
  by_cases fails : stage program = .fail
  · rw [fails] at effect
    generalize stage left = later at effect
    cases effect with
    | fail =>
        rename_i row receipt now _
        obtain rfl : row.trailId = trailId := own
        obtain ⟨stored, submitted⟩ := (tracked.tracks _).checked found rfl (Or.inr fails)
        obtain ⟨answer, reason, next, rfl, holds, same⟩ := (statement_of_check runs).2 fails
        rw [performs same]
        simp only [exec]
        rw [find?_updateTrail, if_pos rfl, stored]
        exact .fails row submitted (mem_answered found) holds
  · exact absurd ⟨sends, confirms, fails⟩ writes

/-- A step sends a trail that was not, or ends one that was sent on what a receipt says,
or leaves its row. -/
theorem AnchorState.Tracked.rowStep (tracked : s.Tracked chain) (step : AnchorStep) (trailId : String) :
    RowStep chain ((chain.step s step).answered trailId) (s.world.trails.find? trailId)
      ((chain.step s step).world.trails.find? trailId) := by
  have stays : (chain.step s step).world.trails.find? trailId = s.world.trails.find? trailId →
      RowStep chain ((chain.step s step).answered trailId) (s.world.trails.find? trailId)
        ((chain.step s step).world.trails.find? trailId) := by
    intro same
    rw [same]
    exact .stays _
  cases step with
  | request named body now =>
      obtain ⟨accounts, same | ⟨receipt, _, recorded⟩⟩ := nexusTrail_frame chain.settings named body now s.world
      · exact stays (by rw [AnchorState.world, Chain.step, same])
      · obtain ⟨row, _, _, fresh, absent, found⟩ := recorded.find?
        by_cases own : named = trailId
        · have recorded : (chain.step s (.request named body now)).world.trails.find? trailId = some row := by
            rw [AnchorState.world, Chain.step, found, if_pos own]
          have missing : s.world.trails.find? trailId = none := by
            rw [← own]
            exact absent
          rw [recorded, missing]
          exact .records row fresh
        · exact stays (by rw [AnchorState.world, Chain.step, found, if_neg own])
  | begin index tx now lastAction =>
      refine stays ?_
      simp only [Chain.step]
      split <;> rfl
  | poll =>
      refine stays ?_
      simp only [Chain.step]
      split <;> rfl
  | check receipt now =>
      refine stays ?_
      simp only [Chain.step]
      split <;> rfl
  | advance index =>
      rcases advance_cases tracked.runs index with ⟨call, program, w, left, found, effect, stepped⟩ | still
      on_goal 2 => exact stays (by rw [still])
      by_cases own : call.trailId = trailId
      on_goal 2 =>
        exact stays (by rw [stepped]; exact effect.find? fun same => absurd same own)
      have after : (chain.step s (.advance index)).world = w := by rw [stepped]; rfl
      by_cases elsewhere : stage program ≠ .submit ∧ stage program ≠ .confirm ∧ stage program ≠ .fail
      · exact stays (by rw [after]; exact effect.find? fun _ => elsewhere)
      · have moved := tracked.rowStep_writes found effect own elsewhere after
        rw [after]
        exact moved.mono fun answered => answered_step tracked.runs (.advance index) answered

namespace AnchorState.Tracks
variable {next : AnchorState}

/-- Where the row stays, nothing more is to be sent or checked. -/
theorem mono (tracks : s.Tracks trailId) (same : next.world.trails.find? trailId = s.world.trails.find? trailId)
    (unsent : (next.view trailId).unsent ≤ (s.view trailId).unsent)
    (checking : (next.view trailId).checking ≤ (s.view trailId).checking)
    (awaits : ∀ row, next.Awaits row → row.trailId = trailId → s.Awaits row) : next.Tracks trailId where
  sentOnce := unsent.trans tracks.sentOnce
  checkedOnce := checking.trans tracks.checkedOnce
  fresh waits := by
    rw [same]
    exact tracks.fresh (by omega)
  awaited row waits own := by
    rw [same]
    exact tracks.awaited row (awaits row waits own) own

/-- A trail that is recorded is to be sent. -/
theorem record (tracks : s.Tracks trailId) (absent : s.world.trails.find? trailId = none) {row : TrailRow}
    (recorded : next.world.trails.find? trailId = some row) (fresh : row.anchorStatus = none)
    (unsent : (next.view trailId).unsent ≤ (s.view trailId).unsent + 1)
    (checking : (next.view trailId).checking = (s.view trailId).checking)
    (awaits : ∀ row, next.Awaits row → s.Awaits row) : next.Tracks trailId where
  sentOnce := by
    have none : (s.view trailId).unsent = 0 := by
      by_contra some
      obtain ⟨_, there, _⟩ := tracks.fresh (Nat.pos_of_ne_zero some)
      rw [absent] at there
      cases there
    omega
  checkedOnce := checking.trans_le tracks.checkedOnce
  fresh _ := ⟨row, recorded, fresh⟩
  awaited other waits own := by
    have there := (tracks.awaited other (awaits other waits) own).1
    rw [absent] at there
    cases there

/-- A trail that is sent is neither to be sent nor to be checked. -/
theorem send (tracks : s.Tracks trailId) (positive : 0 < (s.view trailId).unsent)
    (unsent : (next.view trailId).unsent + 1 = (s.view trailId).unsent)
    (checking : (next.view trailId).checking ≤ (s.view trailId).checking)
    (awaits : ∀ row, next.Awaits row → row.trailId = trailId → s.Awaits row) : next.Tracks trailId where
  sentOnce := by have := tracks.sentOnce; omega
  checkedOnce := checking.trans tracks.checkedOnce
  fresh waits := by have := tracks.sentOnce; omega
  awaited row waits own := by
    obtain ⟨stored, submitted⟩ := tracks.awaited row (awaits row waits own) own
    obtain ⟨_, there, fresh⟩ := tracks.fresh positive
    rw [stored] at there
    obtain rfl := Option.some.inj there
    rw [submitted] at fresh
    cases fresh

/-- A trail that is confirmed or failed is neither to be sent nor to be checked. -/
theorem finish (tracks : s.Tracks trailId) {row : TrailRow} (stored : s.world.trails.find? trailId = some row)
    (submitted : row.anchorStatus = some .submitted)
    (unsent : (next.view trailId).unsent ≤ (s.view trailId).unsent)
    (checking : (next.view trailId).checking + 1 = (s.view trailId).checking) : next.Tracks trailId := by
  have sent : (s.view trailId).unsent = 0 := by
    by_contra some
    obtain ⟨_, there, fresh⟩ := tracks.fresh (Nat.pos_of_ne_zero some)
    rw [stored] at there
    obtain rfl := Option.some.inj there
    rw [submitted] at fresh
    cases fresh
  have once := tracks.checkedOnce
  refine ⟨by omega, by omega, fun waits => by omega, ?_⟩
  rintro other waits rfl
  have positive := waits.checking_pos
  omega

end AnchorState.Tracks

/-- A call that begins or goes on waits for no row that was not awaited. -/
theorem awaits_set {index : Nat} {call : AnchorCall} {program left : Program Sql (Except Raised Unit)} {w : World}
    {credited : List AnchorThread} (found : s.pool.processes[index]? = some ⟨call, program⟩)
    (effect : Effect s.world call (stage program) w (stage left)) {row : TrailRow}
    (awaits : AnchorState.Awaits
      { pool := { state := w, processes := s.pool.processes.set index ⟨call, left⟩ }
        pending := s.pending
        credited } row) : s.Awaits row := by
  rcases awaits with waiting | ⟨process, member, checks, plays⟩
  · exact Or.inl waiting
  rcases List.mem_or_eq_of_mem_set member with earlier | rfl
  · exact Or.inr ⟨process, earlier, checks, plays⟩
  obtain ⟨receipt, now, rfl⟩ := checks
  have role := (of_decide_eq_true plays).2
  dsimp only at role
  generalize stage program = current at effect
  generalize stage left = later at effect role
  cases effect with
  | confirm block next => rcases next with rfl | rfl <;> cases role
  | fail reason => cases role
  | askConfirmed next => rcases next with rfl | rfl <;> cases role
  | notifyConfirmed => cases role

theorem AnchorState.Tracks.advance (tracks : s.Tracks trailId) {index : Nat} {call : AnchorCall}
    {program left : Program Sql (Except Raised Unit)} {w : World}
    (found : s.pool.processes[index]? = some ⟨call, program⟩)
    (effect : Effect s.world call (stage program) w (stage left)) : AnchorState.Tracks
      { pool := { state := w, processes := s.pool.processes.set index ⟨call, left⟩ }
        pending := s.pending
        credited := s.credited ++ call.credits (stage program) } trailId := by
  have awaits : ∀ row, AnchorState.Awaits
      { pool := { state := w, processes := s.pool.processes.set index ⟨call, left⟩ }
        pending := s.pending
        credited := s.credited ++ call.credits (stage program) } row → row.trailId = trailId → s.Awaits row :=
    fun row waits _ => awaits_set found effect waits
  by_cases own : call.trailId = trailId
  on_goal 2 =>
    have same := view_other found effect own
    exact tracks.mono (effect.find? fun same => absurd same own) (by rw [same]) (by rw [same]) awaits
  have checked : ∀ {row receipt now}, call = .check row receipt now → stage program = .confirm ∨ stage program = .fail →
      s.world.trails.find? trailId = some row ∧ row.anchorStatus = some .submitted := by
    rintro row receipt now rfl writes
    exact tracks.checked found own writes
  obtain ⟨_, _, unsent, _, checking, _⟩ := view_own found effect own
  generalize after : AnchorState.mk _ _ _ = next at awaits unsent checking ⊢
  have world : next.world = w := by rw [← after]; rfl
  clear after
  generalize stage program = current at *
  generalize stage left = later at *
  cases effect with
  | broadcast later =>
      rcases later with rfl | rfl <;> simp only [AnchorCall.role, reduceCtorEq, if_true, if_false] at unsent checking
      · exact tracks.mono (by rw [world]; rfl) (by omega) (by omega) awaits
      · exact tracks.mono (by rw [world]; rfl) (by omega) (by omega) awaits
  | submit txHash later =>
      rcases later with rfl | rfl | rfl <;>
        simp only [AnchorCall.role, reduceCtorEq, if_true, if_false] at unsent checking
      · exact tracks.send (by omega) (by omega) (by omega) awaits
      · exact tracks.send (by omega) (by omega) (by omega) awaits
      · exact tracks.send (by omega) (by omega) (by omega) awaits
  | confirm block later =>
      obtain ⟨stored, submitted⟩ := checked rfl (Or.inl rfl)
      rcases later with rfl | rfl <;> simp only [AnchorCall.role, reduceCtorEq, if_true, if_false] at unsent checking
      · exact tracks.finish stored submitted (by omega) (by omega)
      · exact tracks.finish stored submitted (by omega) (by omega)
  | fail reason =>
      obtain ⟨stored, submitted⟩ := checked rfl (Or.inr rfl)
      simp only [AnchorCall.role, reduceCtorEq, if_true, if_false] at unsent checking
      exact tracks.finish stored submitted (by omega) (by omega)
  | credit later =>
      rcases later with rfl | rfl <;> simp only [AnchorCall.role, reduceCtorEq, if_false] at unsent checking
      · exact tracks.mono (by rw [world]; rfl) (by omega) (by omega) awaits
      · exact tracks.mono (by rw [world]; rfl) (by omega) (by omega) awaits
  | ask later _ =>
      rcases later with rfl | rfl <;> simp only [AnchorCall.role, reduceCtorEq, if_false] at unsent checking
      · exact tracks.mono (by rw [world]) (by omega) (by omega) awaits
      · exact tracks.mono (by rw [world]) (by omega) (by omega) awaits
  | askConfirmed later =>
      rcases later with rfl | rfl <;> simp only [AnchorCall.role, reduceCtorEq, if_false] at unsent checking
      · exact tracks.mono (by rw [world]) (by omega) (by omega) awaits
      · exact tracks.mono (by rw [world]) (by omega) (by omega) awaits
  | notify =>
      simp only [AnchorCall.role, reduceCtorEq, if_false] at unsent checking
      exact tracks.mono (by rw [world]; rfl) (by omega) (by omega) awaits
  | notifyConfirmed =>
      simp only [AnchorCall.role, reduceCtorEq, if_false] at unsent checking
      exact tracks.mono (by rw [world]; rfl) (by omega) (by omega) awaits

/-- A call that begins awaits the row it is for, if it is a check. -/
theorem awaits_append {call : AnchorCall} {program : Program Sql (Except Raised Unit)} {w : World}
    {pending : List TrailRow} {credited : List AnchorThread} {row : TrailRow}
    (awaits : AnchorState.Awaits
      { pool := { state := w, processes := s.pool.processes ++ [⟨call, program⟩] }
        pending
        credited } row) (subset : ∀ row ∈ pending, row ∈ s.pending) :
    s.Awaits row ∨ ∃ receipt now, call = .check row receipt now := by
  rcases awaits with waiting | ⟨process, member, checks, plays⟩
  · exact Or.inl (Or.inl (subset row waiting))
  rcases List.mem_append.mp member with earlier | last
  · exact Or.inl (Or.inr ⟨process, earlier, checks, plays⟩)
  · rw [List.mem_singleton.mp last] at checks
    exact Or.inr checks

/-- A request records a trail that was not there, or leaves the trail as it was. -/
theorem AnchorState.Tracks.request (tracks : s.Tracks trailId) (named : String) (body : Json) (now : Seconds) :
    (chain.step s (.request named body now)).Tracks trailId := by
  obtain ⟨accounts, same | ⟨receipt, _, recorded⟩⟩ := nexusTrail_frame chain.settings named body now s.world
  · rw [Chain.step, same]
    exact tracks.mono rfl le_rfl le_rfl fun _ awaits _ => awaits
  obtain ⟨row, _, _, fresh, absent, found⟩ := recorded.find?
  have stored : (chain.step s (.request named body now)).world.trails.find? trailId = _ := found trailId
  have moved := @view_request chain s trailId named body now
  by_cases own : named = trailId
  · rw [if_pos own] at stored
    have unsent : ((chain.step s (.request named body now)).view trailId).unsent ≤ (s.view trailId).unsent + 1 := by
      rcases moved with within | ⟨_, _, unsent, _⟩
      · exact within.unsent.trans (Nat.le_succ _)
      · exact unsent
    exact tracks.record (own ▸ absent) stored fresh unsent rfl fun _ awaits => awaits
  · rw [if_neg own] at stored
    rcases moved with within | ⟨missing, ⟨origin, mark⟩, _⟩
    · exact tracks.mono stored within.unsent within.checking fun _ awaits _ => awaits
    · change Option.map _ _ = _ at missing mark
      rw [stored, missing] at mark
      cases mark

theorem AnchorState.Tracks.begin (tracks : s.Tracks trailId) (index : Nat) (tx : Option String)
    (now : Seconds) (lastAction : Community.Instant) :
    (chain.step s (.begin index tx now lastAction)).Tracks trailId := by
  have within := @view_begin chain s trailId index tx now lastAction
  refine tracks.mono ?_ within.unsent within.checking ?_
  · simp only [Chain.step]
    split <;> rfl
  · simp only [Chain.step]
    intro row awaits _
    split at awaits
    · exact awaits
    rcases awaits_append awaits fun _ member => member with earlier | ⟨_, _, call⟩
    · exact earlier
    · cases call

/-- A poll reads each submitted row once, and finds none of the last poll left. -/
theorem AnchorState.Tracks.poll (tracks : s.Tracks trailId) : (chain.step s .poll).Tracks trailId := by
  simp only [Chain.step]
  split
  on_goal 2 => exact tracks
  rename_i free
  have idle := plays_idle (Bool.and_eq_true_iff.mp free).1 trailId
  have checking :
      (AnchorState.view { s with pending := (exec (.submittedTrails 20) s.world).1 } trailId).checking =
      (exec (.submittedTrails 20) s.world).1.countP fun row => row.trailId = trailId := by
    change _ + s.plays trailId .checking = _
    rw [idle, add_zero]
  refine ⟨tracks.sentOnce, ?_, tracks.fresh, ?_⟩
  · rw [checking]
    exact (submittedTrails_once s.world 20 trailId).1
  · rintro row (read | ⟨process, member, _, plays⟩) rfl
    · exact stored_of_submittedTrails read
    · exact absurd plays (List.countP_eq_zero.mp idle process member)

theorem AnchorState.Tracks.check (tracks : s.Tracks trailId) (receipt : Except Raised Json) (now : Seconds) :
    (chain.step s (.check receipt now)).Tracks trailId := by
  have within := @view_check chain s trailId receipt now
  refine tracks.mono ?_ within.unsent within.checking ?_
  · simp only [Chain.step]
    split <;> rfl
  · simp only [Chain.step]
    intro row awaits _
    split at awaits
    on_goal 2 => exact awaits
    rename_i head rest _ pending
    have subset : ∀ row ∈ rest, row ∈ s.pending := fun _ member => pending ▸ List.mem_cons_of_mem _ member
    rcases awaits_append awaits subset with earlier | ⟨_, _, call⟩
    · exact earlier
    · cases call
      exact Or.inl (pending ▸ List.mem_cons_self)

/-- A step keeps what is tracked. -/
theorem AnchorState.Tracked.step (tracked : s.Tracked chain) (step : AnchorStep) :
    (chain.step s step).Tracked chain where
  runs := runs_step tracked.runs step
  tracks trailId := by
    have tracks := tracked.tracks trailId
    cases step with
    | request named body now => exact tracks.request named body now
    | begin index tx now lastAction => exact tracks.begin index tx now lastAction
    | poll => exact tracks.poll
    | check receipt now => exact tracks.check receipt now
    | advance index =>
        rcases advance_cases tracked.runs index with ⟨call, program, w, left, found, effect, stepped⟩ | still
        · rw [stepped]
          exact tracks.advance found effect
        · rwa [still]

/-- A row of the start is as it was, and where another ended in is what a receipt said. -/
def AnchorState.Explained (chain : Chain) (start : World) (s : AnchorState) : Prop :=
  ∀ trailId row, s.world.trails.find? trailId = some row → start.trails.find? trailId = some row ∨
    (row.anchorStatus = some .anchored → ∃ receipt now block, (receipt, now) ∈ s.answered trailId ∧
      HasStatus receipt "0x1" ∧ row.anchorBlock = some block ∧ blockNumber chain.intBase16 receipt = .ok block) ∧
    (row.anchorStatus = some .failed → ∃ receipt now reason, (receipt, now) ∈ s.answered trailId ∧
      row.anchorFailReason = some reason ∧ reason.Holds chain row.anchorSubmittedAt receipt now)

theorem AnchorState.Explained.step {start : World} (explained : s.Explained chain start) (tracked : s.Tracked chain)
    (step : AnchorStep) : (chain.step s step).Explained chain start := by
  intro trailId row found
  have moved := tracked.rowStep step trailId
  rw [found] at moved
  generalize same : s.world.trails.find? trailId = before at moved
  cases moved with
  | stays =>
      rcases explained trailId row same with unchanged | ⟨anchored, failed⟩
      · exact Or.inl unchanged
      refine Or.inr ⟨fun status => ?_, fun status => ?_⟩
      · obtain ⟨receipt, now, block, answered, facts⟩ := anchored status
        exact ⟨receipt, now, block, answered_step tracked.runs step answered, facts⟩
      · obtain ⟨receipt, now, reason, answered, facts⟩ := failed status
        exact ⟨receipt, now, reason, answered_step tracked.runs step answered, facts⟩
  | records _ fresh =>
      rw [fresh]
      exact Or.inr ⟨fun status => (by cases status), fun status => (by cases status)⟩
  | submits =>
      exact Or.inr ⟨fun status => (by cases status), fun status => (by cases status)⟩
  | confirms _ _ answered mined numbered =>
      exact Or.inr ⟨fun _ => ⟨_, _, _, answered, mined, rfl, numbered⟩, fun status => (by cases status)⟩
  | fails _ _ answered holds =>
      exact Or.inr ⟨fun status => (by cases status), fun _ => ⟨_, _, _, answered, rfl, holds⟩⟩

/-- What a run from tables where no thread waits keeps. -/
theorem tracked_reached (chain : Chain) {start : World} (unstarted : start.threads = []) (steps : List AnchorStep) :
    (chain.reached start steps).Tracked chain ∧ (chain.reached start steps).Explained chain start := by
  refine run_invariant (P := fun s : AnchorState => s.Tracked chain ∧ s.Explained chain start)
    (fun s step kept => ⟨kept.1.step step, kept.2.step kept.1 step⟩) steps ⟨⟨?_, fun trailId => ?_⟩, ?_⟩
  · intro process member
    cases member
  · have none : (AnchorState.view ⟨⟨start, []⟩, [], []⟩ trailId).unsent = 0 ∧
        (AnchorState.view ⟨⟨start, []⟩, [], []⟩ trailId).checking = 0 := by
      simp [AnchorState.view, AnchorState.world, AnchorState.plays, unstarted]
    refine ⟨by omega, by omega, fun waits => by omega, fun row waits => ?_⟩
    rcases waits with waiting | ⟨process, member, _⟩
    · cases waiting
    · cases member
  · exact fun trailId row found => Or.inl found

/-- In the order of its statuses, a step moves a row to where it may go. -/
theorem moves_of_rowStep {answers : List (Json × Seconds)} {row : TrailRow} {after : Option TrailRow}
    (moved : RowStep chain answers (some row) after) :
    ∃ next, after = some next ∧ AnchorStatus.moves row.anchorStatus next.anchorStatus := by
  cases moved with
  | stays =>
      refine ⟨row, rfl, ?_⟩
      rcases row.anchorStatus with _ | _ | _ | _ <;> rfl
  | submits _ _ _ fresh =>
      refine ⟨_, rfl, ?_⟩
      rw [fresh]
      rfl
  | confirms _ submitted =>
      refine ⟨_, rfl, ?_⟩
      rw [submitted]
      rfl
  | fails _ submitted =>
      refine ⟨_, rfl, ?_⟩
      rw [submitted]
      rfl

end

/-- Whatever the RPC answers and however the poller and the threads interleave, a trail is
sent, and then anchored or failed for good, as a receipt said. -/
theorem anchorLifecycle {chain : Chain} {start : World} (zero : chain.intBase16 (ofString "0x0") = some 0)
    (unstarted : start.threads = []) (steps : List AnchorStep) :
    AnchorLifecycle (CarriesOrZero chain) chain start steps := by
  have stepped : ∀ before step, chain.reached start (before ++ [step]) = chain.step (chain.reached start before) step :=
    fun before step => run_concat before step
  constructor
  · rintro before step after rfl trailId row absent recorded
    have moved := (tracked_reached chain unstarted before).1.rowStep step trailId
    rw [absent, ← stepped, recorded] at moved
    cases moved with
    | records _ fresh => exact fresh
  · rintro before step after rfl trailId row found
    have moved := (tracked_reached chain unstarted before).1.rowStep step trailId
    rw [found, ← stepped] at moved
    exact moves_of_rowStep moved
  · intro trailId row found anchored
    refine ((tracked_reached chain unstarted steps).2 trailId row found).imp_right fun explained => ?_
    obtain ⟨receipt, now, block, answered, mined, stored, numbered⟩ := explained.1 anchored
    exact ⟨receipt, now, block, answered, mined, stored, carriesOrZero_of_blockNumber zero numbered⟩
  · intro trailId row found failed
    exact ((tracked_reached chain unstarted steps).2 trailId row found).imp_right fun explained => explained.2 failed

/-- `int(s, 16)` of a number as Ethereum writes it. -/
def quantity : Str → Option Int
  | 48 :: 120 :: digits =>
      if digits = [] then none
      else digits.foldl (fun parsed digit => do
        let value : Int ← if 48 ≤ digit ∧ digit ≤ 57 then some (digit.val - 48)
          else if 97 ≤ digit ∧ digit ≤ 102 then some (digit.val - 87) else none
        return 16 * (← parsed) + value) (some 0)
  | _ => none

/-- A chain whose receipts give their block as a quantity. -/
def quantities : Chain := ⟨deployed, quantity, 900⟩

theorem anchorLifecycle_confirmed :
    AnchorLifecycle (CarriesOrZero quantities) quantities oneCredit (anchoring "nexus" "0x1") :=
  anchorLifecycle (by decide +kernel) rfl _

/-- A trail whose receipt has a status and no block. -/
def unnumbered : List AnchorStep :=
  [.request "trail" (receiptOf .null .null) 100, .begin 0 (some "0x01") 100 0, .advance 0, .advance 0, .poll,
    .check (.ok (.dict [(ofString "status", .str (ofString "0x1"))])) 110, .advance 1]

/-- The trail is anchored at block zero, which its receipt does not carry. -/
theorem not_anchorLifecycle_unnumbered : ¬ AnchorLifecycle (Carries quantities) quantities oneCredit unnumbered := by
  intro lifecycle
  have stored : ((quantities.reached oneCredit unnumbered).world.trails.find? "trail").any fun row =>
      row.anchorStatus = some .anchored := by decide +kernel
  have uncarried : ((quantities.reached oneCredit unnumbered).answered "trail").all fun answer =>
      (answer.1.get (ofString "blockNumber")).isNull := by decide +kernel
  have recorded : (oneCredit.trails.find? "trail").isNone := by decide +kernel
  obtain ⟨row, found, anchored⟩ := (Option.any_eq_true ..).mp stored
  rcases lifecycle.anchored "trail" row found (of_decide_eq_true anchored) with before |
    ⟨receipt, now, block, answered, _, _, s, carried, _⟩
  · rw [before] at recorded
    cases recorded
  · have null := List.all_eq_true.mp uncarried _ answered
    rw [carried] at null
    cases null

end Argentum.Mycelium
