import Argentum.Core.Endless
import Argentum.Mycelium.Statuses

/-! Karma and notifications follow the anchor. A trail that is credited has to be anchored
sooner or later, so the runs are endless. They are followed where threads credit trails of
origin `nexus` alone, no trail that was credited fails, no thread finds a webhook, and the
poller gets to a receipt that confirms what was credited. -/
namespace Argentum.Mycelium
open Argentum Text Transition

/-- The states of an endless run. -/
def Chain.after (chain : Chain) (start : World) (steps : Nat → AnchorStep) : Nat → AnchorState :=
  states chain.step ⟨⟨start, []⟩, [], []⟩ steps

/-- The trail is anchored. -/
def AnchorState.anchored (s : AnchorState) (trailId : String) : Bool :=
  (s.world.trails.find? trailId).any fun row => row.anchorStatus = some .anchored

/-- Karma is what was credited. A trail is credited once at most, of origin `nexus`, and
is anchored then or later; it is notified once at most, and is anchored. -/
def FollowsAnchor (chain : Chain) (start : World) (steps : Nat → AnchorStep) : Prop :=
  ∀ n, let s := chain.after start steps n
    (∀ entityId, s.world.karmaOf entityId =
      (fun karma => addKarma karma trailKarmaDelta)^[s.credited.countP fun thread => thread.agentId = entityId]
        (start.karmaOf entityId)) ∧
    ∀ trailId,
      s.credited.countP (fun thread => thread.trailId = trailId) ≤ 1 ∧
      (∀ thread ∈ s.credited, thread.trailId = trailId →
        (∃ row, s.world.trails.find? trailId = some row ∧ row.agentId = thread.agentId ∧ row.origin = "nexus") ∧
          ∃ later ≥ n, (chain.after start steps later).anchored trailId = true) ∧
      s.world.notifications.countP (fun notification => notification.trailId = trailId) ≤ 1 ∧
      ∀ notification ∈ s.world.notifications, notification.trailId = trailId → s.anchored trailId = true

/-- The row that the poller turns to next. -/
def AnchorState.next? (s : AnchorState) : Option TrailRow := if s.idle then s.pending.head? else none

/-- The RPC answers a turn on the trail with a receipt that confirms it, and the poller
lives to execute the `UPDATE` of that turn. -/
def Chain.Confirmed (chain : Chain) (start : World) (steps : Nat → AnchorStep) (trailId : String) : Prop :=
  ∃ turn write receipt now row, steps turn = .check (.ok receipt) now ∧
    (chain.after start steps turn).next? = some row ∧ row.trailId = trailId ∧ HasStatus receipt "0x1" ∧
    (∃ block, blockNumber chain.intBase16 receipt = .ok block) ∧
    turn < write ∧ steps write = .advance (chain.after start steps turn).pool.processes.length

section
variable {chain : Chain} {s : AnchorState} {trailId : String}

/-- The karma that a step credits. -/
theorem karmaOf_step (runs : s.pool.Runs (AnchorCall.code chain)) (step : AnchorStep) (entityId : String) :
    ∃ threads, (chain.step s step).credited = s.credited ++ threads ∧ (chain.step s step).world.karmaOf entityId =
      (fun karma => addKarma karma trailKarmaDelta)^[threads.countP fun thread => thread.agentId = entityId]
        (s.world.karmaOf entityId) := by
  have still : ∀ after : AnchorState, after.credited = s.credited → after.world.wisdom = s.world.wisdom →
      ∃ threads, after.credited = s.credited ++ threads ∧ after.world.karmaOf entityId =
        (fun karma => addKarma karma trailKarmaDelta)^[threads.countP fun thread => thread.agentId = entityId]
          (s.world.karmaOf entityId) := by
    intro after credited wisdom
    refine ⟨[], by rw [credited, List.append_nil], ?_⟩
    rw [World.karmaOf, wisdom]
    rfl
  cases step with
  | request trailId body now =>
      refine still (chain.step s (.request trailId body now)) rfl ?_
      change ((nexusTrail chain.settings trailId body now).run s.world).2.wisdom = _
      obtain ⟨accounts, same | ⟨receipt, _, recorded⟩⟩ := nexusTrail_frame chain.settings trailId body now s.world
      · rw [same]
      · rw [recorded.frame]
  | begin index tx now lastAction =>
      apply still <;> simp only [Chain.step] <;> split <;> rfl
  | poll => apply still <;> simp only [Chain.step] <;> split <;> rfl
  | check receipt now => apply still <;> simp only [Chain.step] <;> split <;> rfl
  | advance index =>
      rcases advance_cases runs index with ⟨call, program, w, left, found, effect, stepped⟩ | same
      · rw [stepped]
        refine ⟨_, rfl, ?_⟩
        change w.karmaOf entityId = _
        generalize stage program = current at *
        generalize stage left = later at *
        cases effect with
        | credit =>
            rename_i thread tx now lastAction next
            rw [karmaOf_creditKarma, AnchorCall.credits, List.countP_singleton]
            by_cases own : thread.agentId = entityId <;> simp [own]
        | broadcast | submit | ask | notify | confirm | fail | askConfirmed | notifyConfirmed => rfl
      · exact still _ (by rw [same]) (by rw [same])

/-- A trail that is anchored stays so. -/
theorem anchored_step (tracked : s.Tracked chain) (anchored : s.anchored trailId = true) (step : AnchorStep) :
    (chain.step s step).anchored trailId = true := by
  obtain ⟨row, found, status⟩ := (Option.any_eq_true ..).mp anchored
  have moved := tracked.rowStep step trailId
  rw [found] at moved
  obtain ⟨next, after, moves⟩ := moves_of_rowStep moved
  rw [of_decide_eq_true status] at moves
  rw [AnchorState.anchored, after, Option.any_some]
  revert moves
  rcases next.anchorStatus with _ | _ | _ | _ <;> exact id

/-- The turn of the poller at a place has its `UPDATE` yet to execute, which confirms the trail. -/
def AnchorState.Confirming (s : AnchorState) (place : Nat) (trailId : String) : Prop :=
  ∃ row receipt now block next, s.pool.processes[place]? =
    some ⟨.check row receipt now, .perform (.confirmAnchor row.trailId block) next⟩ ∧ row.trailId = trailId

theorem confirming_check {row : TrailRow} {receipt : Json} {now : Seconds} {block : Int} (next : s.next? = some row)
    (mined : HasStatus receipt "0x1") (numbered : blockNumber chain.intBase16 receipt = .ok block) :
    (chain.step s (.check (.ok receipt) now)).Confirming s.pool.processes.length row.trailId := by
  have confirms : classifyAnchorReceipt receipt row.anchorSubmittedAt now chain.freshnessTtl = .ok .confirm := by
    have dict := mined.isDict
    rw [HasStatus] at mined
    simp [classifyAnchorReceipt, dict, mined]
  unfold AnchorState.next? at next
  split at next
  on_goal 2 => cases next
  rename_i idle
  obtain ⟨rest, pending⟩ := List.head?_eq_some_iff.mp next
  have started : AnchorCall.code chain (.check row (.ok receipt) now) =
      .perform (.confirmAnchor row.trailId block) fun _ => ExceptT.run
        (notify chain.settings row.agentId row.trailId (prefixed (row.txHash.getD ""))) := by
    unfold AnchorCall.code checkTrail
    change ExceptT.run (bound (classifyAnchorReceipt receipt row.anchorSubmittedAt now chain.freshnessTtl) >>= _) = _
    rw [confirms]
    change ExceptT.run (bound (blockNumber chain.intBase16 receipt) >>= _) = _
    rw [numbered]
    rfl
  refine ⟨row, .ok receipt, now, block, fun _ => ExceptT.run
    (notify chain.settings row.agentId row.trailId (prefixed (row.txHash.getD ""))), ?_, rfl⟩
  simp only [Chain.step, idle, pending, List.getElem?_concat_length, started]

/-- While it waits to execute its `UPDATE`, nothing else moves the turn. -/
theorem confirming_step {place : Nat} (confirming : s.Confirming place trailId) {step : AnchorStep}
    (other : step ≠ .advance place) : (chain.step s step).Confirming place trailId := by
  obtain ⟨row, receipt, now, block, next, found, own⟩ := confirming
  have within : place < s.pool.processes.length := (List.getElem?_eq_some_iff.mp found).1
  refine ⟨row, receipt, now, block, next, ?_, own⟩
  cases step with
  | request => exact found
  | poll =>
      simp only [Chain.step]
      split <;> exact found
  | begin | check =>
      simp only [Chain.step]
      split
      · first
        | exact found
        | exact (List.getElem?_append_left within).trans found
      · first
        | exact found
        | exact (List.getElem?_append_left within).trans found
  | advance index =>
      have apart : index ≠ place := fun same => other (by rw [same])
      rcases s.pool.step_advance exec (AnchorCall.code chain) index with ⟨call, β, op, left, _, stepped⟩ | ⟨_, still⟩
      · rw [Chain.step, stepped]
        exact (List.getElem?_set_ne apart).trans found
      · rw [Chain.step, still]
        exact found

/-- The `UPDATE` of the turn anchors the trail. -/
theorem anchored_of_confirming (tracked : s.Tracked chain) {place : Nat} (confirming : s.Confirming place trailId) :
    (chain.step s (.advance place)).anchored trailId = true := by
  obtain ⟨row, receipt, now, block, next, found, rfl⟩ := confirming
  obtain ⟨stored, _⟩ := (tracked.tracks _).checked found rfl (Or.inl rfl)
  have written : (chain.step s (.advance place)).world = (exec (.confirmAnchor row.trailId block) s.world).2 := by
    rw [AnchorState.world, Chain.step]
    simp [Pool.step, found]
    rfl
  rw [AnchorState.anchored, written]
  simp only [exec]
  rw [find?_updateTrail, if_pos rfl, stored]
  rfl

/-- A trail that the poller gets a confirming receipt for is anchored, for good. -/
theorem Chain.Confirmed.anchored {start : World} {steps : Nat → AnchorStep}
    (confirmed : chain.Confirmed start steps trailId)
    (tracked : ∀ n, (chain.after start steps n).Tracked chain) (n : Nat) :
    ∃ later ≥ n, (chain.after start steps later).anchored trailId = true := by
  obtain ⟨turn, write, receipt, now, row, checks, next, rfl, mined, ⟨block, numbered⟩, ordered, writes⟩ := confirmed
  have stays : ∀ n, (chain.after start steps n).anchored row.trailId = true →
      (chain.after start steps (n + 1)).anchored row.trailId = true :=
    fun n anchored => anchored_step (tracked n) anchored (steps n)
  have turned : (chain.after start steps (turn + 1)).Confirming
      (chain.after start steps turn).pool.processes.length row.trailId := by
    rw [Chain.after, states, checks]
    exact confirming_check next mined numbered
  have written : (chain.after start steps (write + 1)).anchored row.trailId = true := by
    refine states_awaited (P := fun s : AnchorState => s.Confirming _ row.trailId)
      (Q := fun s : AnchorState => s.anchored row.trailId = true) (fun n confirming => ?_) stays
      (fun confirming => ?_) ordered turned
    · by_cases own : steps n = .advance (chain.after start steps turn).pool.processes.length
      · right
        rw [states, own]
        exact anchored_of_confirming (tracked n) confirming
      · exact Or.inl (confirming_step confirming own)
    · rw [states, writes]
      exact anchored_of_confirming (tracked write) confirming
  exact ⟨max n (write + 1), le_max_left _ _,
    states_stable (P := fun s : AnchorState => s.anchored row.trailId = true) stays (le_max_right _ _) written⟩

theorem tracked_after {start : World} (unstarted : start.threads = []) (steps : Nat → AnchorStep) (n : Nat) :
    (chain.after start steps n).Tracked chain :=
  @states_invariant _ _ chain.step (fun _ _ => True) _ _ _ (fun _ => trivial) (fun _ step kept _ => kept.step step)
    (tracked_reached chain unstarted []).1 n

/-- What a run keeps from tables where no thread waits and no agent was told. -/
theorem sound_after {start : World} {steps : Nat → AnchorStep} (unstarted : start.threads = [])
    (unnotified : start.notifications = [])
    (keeps : ∀ n, (chain.after start steps n).KeepsToAnchor (steps n)) (n : Nat) :
    (chain.after start steps n).Sound chain ∧ ∀ entityId, (chain.after start steps n).world.karmaOf entityId =
      (fun karma => addKarma karma trailKarmaDelta)^[(chain.after start steps n).credited.countP
        fun thread => thread.agentId = entityId] (start.karmaOf entityId) := by
  have nobody : ∀ process ∈ (⟨start, []⟩ : AnchorPool).processes, False := by
    intro process member
    cases member
  have begun : AnchorState.Sound chain ⟨⟨start, []⟩, [], []⟩ := {
    runs := fun process member => (nobody process member).elim
    owned := by
      constructor
      · simp [AnchorState.world, unstarted]
      · intro process member
        exact (nobody process member).elim
      · intro thread member
        cases member
    quiet := fun process member => (nobody process member).elim
    coherent := fun trailId => by
      have none : AnchorState.view ⟨⟨start, []⟩, [], []⟩ trailId = ⟨start.mark trailId, 0, 0, 0, 0, 0⟩ := by
        simp [AnchorState.view, AnchorState.world, AnchorState.plays, unstarted, unnotified]
      rw [none]
      refine ⟨by simp, by simp, by simp, ?_, fun _ _ positive => by simp at positive⟩
      rw [TrailView.Outstanding]
      split <;> simp }
  refine states_invariant (P := fun s : AnchorState => s.Sound chain ∧ ∀ entityId, s.world.karmaOf entityId =
    (fun karma => addKarma karma trailKarmaDelta)^[s.credited.countP fun thread => thread.agentId = entityId]
      (start.karmaOf entityId)) keeps (fun s step kept keeps => ⟨kept.1.step keeps, fun entityId => ?_⟩)
    ⟨begun, fun _ => rfl⟩ n
  obtain ⟨threads, credited, karma⟩ := karmaOf_step kept.1.runs step entityId
  rw [karma, kept.2, credited, List.countP_append, Nat.add_comm, Function.iterate_add_apply]

end

/-- Karma and notifications follow the anchor in a run where threads credit trails of
origin `nexus` alone, no trail that was credited fails, no thread finds a webhook, and the
poller gets to a confirming receipt of every trail that was credited. -/
theorem followsAnchor_of_keeps {chain : Chain} {start : World} {steps : Nat → AnchorStep}
    (unstarted : start.threads = []) (unnotified : start.notifications = [])
    (keeps : ∀ n, (chain.after start steps n).KeepsToAnchor (steps n))
    (confirmed : ∀ n, ∀ thread ∈ (chain.after start steps n).credited,
      chain.Confirmed start steps thread.trailId) : FollowsAnchor chain start steps := by
  intro n
  obtain ⟨sound, karma⟩ := sound_after unstarted unnotified keeps n
  refine ⟨karma, fun trailId => ?_⟩
  have coherent := sound.coherent trailId
  refine ⟨(Nat.le_add_left _ _).trans coherent.once, ?_, (Nat.le_add_right _ _).trans coherent.notified, ?_⟩
  · rintro thread member rfl
    have credited : 0 < ((chain.after start steps n).view thread.trailId).credited :=
      List.countP_pos_iff.mpr ⟨thread, member, decide_eq_true rfl⟩
    obtain ⟨_, owned⟩ := sound.owned.credited thread member
    obtain ⟨row, found, identity⟩ := Option.map_eq_some_iff.mp owned
    have mark : ((chain.after start steps n).view thread.trailId).mark = some (row.origin, row.anchorStatus) := by
      change Option.map _ _ = _
      rw [found, Option.map_some]
    exact ⟨⟨row, found, congrArg (fun said => said.1) identity, coherent.nexus _ mark credited⟩,
      (confirmed n thread member).anchored (tracked_after unstarted steps) n⟩
  · intro notification member same
    have told : 0 < ((chain.after start steps n).view trailId).told :=
      Nat.lt_of_lt_of_le (List.countP_pos_iff.mpr ⟨notification, member, decide_eq_true same⟩) (Nat.le_add_right _ _)
    obtain ⟨origin, mark⟩ := coherent.mark_of_told told
    obtain ⟨row, found, status⟩ := Option.map_eq_some_iff.mp mark
    rw [AnchorState.anchored, found, Option.any_some]
    exact decide_eq_true (congrArg Prod.snd status)

/-- From now on the poller runs, and its RPC answers no JSON. -/
def unanswered (n : Nat) : AnchorStep :=
  if n % 2 = 0 then .poll else .check (.error (.python .valueError)) 120

section
variable {chain : Chain} {start : World} {steps : List AnchorStep}

/-- A poller that hears nothing leaves the tables and the credits. -/
theorem unanswered_keeps (s : AnchorState) (k : Nat) : (chain.step s (unanswered k)).world = s.world ∧
    (chain.step s (unanswered k)).credited = s.credited := by
  unfold unanswered
  split
  · simp only [Chain.step]
    split <;> exact ⟨rfl, rfl⟩
  · simp only [Chain.step]
    split <;> exact ⟨rfl, rfl⟩

/-- What the tables and the credits are at the end of a list of steps, they are for good. -/
theorem after_unanswered {n : Nat} (beyond : steps.length ≤ n) :
    (chain.after start (followed steps unanswered) n).world = (chain.reached start steps).world ∧
      (chain.after start (followed steps unanswered) n).credited = (chain.reached start steps).credited :=
  states_rest (P := fun s => s.world = (chain.reached start steps).world ∧
    s.credited = (chain.reached start steps).credited)
    (fun s k kept => ⟨(unanswered_keeps s k).1.trans kept.1, (unanswered_keeps s k).2.trans kept.2⟩) ⟨rfl, rfl⟩ beyond

/-- What was credited at the end of the list is of origin `nexus` and anchored. -/
theorem FollowsAnchor.credited (follows : FollowsAnchor chain start (followed steps unanswered)) :
    let s := chain.reached start steps
    s.credited.all (fun thread => s.anchored thread.trailId && (s.world.trails.find? thread.trailId).any fun row =>
      row.origin = "nexus") = true := by
  intro s
  obtain ⟨world, credited⟩ := @after_unanswered chain start steps _ le_rfl
  apply List.all_eq_true.mpr
  intro thread member
  obtain ⟨_, each, _⟩ := (follows steps.length).2 thread.trailId
  rw [credited] at each
  obtain ⟨⟨row, found, _, nexus⟩, later, beyond, anchored⟩ := each thread member rfl
  rw [world] at found
  rw [AnchorState.anchored, (after_unanswered beyond).1] at anchored
  rw [AnchorState.anchored, anchored, Bool.true_and, found, Option.any_some]
  exact decide_eq_true nexus

end

/-- The life of a trail whose transaction is confirmed, and a poller that hears nothing afterwards. -/
def confirming : Nat → AnchorStep := followed (anchoring "nexus" "0x1") unanswered

/-- The life in the list: its steps are guarded, only its trail is credited, and the poller turns to it. -/
theorem lived_confirming :
    let turned := arbitrum.reached oneCredit ((anchoring "nexus" "0x1").take 7)
    Admits arbitrum.step AnchorState.KeepsToAnchor ⟨⟨oneCredit, []⟩, [], []⟩ (anchoring "nexus" "0x1") ∧
      ((arbitrum.reached oneCredit (anchoring "nexus" "0x1")).credited.all fun thread => thread.trailId = "trail") = true ∧
      (turned.next?.any fun row => row.trailId = "trail") = true ∧ turned.pool.processes.length = 1 := by
  decide +kernel

theorem credited_confirming {n : Nat} {thread : AnchorThread}
    (member : thread ∈ (arbitrum.after oneCredit confirming n).credited) : thread.trailId = "trail" := by
  -- a thread that credited has done so at the end of the list
  have kept : thread ∈ (arbitrum.after oneCredit confirming (max n 10)).credited := by
    refine states_stable (P := fun s : AnchorState => thread ∈ s.credited) (fun k earlier => ?_) (le_max_left _ _) member
    have tracked : (arbitrum.after oneCredit confirming k).Tracked arbitrum := tracked_after rfl confirming k
    obtain ⟨threads, credited, _⟩ := karmaOf_step tracked.runs (confirming k) ""
    exact credited.symm ▸ List.mem_append_left threads earlier
  have ends : 10 ≤ max n 10 := le_max_right _ _
  rw [confirming, (after_unanswered ends).2] at kept
  obtain ⟨_, all, _⟩ := lived_confirming
  exact of_decide_eq_true (List.all_eq_true.mp all thread kept)

theorem confirmed_confirming : arbitrum.Confirmed oneCredit confirming "trail" := by
  have before : arbitrum.after oneCredit confirming 7 = arbitrum.reached oneCredit ((anchoring "nexus" "0x1").take 7) :=
    states_followed (by decide)
  obtain ⟨_, _, read, place⟩ := lived_confirming
  obtain ⟨row, next, own⟩ := (Option.any_eq_true ..).mp read
  refine ⟨7, 8, _, 110, row, rfl, by rw [before, next], of_decide_eq_true own, ?_, ⟨42, rfl⟩, by decide, ?_⟩
  · rw [HasStatus]
    decide +kernel
  · rw [before, place]
    rfl

theorem followsAnchor_confirmed : FollowsAnchor arbitrum oneCredit confirming := by
  obtain ⟨guarded, _⟩ := lived_confirming
  refine followsAnchor_of_keeps rfl rfl (guard_followed guarded fun s k => ?_) fun n thread member => ?_
  · unfold unanswered
    split <;> trivial
  · rw [credited_confirming member]
    exact confirmed_confirming

/-- An account with a webhook. -/
def hooked : World :=
  { World.empty with
    accounts := ⟨[⟨"key", "agent", .payg, 1, none, some "https://hook.example", 0, 0⟩], List.nodup_singleton _⟩ }

/-- The same life of a trail whose agent has a webhook. -/
def telling : List AnchorStep :=
  [.request "trail" (receiptOf .null .null) 100, .begin 0 (some "0x01") 100 0, .advance 0, .advance 0, .advance 0,
    .advance 0, .advance 0, .poll, .check (mined "0x1") 110, .advance 1, .advance 1, .advance 1]

/-- A transaction that reverts leaves its karma, and so does one that the RPC says nothing of; a trail of
origin `pioneer` is credited, and the thread and the poller both notify. -/
theorem not_followsAnchor :
    ¬ FollowsAnchor arbitrum oneCredit (followed (anchoring "nexus" "0x0") unanswered) ∧
    ¬ FollowsAnchor arbitrum oneCredit (followed ((anchoring "nexus" "0x1").take 6) unanswered) ∧
    ¬ FollowsAnchor arbitrum oneCredit (followed (anchoring "pioneer" "0x1") unanswered) ∧
    ¬ FollowsAnchor arbitrum hooked (followed telling unanswered) := by
  refine ⟨fun follows => ?_, fun follows => ?_, fun follows => ?_, fun follows => ?_⟩
  · exact absurd follows.credited (by decide +kernel)
  · exact absurd follows.credited (by decide +kernel)
  · exact absurd follows.credited (by decide +kernel)
  · have told := ((follows telling.length).2 "trail").2.2.1
    rw [(after_unanswered le_rfl).1] at told
    exact absurd told (by decide +kernel)

end Argentum.Mycelium
