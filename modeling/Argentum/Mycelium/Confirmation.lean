import Argentum.Mycelium.Anchor

/-! What follows on an anchor. The karma of a trail is due when its transaction is sent,
a notification when it is confirmed. Both keep to the status of the row where threads
credit trails of origin `nexus` alone, no trail that was credited fails, and no thread
finds a webhook. -/
namespace Argentum.Mycelium
open Argentum Text Transition

/-- What a call has yet to do for its trail. -/
inductive Role where
  | unsent | creditDue | checking | telling | rest
  deriving DecidableEq, Repr

def AnchorCall.role : AnchorCall → Stage → Role
  | .anchor .., .broadcast => .unsent
  | .anchor .., .submit => .unsent
  | .anchor .., .credit => .creditDue
  | .check .., .confirm => .checking
  | .check .., .fail => .checking
  | .check .., .ask => .telling
  | .check .., .notify => .telling
  | _, _ => .rest

def AnchorCall.trailId : AnchorCall → String
  | .anchor thread _ _ _ => thread.trailId
  | .check row _ _ => row.trailId

abbrev AnchorProcess := Process AnchorCall Sql (Except Raised Unit)

def AnchorProcess.plays (trailId : String) (role : Role) (process : AnchorProcess) : Bool :=
  process.call.trailId = trailId ∧ process.call.role (stage process.program) = role

/-- One trail: the origin and the status of its row, and how many threads have not sent
its transaction, are about to credit it and credited it, how many checks of it are to
come, and how many notifications were sent or are about to be. -/
structure TrailView where
  mark : Option (String × Option AnchorStatus)
  unsent : Nat
  due : Nat
  credited : Nat
  checking : Nat
  told : Nat

def AnchorState.plays (s : AnchorState) (trailId : String) (role : Role) : Nat :=
  s.pool.processes.countP (AnchorProcess.plays trailId role)

def World.mark (w : World) (trailId : String) : Option (String × Option AnchorStatus) :=
  (w.trails.find? trailId).map fun row => (row.origin, row.anchorStatus)

def AnchorState.view (s : AnchorState) (trailId : String) : TrailView where
  mark := s.world.mark trailId
  unsent := s.world.threads.countP (fun thread => thread.trailId = trailId) + s.plays trailId .unsent
  due := s.plays trailId .creditDue
  credited := s.credited.countP fun thread => thread.trailId = trailId
  checking := s.pending.countP (fun row => row.trailId = trailId) + s.plays trailId .checking
  told := s.world.notifications.countP (fun notification => notification.trailId = trailId) + s.plays trailId .telling

/-- What may be outstanding at each status of the row. -/
def TrailView.Outstanding (v : TrailView) : Prop :=
  match v.mark with
  | none => v.unsent = 0 ∧ v.due = 0 ∧ v.credited = 0 ∧ v.checking = 0 ∧ v.told = 0
  | some (_, none) => v.due = 0 ∧ v.credited = 0 ∧ v.checking = 0 ∧ v.told = 0
  | some (_, some .submitted) => v.unsent = 0 ∧ v.told = 0
  | some (_, some .anchored) => v.unsent = 0 ∧ v.checking = 0
  | some (_, some .failed) => v.unsent = 0 ∧ v.credited = 0 ∧ v.checking = 0 ∧ v.told = 0

/-- Nothing is done twice, or before the row allows it. -/
structure TrailView.Coherent (v : TrailView) : Prop where
  once : v.unsent + v.due + v.credited ≤ 1
  checked : v.checking ≤ 1
  notified : v.told ≤ 1
  outstanding : v.Outstanding
  nexus : ∀ mark, v.mark = some mark → 0 < v.credited → mark.1 = "nexus"

/-- A statement that credits is for a trail of origin `nexus` that did not fail, one that
fails a trail is for one that was not credited, and a thread that asks for a webhook
finds none. -/
def AnchorState.keeps (s : AnchorState) : AnchorCall → Stage → Bool
  | .anchor thread _ _ _, .credit => (s.world.trails.find? thread.trailId).any fun row =>
      row.origin = "nexus" ∧ row.anchorStatus ≠ some .failed
  | .anchor thread _ _ _, .ask => (exec (.notifyWebhook thread.agentId) s.world).1.isNone
  | .check row _ _, .fail => s.credited.all fun thread => thread.trailId ≠ row.trailId
  | _, _ => true

def AnchorState.KeepsToAnchor (s : AnchorState) : AnchorStep → Prop
  | .advance index => (s.pool.processes[index]?).all fun process => s.keeps process.call (stage process.program)
  | _ => True

instance : ∀ (s : AnchorState) (step : AnchorStep), Decidable (s.KeepsToAnchor step)
  | s, .advance index => inferInstanceAs (Decidable (Option.all _ s.pool.processes[index]? = true))
  | _, .request .. => isTrue trivial
  | _, .begin .. => isTrue trivial
  | _, .poll => isTrue trivial
  | _, .check .. => isTrue trivial

namespace TrailView
variable {v next : TrailView}

/-- The row and the credits stay, and nothing more is outstanding. -/
structure Within (next v : TrailView) : Prop where
  mark : next.mark = v.mark
  unsent : next.unsent ≤ v.unsent
  due : next.due ≤ v.due
  credited : next.credited = v.credited
  checking : next.checking ≤ v.checking
  told : next.told ≤ v.told

theorem Within.refl (v : TrailView) : v.Within v := ⟨rfl, le_rfl, le_rfl, rfl, le_rfl, le_rfl⟩

/-- What is done is no longer outstanding. -/
theorem Coherent.mono (coherent : v.Coherent) (within : next.Within v) : next.Coherent := by
  obtain ⟨once, checked, notified, outstanding, nexus⟩ := coherent
  obtain ⟨mark, unsent, due, credited, checking, told⟩ := within
  refine ⟨by omega, by omega, by omega, ?_, by rwa [mark, credited]⟩
  unfold Outstanding at outstanding ⊢
  rw [mark]
  revert outstanding
  rcases v.mark with _ | ⟨origin, _ | _ | _ | _⟩ <;> dsimp only <;> omega

/-- What is outstanding of a trail, by how far its row is. -/
theorem Coherent.mark_cases (coherent : v.Coherent) :
    v.mark = none ∧ v.unsent = 0 ∧ v.credited = 0 ∧ v.checking = 0 ∧ v.told = 0 ∨
    (∃ origin, v.mark = some (origin, none)) ∧ v.credited = 0 ∧ v.checking = 0 ∧ v.told = 0 ∨
    (∃ origin, v.mark = some (origin, some .submitted)) ∧ v.unsent = 0 ∧ v.told = 0 ∨
    (∃ origin, v.mark = some (origin, some .anchored)) ∧ v.unsent = 0 ∧ v.checking = 0 ∨
    (∃ origin, v.mark = some (origin, some .failed)) ∧
      v.unsent = 0 ∧ v.credited = 0 ∧ v.checking = 0 ∧ v.told = 0 := by
  have outstanding := coherent.outstanding
  unfold Outstanding at outstanding
  revert outstanding
  rcases v.mark with _ | ⟨origin, _ | _ | _ | _⟩ <;> dsimp only <;> intro outstanding
  · exact Or.inl ⟨rfl, outstanding.1, outstanding.2.2⟩
  · exact Or.inr (Or.inl ⟨⟨origin, rfl⟩, outstanding.2⟩)
  · exact Or.inr (Or.inr (Or.inl ⟨⟨origin, rfl⟩, outstanding⟩))
  · exact Or.inr (Or.inr (Or.inr (Or.inl ⟨⟨origin, rfl⟩, outstanding⟩)))
  · exact Or.inr (Or.inr (Or.inr (Or.inr ⟨⟨origin, rfl⟩, outstanding⟩)))

/-- The row is there and not sent yet, where its transaction has not been sent. -/
theorem Coherent.mark_of_unsent (coherent : v.Coherent) (unsent : 0 < v.unsent) :
    ∃ origin, v.mark = some (origin, none) := by
  rcases coherent.mark_cases with absent | fresh | submitted | anchored | failed
  · omega
  · exact fresh.1
  · omega
  · omega
  · omega

/-- A check is to come only where the row is submitted. -/
theorem Coherent.mark_of_checking (coherent : v.Coherent) (checking : 0 < v.checking) :
    ∃ origin, v.mark = some (origin, some .submitted) := by
  rcases coherent.mark_cases with absent | fresh | submitted | anchored | failed
  · omega
  · omega
  · exact submitted.1
  · omega
  · omega

/-- A trail that was notified, or is about to be, is anchored. -/
theorem Coherent.mark_of_told (coherent : v.Coherent) (told : 0 < v.told) :
    ∃ origin, v.mark = some (origin, some .anchored) := by
  rcases coherent.mark_cases with absent | fresh | submitted | anchored | failed
  · omega
  · omega
  · omega
  · exact anchored.1
  · omega

/-- A thread sends the transaction of its trail. -/
theorem Coherent.submit (coherent : v.Coherent)
    (mark : next.mark = v.mark.map fun mark => (mark.1, some .submitted)) (unsent : next.unsent + 1 = v.unsent)
    (due : next.due ≤ v.due + 1) (credited : next.credited = v.credited) (checking : next.checking = v.checking)
    (told : next.told = v.told) : next.Coherent := by
  obtain ⟨origin, fresh⟩ := coherent.mark_of_unsent (by omega)
  obtain ⟨once, checked, notified, outstanding, nexus⟩ := coherent
  rw [Outstanding, fresh] at outstanding
  rw [fresh, Option.map_some] at mark
  dsimp only at outstanding
  refine ⟨by omega, by omega, by omega, ?_, fun _ _ positive => by omega⟩
  rw [Outstanding, mark]
  dsimp only
  omega

/-- A thread credits a trail that may be credited. -/
theorem Coherent.credit (coherent : v.Coherent) {status : Option AnchorStatus}
    (nexus : v.mark = some ("nexus", status)) (sound : status ≠ some .failed) (mark : next.mark = v.mark)
    (unsent : next.unsent = v.unsent) (due : next.due + 1 = v.due) (credited : next.credited = v.credited + 1)
    (checking : next.checking = v.checking) (told : next.told = v.told) : next.Coherent := by
  obtain ⟨once, checked, notified, outstanding, _⟩ := coherent
  refine ⟨by omega, by omega, by omega, ?_, ?_⟩
  · rw [Outstanding, nexus] at outstanding
    rw [Outstanding, mark, nexus]
    rcases status with _ | _ | _ | _ <;> dsimp only at outstanding ⊢
    · omega
    · omega
    · omega
    · exact absurd rfl sound
  · rw [mark, nexus]
    intro other same _
    obtain rfl := Option.some.inj same
    rfl

/-- The poller confirms a trail. -/
theorem Coherent.confirm (coherent : v.Coherent)
    (mark : next.mark = v.mark.map fun mark => (mark.1, some .anchored)) (unsent : next.unsent = v.unsent)
    (due : next.due = v.due) (credited : next.credited = v.credited) (checking : next.checking + 1 = v.checking)
    (told : next.told ≤ v.told + 1) : next.Coherent := by
  obtain ⟨origin, submitted⟩ := coherent.mark_of_checking (by omega)
  obtain ⟨once, checked, notified, outstanding, nexus⟩ := coherent
  rw [Outstanding, submitted] at outstanding
  rw [submitted, Option.map_some] at mark
  dsimp only at outstanding
  refine ⟨by omega, by omega, by omega, ?_, ?_⟩
  · rw [Outstanding, mark]
    dsimp only
    omega
  · rw [mark, credited]
    intro other same positive
    obtain rfl := Option.some.inj same
    have named := nexus _ submitted positive
    exact named

/-- The poller fails a trail that was not credited. -/
theorem Coherent.fail (coherent : v.Coherent) (uncredited : v.credited = 0)
    (mark : next.mark = v.mark.map fun mark => (mark.1, some .failed)) (unsent : next.unsent = v.unsent)
    (due : next.due = v.due) (credited : next.credited = v.credited) (checking : next.checking + 1 = v.checking)
    (told : next.told = v.told) : next.Coherent := by
  obtain ⟨origin, submitted⟩ := coherent.mark_of_checking (by omega)
  obtain ⟨once, checked, notified, outstanding, nexus⟩ := coherent
  rw [Outstanding, submitted] at outstanding
  rw [submitted, Option.map_some] at mark
  dsimp only at outstanding
  refine ⟨by omega, by omega, by omega, ?_, fun _ _ positive => by omega⟩
  rw [Outstanding, mark]
  dsimp only
  omega

/-- A request records a trail. -/
theorem Coherent.record (coherent : v.Coherent) (absent : v.mark = none) {origin : String}
    (mark : next.mark = some (origin, none)) (unsent : next.unsent ≤ v.unsent + 1) (due : next.due = v.due)
    (credited : next.credited = v.credited) (checking : next.checking = v.checking) (told : next.told = v.told) :
    next.Coherent := by
  obtain ⟨once, checked, notified, outstanding, nexus⟩ := coherent
  rw [Outstanding, absent] at outstanding
  dsimp only at outstanding
  refine ⟨by omega, by omega, by omega, ?_, fun _ _ positive => by omega⟩
  rw [Outstanding, mark]
  dsimp only
  omega

/-- The poller reads the trail, which awaits its confirmation. -/
theorem Coherent.poll (coherent : v.Coherent) {origin : String} (submitted : v.mark = some (origin, some .submitted))
    (mark : next.mark = v.mark) (unsent : next.unsent = v.unsent) (due : next.due = v.due)
    (credited : next.credited = v.credited) (checking : next.checking ≤ 1) (told : next.told = v.told) :
    next.Coherent := by
  obtain ⟨once, checked, notified, outstanding, nexus⟩ := coherent
  rw [Outstanding, submitted] at outstanding
  dsimp only at outstanding
  refine ⟨by omega, by omega, by omega, ?_, by rwa [mark, credited]⟩
  rw [Outstanding, mark, submitted]
  dsimp only
  omega

end TrailView

section
variable {chain : Chain} {s : AnchorState} {w : World} {trailId : String}

theorem mark_updateTrail {named : String} {f : TrailRow → TrailRow} {keeps : ∀ row, Keyed.key (f row) = Keyed.key row}
    {status : AnchorStatus} (origin : ∀ row, (f row).origin = row.origin)
    (becomes : ∀ row, (f row).anchorStatus = some status) : (w.updateTrail named f keeps).mark trailId =
      if named = trailId then (w.mark trailId).map fun mark => (mark.1, some status) else w.mark trailId := by
  rw [World.mark, World.mark, find?_updateTrail]
  split
  · rw [Option.map_map, Option.map_map]
    congr 1
    funext row
    rw [Function.comp_apply, Function.comp_apply, origin, becomes]
  · rfl

theorem mark_setTxHash (named txHash : String) (now : Seconds) : (exec (.setTxHash named txHash now) w).2.mark trailId =
    if named = trailId then (w.mark trailId).map fun mark => (mark.1, some .submitted) else w.mark trailId := by
  simp only [exec]
  exact mark_updateTrail (fun _ => rfl) fun _ => rfl

theorem mark_confirmAnchor (named : String) (block : Int) : (exec (.confirmAnchor named block) w).2.mark trailId =
    if named = trailId then (w.mark trailId).map fun mark => (mark.1, some .anchored) else w.mark trailId := by
  simp only [exec]
  exact mark_updateTrail (fun _ => rfl) fun _ => rfl

theorem mark_failAnchor (named : String) (reason : FailReason) : (exec (.failAnchor named reason) w).2.mark trailId =
    if named = trailId then (w.mark trailId).map fun mark => (mark.1, some .failed) else w.mark trailId := by
  simp only [exec]
  exact mark_updateTrail (fun _ => rfl) fun _ => rfl

/-- What an advance changes in the calls at a role. -/
theorem plays_set {index : Nat} {call : AnchorCall} {program left : Program Sql (Except Raised Unit)} (role : Role)
    (found : s.pool.processes[index]? = some ⟨call, program⟩) :
    (s.pool.processes.set index ⟨call, left⟩).countP (AnchorProcess.plays trailId role) +
        (if call.trailId = trailId ∧ call.role (stage program) = role then 1 else 0) =
      s.plays trailId role + if call.trailId = trailId ∧ call.role (stage left) = role then 1 else 0 := by
  have counted := countP_set_add (p := AnchorProcess.plays trailId role) ⟨call, left⟩ found
  simp only [AnchorProcess.plays, decide_eq_true_eq] at counted
  exact counted

/-- A statement of a call for another trail leaves the row and the notifications of this one. -/
theorem Effect.other {after : World} {call : AnchorCall} {stage later : Stage}
    (effect : Effect w call stage after later) (other : call.trailId ≠ trailId) : after.mark trailId = w.mark trailId ∧
      after.notifications.countP (fun notification => notification.trailId = trailId) =
        w.notifications.countP fun notification => notification.trailId = trailId := by
  cases effect with
  | submit txHash _ => exact ⟨(mark_setTxHash _ _ _).trans (if_neg other), rfl⟩
  | confirm block _ => exact ⟨(mark_confirmAnchor _ _).trans (if_neg other), rfl⟩
  | fail reason => exact ⟨(mark_failAnchor _ _).trans (if_neg other), rfl⟩
  | notify notification about =>
      refine ⟨rfl, ?_⟩
      have apart : notification.trailId ≠ trailId := about ▸ other
      simp [exec, apart]
  | notifyConfirmed notification about =>
      refine ⟨rfl, ?_⟩
      have apart : notification.trailId ≠ trailId := about ▸ other
      simp [exec, apart]
  | _ => exact ⟨rfl, rfl⟩

/-- A thread that finds no webhook notifies nobody. -/
def AnchorState.Quiet (s : AnchorState) : Prop :=
  ∀ process ∈ s.pool.processes, process.call.thread?.isSome → stage process.program ≠ .notify

theorem AnchorState.Quiet.step (quiet : s.Quiet) (runs : s.pool.Runs (AnchorCall.code chain)) {step : AnchorStep}
    (keeps : s.KeepsToAnchor step) : (chain.step s step).Quiet := by
  cases step with
  | request trailId body now => exact quiet
  | begin index tx now lastAction =>
      simp only [Chain.step]
      split
      · exact quiet
      · intro process member ran
        rcases List.mem_append.mp member with earlier | last
        · exact quiet process earlier ran
        · rw [List.mem_singleton.mp last]
          intro same
          cases same
  | poll =>
      simp only [Chain.step]
      split <;> exact quiet
  | check receipt now =>
      simp only [Chain.step]
      split
      · intro process member ran
        rcases List.mem_append.mp member with earlier | last
        · exact quiet process earlier ran
        · rw [List.mem_singleton.mp last] at ran
          cases ran
      · exact quiet
  | advance index =>
      rcases advance_cases runs index with ⟨call, program, w, left, found, effect, stepped⟩ | still
      · rw [stepped]
        intro process member ran
        rcases List.mem_or_eq_of_mem_set member with earlier | rfl
        · exact quiet process earlier ran
        have guarded : s.keeps call (stage program) = true := by
          rw [AnchorState.KeepsToAnchor, found] at keeps
          exact keeps
        have before := quiet _ (List.mem_of_getElem? found) ran
        dsimp only at before ⊢
        generalize stage program = current at *
        generalize stage left = later at *
        cases effect with
        | broadcast next => rcases next with rfl | rfl <;> decide
        | submit _ next => rcases next with rfl | rfl | rfl <;> decide
        | credit next => rcases next with rfl | rfl <;> decide
        | ask _ found =>
            intro told
            have found := found told
            rw [Option.isNone_iff_eq_none.mp guarded] at found
            cases found
        | notify => decide
        | confirm | fail | askConfirmed | notifyConfirmed => cases ran
      · rwa [still]

/-- A statement for another trail changes nothing of this one. -/
theorem view_other {s : AnchorState} {index : Nat} {call : AnchorCall}
    {program left : Program Sql (Except Raised Unit)} {w : World}
    (found : s.pool.processes[index]? = some ⟨call, program⟩)
    (effect : Effect s.world call (stage program) w (stage left)) (other : call.trailId ≠ trailId) :
    AnchorState.view
      { pool := { state := w, processes := s.pool.processes.set index ⟨call, left⟩ }
        pending := s.pending
        credited := s.credited ++ call.credits (stage program) } trailId = s.view trailId := by
  have plays : ∀ role, (s.pool.processes.set index ⟨call, left⟩).countP (AnchorProcess.plays trailId role) =
      s.plays trailId role := by
    intro role
    have counted := @plays_set s trailId _ _ _ left role found
    simpa only [other, false_and, if_false, add_zero] using counted
  have credited : (call.credits (stage program)).countP (fun thread => thread.trailId = trailId) = 0 := by
    apply List.countP_eq_zero.mpr
    intro thread member same
    cases call with
    | anchor own tx now lastAction =>
        unfold AnchorCall.credits at member
        split at member
        · rename_i equal _
          cases equal
          rw [List.mem_singleton.mp member] at same
          exact other (of_decide_eq_true same)
        · cases member
    | check => cases member
  obtain ⟨mark, notified⟩ := effect.other other
  simp only [AnchorState.view, AnchorState.world, AnchorState.plays, List.countP_append] at mark notified plays ⊢
  rw [mark, plays, plays, plays, plays, credited, notified, effect.threads]
  rfl

/-- What a statement for the trail changes: the row, and what is outstanding by the role
of the call before and after. -/
theorem view_own {index : Nat} {call : AnchorCall} {program left : Program Sql (Except Raised Unit)}
    (found : s.pool.processes[index]? = some ⟨call, program⟩)
    (effect : Effect s.world call (stage program) w (stage left)) (own : call.trailId = trailId) :
    let next := AnchorState.view
      { pool := { state := w, processes := s.pool.processes.set index ⟨call, left⟩ }
        pending := s.pending
        credited := s.credited ++ call.credits (stage program) } trailId
    let plays (stage : Stage) (role : Role) : Nat := if call.role stage = role then 1 else 0
    next.mark = w.mark trailId ∧
    next.credited = (s.view trailId).credited +
      (call.credits (stage program)).countP (fun thread => thread.trailId = trailId) ∧
    next.unsent + plays (stage program) .unsent = (s.view trailId).unsent + plays (stage left) .unsent ∧
    next.due + plays (stage program) .creditDue = (s.view trailId).due + plays (stage left) .creditDue ∧
    next.checking + plays (stage program) .checking = (s.view trailId).checking + plays (stage left) .checking ∧
    next.told + plays (stage program) .telling +
        s.world.notifications.countP (fun notification => notification.trailId = trailId) =
      (s.view trailId).told + plays (stage left) .telling +
        w.notifications.countP fun notification => notification.trailId = trailId := by
  have unsent := @plays_set s trailId _ _ _ left .unsent found
  have due := @plays_set s trailId _ _ _ left .creditDue found
  have checking := @plays_set s trailId _ _ _ left .checking found
  have telling := @plays_set s trailId _ _ _ left .telling found
  simp only [own, true_and] at unsent due checking telling
  have threads := effect.threads
  intro next plays
  have unsentAfter : next.unsent = s.world.threads.countP (fun thread => thread.trailId = trailId) +
      (s.pool.processes.set index ⟨call, left⟩).countP (AnchorProcess.plays trailId .unsent) := by
    rw [← threads]
    rfl
  have unsentBefore : (s.view trailId).unsent =
      s.world.threads.countP (fun thread => thread.trailId = trailId) + s.plays trailId .unsent := rfl
  have checkingAfter : next.checking = s.pending.countP (fun row => row.trailId = trailId) +
      (s.pool.processes.set index ⟨call, left⟩).countP (AnchorProcess.plays trailId .checking) := rfl
  have checkingBefore : (s.view trailId).checking =
      s.pending.countP (fun row => row.trailId = trailId) + s.plays trailId .checking := rfl
  have toldAfter : next.told = w.notifications.countP (fun notification => notification.trailId = trailId) +
      (s.pool.processes.set index ⟨call, left⟩).countP (AnchorProcess.plays trailId .telling) := rfl
  have toldBefore : (s.view trailId).told =
      s.world.notifications.countP (fun notification => notification.trailId = trailId) +
        s.plays trailId .telling := rfl
  refine ⟨rfl, List.countP_append, ?_, due, ?_, ?_⟩
  · dsimp only [plays]
    omega
  · dsimp only [plays]
    omega
  · dsimp only [plays]
    omega

/-- A statement for the trail does what is due. -/
theorem coherent_advance (coherent : (s.view trailId).Coherent) (quiet : s.Quiet) {index : Nat} {call : AnchorCall}
    {program left : Program Sql (Except Raised Unit)} (found : s.pool.processes[index]? = some ⟨call, program⟩)
    (effect : Effect s.world call (stage program) w (stage left)) (keeps : s.KeepsToAnchor (.advance index)) :
    (AnchorState.view
      { pool := { state := w, processes := s.pool.processes.set index ⟨call, left⟩ }
        pending := s.pending
        credited := s.credited ++ call.credits (stage program) } trailId).Coherent := by
  by_cases own : call.trailId = trailId
  on_goal 2 => rwa [view_other found effect own]
  have guarded : s.keeps call (stage program) = true := by
    rw [AnchorState.KeepsToAnchor, found] at keeps
    exact keeps
  have silent := quiet _ (List.mem_of_getElem? found)
  generalize after : AnchorState.view _ trailId = ended
  obtain ⟨mark, credited, unsent, due, checking, told⟩ := view_own found effect own
  rw [after] at mark credited unsent due checking told
  clear after
  dsimp only at silent
  generalize stage program = current at *
  generalize stage left = later at *
  cases effect with
  | broadcast next =>
      change _ = _ + _ + s.world.notifications.countP _ at told
      rcases next with rfl | rfl <;>
        simp only [AnchorCall.role, reduceCtorEq, if_true, if_false] at unsent due checking told
      · exact coherent.mono ⟨mark, by omega, by omega, credited, by omega, by omega⟩
      · exact coherent.mono ⟨mark, by omega, by omega, credited, by omega, by omega⟩
  | submit txHash next =>
      change _ = _ + _ + s.world.notifications.countP _ at told
      dsimp only [AnchorCall.trailId] at own
      rw [mark_setTxHash, if_pos own] at mark
      rcases next with rfl | rfl | rfl <;>
        simp only [AnchorCall.role, reduceCtorEq, if_true, if_false] at unsent due checking told
      · exact coherent.submit mark (by omega) (by omega) credited (by omega) (by omega)
      · exact coherent.submit mark (by omega) (by omega) credited (by omega) (by omega)
      · exact coherent.submit mark (by omega) (by omega) credited (by omega) (by omega)
  | credit next =>
      change _ = _ + _ + s.world.notifications.countP _ at told
      obtain ⟨row, stored, both⟩ := (Option.any_eq_true ..).mp guarded
      obtain ⟨nexus, sound⟩ := of_decide_eq_true both
      dsimp only [AnchorCall.trailId] at own
      rw [own] at stored
      have marked : (s.view trailId).mark = some ("nexus", row.anchorStatus) := by
        change s.world.mark trailId = _
        rw [World.mark, stored, Option.map_some, nexus]
      have one : ended.credited = (s.view trailId).credited + 1 := by
        rw [credited, AnchorCall.credits, List.countP_singleton, if_pos (decide_eq_true own)]
      rcases next with rfl | rfl <;>
        simp only [AnchorCall.role, reduceCtorEq, if_true, if_false] at unsent due checking told
      · exact coherent.credit marked sound mark (by omega) (by omega) one (by omega) (by omega)
      · exact coherent.credit marked sound mark (by omega) (by omega) one (by omega) (by omega)
  | ask next _ =>
      change _ = _ + _ + s.world.notifications.countP _ at told
      rcases next with rfl | rfl <;>
        simp only [AnchorCall.role, reduceCtorEq, if_false] at unsent due checking told
      · exact coherent.mono ⟨mark, by omega, by omega, credited, by omega, by omega⟩
      · exact coherent.mono ⟨mark, by omega, by omega, credited, by omega, by omega⟩
  | notify notification about => exact absurd rfl (silent rfl)
  | confirm block next =>
      change _ = _ + _ + s.world.notifications.countP _ at told
      dsimp only [AnchorCall.trailId] at own
      rw [mark_confirmAnchor, if_pos own] at mark
      rcases next with rfl | rfl <;>
        simp only [AnchorCall.role, reduceCtorEq, if_true, if_false] at unsent due checking told
      · exact coherent.confirm mark (by omega) (by omega) credited (by omega) (by omega)
      · exact coherent.confirm mark (by omega) (by omega) credited (by omega) (by omega)
  | fail reason =>
      change _ = _ + _ + s.world.notifications.countP _ at told
      dsimp only [AnchorCall.trailId] at own
      rw [mark_failAnchor, if_pos own] at mark
      have uncredited : (s.view trailId).credited = 0 := by
        apply List.countP_eq_zero.mpr
        intro thread member same
        have apart := of_decide_eq_true (List.all_eq_true.mp guarded thread member)
        exact apart ((of_decide_eq_true same).trans own.symm)
      simp only [AnchorCall.role, reduceCtorEq, if_true, if_false] at unsent due checking told
      exact coherent.fail uncredited mark (by omega) (by omega) credited (by omega) (by omega)
  | askConfirmed next =>
      change _ = _ + _ + s.world.notifications.countP _ at told
      rcases next with rfl | rfl <;>
        simp only [AnchorCall.role, reduceCtorEq, if_true, if_false] at unsent due checking told
      · exact coherent.mono ⟨mark, by omega, by omega, credited, by omega, by omega⟩
      · exact coherent.mono ⟨mark, by omega, by omega, credited, by omega, by omega⟩
  | notifyConfirmed notification about =>
      have one : (exec (.notifyAnchor notification) s.world).2.notifications.countP
          (fun notification => notification.trailId = trailId) =
            s.world.notifications.countP (fun notification => notification.trailId = trailId) + 1 := by
        simp only [exec, List.countP_append, List.countP_singleton]
        rw [if_pos (decide_eq_true (about.trans own))]
      rw [one] at told
      simp only [AnchorCall.role, reduceCtorEq, if_true, if_false] at unsent due checking told
      exact coherent.mono ⟨mark, by omega, by omega, credited, by omega, by omega⟩

theorem plays_append (role : Role) (call : AnchorCall) (program : Program Sql (Except Raised Unit)) :
    (s.pool.processes ++ [(⟨call, program⟩ : AnchorProcess)]).countP (AnchorProcess.plays trailId role) =
      s.plays trailId role + if call.trailId = trailId ∧ call.role (stage program) = role then 1 else 0 := by
  rw [List.countP_append, List.countP_singleton]
  simp only [AnchorProcess.plays, decide_eq_true_eq]
  rfl

/-- A request records a trail that was not there, and starts its thread. -/
theorem view_request (s : AnchorState) (trailId named : String) (body : Json) (now : Seconds) :
    let next := (chain.step s (.request named body now)).view trailId
    next.Within (s.view trailId) ∨
      (s.view trailId).mark = none ∧ (∃ origin, next.mark = some (origin, none)) ∧
        next.unsent ≤ (s.view trailId).unsent + 1 ∧ next.due = (s.view trailId).due ∧
        next.credited = (s.view trailId).credited ∧ next.checking = (s.view trailId).checking ∧
        next.told = (s.view trailId).told := by
  obtain ⟨accounts, same | ⟨receipt, _, recorded⟩⟩ := nexusTrail_frame chain.settings named body now s.world
  · rw [Chain.step, same]
    exact Or.inl (.refl _)
  obtain ⟨row, _, identity, status, absent, found⟩ := recorded.find?
  generalize after : (chain.step s (.request named body now)).view trailId = ended
  have mark : ended.mark = if named = trailId then some (receipt.origin, none) else (s.view trailId).mark := by
    rw [← after]
    change Option.map _ (((nexusTrail chain.settings named body now).run s.world).2.trails.find? trailId) = _
    rw [found]
    split
    · have origin : row.origin = receipt.origin := congrArg (fun said => said.2.2) identity
      rw [Option.map_some, status, origin]
    · rfl
  have told : ended.told = (s.view trailId).told := by
    rw [← after]
    change ((nexusTrail chain.settings named body now).run s.world).2.notifications.countP _ + _ = _
    rw [recorded.frame]
    rfl
  have unsent : ended.unsent = (s.view trailId).unsent ∨
      ended.unsent = (s.view trailId).unsent + if named = trailId then 1 else 0 := by
    rw [← after]
    change ((nexusTrail chain.settings named body now).run s.world).2.threads.countP _ + _ = _ ∨
      ((nexusTrail chain.settings named body now).run s.world).2.threads.countP _ + _ = _
    rcases recorded.threads with same | started
    · left
      rw [same]
      rfl
    · right
      rw [started, List.countP_append, List.countP_singleton]
      simp only [decide_eq_true_eq]
      exact Nat.add_right_comm ..
  have others : ended.due = (s.view trailId).due ∧ ended.credited = (s.view trailId).credited ∧
      ended.checking = (s.view trailId).checking := by
    rw [← after]
    exact ⟨rfl, rfl, rfl⟩
  obtain ⟨due, credited, checking⟩ := others
  by_cases own : named = trailId
  · rw [if_pos own] at mark unsent
    have none : (s.view trailId).mark = none := by
      change Option.map _ (s.world.trails.find? trailId) = _
      rw [← own, absent]
      rfl
    exact Or.inr ⟨none, ⟨_, mark⟩, by omega, due, credited, checking, told⟩
  · rw [if_neg own] at mark unsent
    exact Or.inl ⟨mark, by omega, due.le, credited, checking.le, told.le⟩

/-- A thread that begins has its transaction to send. -/
theorem view_begin (trailId : String) (index : Nat) (tx : Option String) (now : Seconds)
    (lastAction : Community.Instant) :
    ((chain.step s (.begin index tx now lastAction)).view trailId).Within (s.view trailId) := by
  simp only [Chain.step]
  split
  · exact .refl _
  · rename_i thread found
    have counted := countP_eraseIdx_add (p := fun thread : AnchorThread => thread.trailId = trailId) found
    have roles := fun role => @plays_append s trailId role (.anchor thread tx now lastAction)
      (AnchorCall.code chain (.anchor thread tx now lastAction))
    have first : stage (AnchorCall.code chain (.anchor thread tx now lastAction)) = .broadcast := rfl
    simp only [first, AnchorCall.role, AnchorCall.trailId] at roles
    constructor
    · rfl
    · change (s.world.threads.eraseIdx index).countP _ + (s.pool.processes ++ [_]).countP _ ≤
        s.world.threads.countP _ + s.plays trailId .unsent
      rw [roles .unsent]
      simp only [and_true]
      simp only [decide_eq_true_eq] at counted
      omega
    · change (s.pool.processes ++ [_]).countP _ ≤ s.plays trailId .creditDue
      rw [roles .creditDue]
      simp
    · rfl
    · change s.pending.countP _ + (s.pool.processes ++ [_]).countP _ ≤ s.pending.countP _ + s.plays trailId .checking
      rw [roles .checking]
      simp
    · change s.world.notifications.countP _ + (s.pool.processes ++ [_]).countP _ ≤
        s.world.notifications.countP _ + s.plays trailId .telling
      rw [roles .telling]
      simp

theorem stored_of_submittedTrails {limit : Nat} {row : TrailRow} (read : row ∈ (exec (.submittedTrails limit) w).1) :
    w.trails.find? row.trailId = some row ∧ row.anchorStatus = some .submitted := by
  simp only [exec] at read
  have stored := List.mem_of_mem_take read
  rw [List.mem_insertionSort, List.mem_filter, Bool.and_eq_true] at stored
  exact ⟨Table.find?_eq_some_iff.mpr ⟨stored.1, rfl⟩, of_decide_eq_true stored.2.2⟩

/-- The poller reads each submitted row once. -/
theorem submittedTrails_once (w : World) (limit : Nat) (trailId : String) :
    (exec (.submittedTrails limit) w).1.countP (fun row => row.trailId = trailId) ≤ 1 ∧
      (0 < (exec (.submittedTrails limit) w).1.countP (fun row => row.trailId = trailId) →
        ∃ origin, w.mark trailId = some (origin, some .submitted)) := by
  constructor
  · simp only [exec]
    calc List.countP _ (List.take _ _)
      _ ≤ List.countP _ (List.insertionSort _ _) := (List.take_sublist _ _).countP_le
      _ = List.countP _ (List.filter _ _) := (List.perm_insertionSort _ _).countP_eq _
      _ ≤ w.trails.rows.countP fun row => row.trailId = trailId := List.filter_sublist.countP_le
      _ ≤ 1 := w.trails.countP_key_le trailId
  · intro read
    obtain ⟨row, member, same⟩ := List.countP_pos_iff.mp read
    obtain rfl : row.trailId = trailId := of_decide_eq_true same
    obtain ⟨found, submitted⟩ := stored_of_submittedTrails member
    exact ⟨row.origin, by rw [World.mark, found, Option.map_some, submitted]⟩

/-- Where the poller is idle, no check is on its way. -/
theorem plays_idle (idle : s.idle = true) (trailId : String) : s.plays trailId .checking = 0 := by
  apply List.countP_eq_zero.mpr
  intro process member plays
  have finished := List.all_eq_true.mp idle process member
  obtain ⟨call, program⟩ := process
  cases call with
  | anchor thread tx now lastAction =>
      simp only [AnchorProcess.plays, decide_eq_true_eq] at plays
      have role := plays.2
      revert role
      cases stage program <;> intro same <;> cases same
  | check row receipt now =>
      simp only [decide_eq_true_eq] at finished
      simp only [AnchorProcess.plays, decide_eq_true_eq, finished] at plays
      cases plays.2

/-- A cycle begins where the checks of the last one are done. -/
theorem view_poll (s : AnchorState) (trailId : String) :
    let next := (chain.step s .poll).view trailId
    next.Within (s.view trailId) ∨
      (∃ origin, (s.view trailId).mark = some (origin, some .submitted)) ∧ next.mark = (s.view trailId).mark ∧
        next.unsent = (s.view trailId).unsent ∧ next.due = (s.view trailId).due ∧
        next.credited = (s.view trailId).credited ∧ next.checking ≤ 1 ∧ next.told = (s.view trailId).told := by
  simp only [Chain.step]
  split
  · rename_i free
    have none := plays_idle (Bool.and_eq_true_iff.mp free).1 trailId
    obtain ⟨once, submitted⟩ := submittedTrails_once s.world 20 trailId
    have checking : (AnchorState.view { s with pending := (exec (.submittedTrails 20) s.world).1 } trailId).checking =
        (exec (.submittedTrails 20) s.world).1.countP fun row => row.trailId = trailId := by
      change _ + s.plays trailId .checking = _
      rw [none, add_zero]
    by_cases read : 0 < (exec (.submittedTrails 20) s.world).1.countP fun row => row.trailId = trailId
    · exact Or.inr ⟨submitted read, rfl, rfl, rfl, rfl, checking.trans_le once, rfl⟩
    · exact Or.inl ⟨rfl, le_rfl, le_rfl, rfl, by rw [checking]; omega, le_rfl⟩
  · exact Or.inl (.refl _)

/-- The turn of a row is a check of it. -/
theorem view_check (trailId : String) (receipt : Except Raised Json) (now : Seconds) :
    ((chain.step s (.check receipt now)).view trailId).Within (s.view trailId) := by
  simp only [Chain.step]
  split
  · rename_i row rest _ pending
    have role : AnchorCall.role (.check row receipt now) (stage (AnchorCall.code chain (.check row receipt now))) =
        .checking ∨ AnchorCall.role (.check row receipt now)
          (stage (AnchorCall.code chain (.check row receipt now))) = .rest := by
      rcases code_check chain row receipt now with ⟨block, program, _⟩ | ⟨reason, program, _⟩ | ⟨ended, program⟩
      · exact Or.inl (by rw [program]; rfl)
      · exact Or.inl (by rw [program]; rfl)
      · exact Or.inr (by rw [program]; rfl)
    have others : ∀ other, other ≠ .checking → other ≠ .rest → (s.pool.processes ++ [(⟨.check row receipt now,
        AnchorCall.code chain (.check row receipt now)⟩ : AnchorProcess)]).countP (AnchorProcess.plays trailId other) =
          s.plays trailId other := by
      intro other notChecking notRest
      rw [plays_append, if_neg, add_zero]
      rintro ⟨_, same⟩
      rcases role with role | role
      · exact notChecking (same.symm.trans role)
      · exact notRest (same.symm.trans role)
    have checking : (s.pool.processes ++ [(⟨.check row receipt now,
        AnchorCall.code chain (.check row receipt now)⟩ : AnchorProcess)]).countP
          (AnchorProcess.plays trailId .checking) ≤
            s.plays trailId .checking + if row.trailId = trailId then 1 else 0 := by
      rw [plays_append]
      apply Nat.add_le_add_left
      dsimp only [AnchorCall.trailId]
      by_cases own : row.trailId = trailId
      · rcases role with role | role <;> simp [own, role]
      · simp [own]
    have counted : s.pending.countP (fun row => row.trailId = trailId) =
        rest.countP (fun row => row.trailId = trailId) + if row.trailId = trailId then 1 else 0 := by
      rw [pending, List.countP_cons]
      simp only [decide_eq_true_eq]
    constructor
    · rfl
    · exact Nat.add_le_add_left (others .unsent (by decide) (by decide)).le _
    · exact (others .creditDue (by decide) (by decide)).le
    · rfl
    · change rest.countP _ + (s.pool.processes ++ [_]).countP _ ≤ s.pending.countP _ + s.plays trailId .checking
      rw [counted, Nat.add_right_comm, add_assoc]
      exact Nat.add_le_add_left checking _
    · exact Nat.add_le_add_left (others .telling (by decide) (by decide)).le _
  · exact .refl _

/-- What a run keeps of every trail. -/
structure AnchorState.Sound (chain : Chain) (s : AnchorState) : Prop where
  runs : s.pool.Runs (AnchorCall.code chain)
  owned : s.Owned
  quiet : s.Quiet
  coherent : ∀ trailId, (s.view trailId).Coherent

theorem AnchorState.Sound.step (sound : s.Sound chain) {step : AnchorStep} (keeps : s.KeepsToAnchor step) :
    (chain.step s step).Sound chain where
  runs := runs_step sound.runs step
  owned := sound.owned.step sound.runs step
  quiet := sound.quiet.step sound.runs keeps
  coherent trailId := by
    have coherent := sound.coherent trailId
    cases step with
    | request named body now =>
        rcases view_request s trailId named body now with within | ⟨absent, ⟨origin, mark⟩, unsent, due, credited,
          checking, told⟩
        · exact coherent.mono within
        · exact coherent.record absent mark unsent due credited checking told
    | begin index tx now lastAction => exact coherent.mono (view_begin trailId index tx now lastAction)
    | poll =>
        rcases view_poll s trailId with within | ⟨⟨origin, submitted⟩, mark, unsent, due, credited, checking, told⟩
        · exact coherent.mono within
        · exact coherent.poll submitted mark unsent due credited checking told
    | check receipt now => exact coherent.mono (view_check trailId receipt now)
    | advance index =>
        rcases advance_cases sound.runs index with ⟨call, program, w, left, found, effect, stepped⟩ | still
        · rw [stepped]
          exact coherent_advance coherent sound.quiet found effect keeps
        · rwa [still]

end

/-- A chain whose receipts name block 42. -/
def arbitrum : Chain := ⟨deployed, fun _ => some 42, 900⟩

/-- The receipt of a transaction, by its status. -/
def mined (status : String) : Except Raised Json :=
  .ok (.dict [(ofString "status", .str (ofString status)), (ofString "blockNumber", .str (ofString "0x2a"))])

/-- A trail of an origin is recorded, its thread runs to its end, and the poller reads
the receipt of its transaction. -/
def anchoring (origin status : String) : List AnchorStep :=
  [.request "trail" (receiptOf .null (.str (ofString origin))) 100, .begin 0 (some "0x01") 100 0,
    .advance 0, .advance 0, .advance 0, .advance 0, .poll, .check (mined status) 110, .advance 1, .advance 1]

end Argentum.Mycelium
