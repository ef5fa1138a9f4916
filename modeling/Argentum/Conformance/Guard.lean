import Argentum.Core.Table
import Argentum.Core.Program

/-! The durable idempotency guard. Its instances share one file of records, and a step of
the pool is one committed statement, one dispatch of an effect or one independent read.
The reservation is the only way to a dispatch, and a reference is reserved once. -/
namespace Argentum.Guard
open Argentum Transition

inductive TrailStatus where
  | pending | committed
  deriving DecidableEq, Repr

/-- A row of `guard_records`. -/
structure GuardRecord (ε : Type) where
  idempotencyRef : String
  trailStatus : TrailStatus
  effectId : Option ε

instance {ε : Type} : Keyed (GuardRecord ε) String := ⟨GuardRecord.idempotencyRef⟩

/-- How `real_effect_fn` ends: it returns an effect id, or it raises, and may have
produced an effect before. -/
inductive Outcome (ε : Type) where
  | returned (effectId : Option ε)
  | raised (produced : Option ε)

def Outcome.produced {ε : Type} : Outcome ε → Option ε
  | .returned effectId => effectId
  | .raised produced => produced

/-- What `read_independent` reports. -/
structure Observed (ε : Type) where
  readable : Bool
  effectCount : Nat
  effectIds : List ε

/-- The file, and every dispatch so far with the effect id it produced. -/
structure World (ε : Type) where
  records : Table (GuardRecord ε)
  dispatched : List (String × Option ε)

inductive Op (ε : Type) : Type → Type
  /-- `_read` -/
  | read (idempotencyRef : String) : Op ε (Option (GuardRecord ε))
  /-- The `INSERT ... DO NOTHING` of `_reserve`, and whether it inserted. -/
  | reserve (idempotencyRef : String) : Op ε Bool
  /-- `real_effect_fn()` -/
  | dispatch (idempotencyRef : String) (outcome : Outcome ε) : Op ε Unit
  /-- `_write` of a COMMITTED record. -/
  | commit (idempotencyRef : String) (effectId : Option ε) : Op ε Unit
  | readIndependent (observed : Observed ε) : Op ε Unit

/-- `INSERT ... ON CONFLICT(idempotency_ref) DO UPDATE`. -/
def upsert {ε : Type} (records : Table (GuardRecord ε)) (ref : String) (effectId : Option ε) :
    Table (GuardRecord ε) :=
  match records.insert? ⟨ref, .committed, effectId⟩ with
  | some inserted => inserted
  | none => records.update (fun row => row.idempotencyRef = ref)
      (fun row => { row with trailStatus := .committed, effectId }) fun _ => rfl

def exec {ε : Type} : Semantics (Op ε) (World ε)
  | _, .read ref, w => (w.records.find? ref, w)
  | _, .reserve ref, w =>
      match w.records.insert? ⟨ref, .pending, none⟩ with
      | some records => (true, { w with records })
      | none => (false, w)
  | _, .dispatch ref outcome, w => ((), { w with dispatched := w.dispatched ++ [(ref, outcome.produced)] })
  | _, .commit ref effectId, w => ((), { w with records := upsert w.records ref effectId })
  | _, .readIndependent _, w => ((), w)

inductive GuardOutcome where
  | reconciledGuard | pendingGuard | committed
  deriving DecidableEq, Repr

/-- What a call of `guard` or `reconcile` ends in. -/
inductive Result (ε : Type) where
  | guarded (effectId : Option ε) (outcome : GuardOutcome)
  | reconciled (effectId : Option ε)
  | raised

/-- What `guard` answers for a record that is there. -/
def answer {ε : Type} (existing : GuardRecord ε) : Result ε :=
  match existing.trailStatus with
  | .committed => .guarded existing.effectId .reconciledGuard
  | .pending => .guarded none .pendingGuard

def guard {ε : Type} (ref : String) (outcome : Outcome ε) : Program (Op ε) (Result ε) :=
  .perform (.read ref) fun existing =>
    match existing with
    | some existing => .done (answer existing)
    | none => .perform (.reserve ref) fun reserved =>
        match reserved with
        | false => .perform (.read ref) fun existing =>
            match existing with
            | some existing => .done (answer existing)
            | none => .done .raised
        | true => .perform (.dispatch ref outcome) fun _ =>
            match outcome with
            | .raised _ => .done .raised
            | .returned effectId => .perform (.commit ref effectId) fun _ => .done (.guarded effectId .committed)

def reconcile {ε : Type} (ref : String) (observed : Observed ε) : Program (Op ε) (Result ε) :=
  .perform (.read ref) fun existing =>
    match existing with
    | none => .done (.reconciled none)
    | some existing =>
        match existing.trailStatus with
        | .committed => .done (.reconciled none)
        | .pending => .perform (.readIndependent observed) fun _ =>
            if !observed.readable || observed.effectCount = 0 then .done (.reconciled none)
            else
              match observed.effectIds with
              | [] => .done .raised
              | effectId :: _ => .perform (.commit ref (some effectId)) fun _ => .done (.reconciled (some effectId))

/-- A call, with the effect function or the effect store it is given. -/
inductive Call (ε : Type) where
  | guard (ref : String) (outcome : Outcome ε)
  | reconcile (ref : String) (observed : Observed ε)

def Call.ref {ε : Type} : Call ε → String
  | .guard ref _ => ref
  | .reconcile ref _ => ref

def Call.code {ε : Type} : Call ε → Program (Op ε) (Result ε)
  | .guard ref outcome => Guard.guard ref outcome
  | .reconcile ref observed => Guard.reconcile ref observed

abbrev GuardPool (ε : Type) := Pool (Call ε) (Op ε) (Result ε) (World ε)

def GuardPool.step {ε : Type} (pool : GuardPool ε) (move : Move (Call ε)) : GuardPool ε :=
  Pool.step exec Call.code pool move

/-- No instance is open, and the file has no records. -/
def GuardPool.fresh {ε : Type} : GuardPool ε := ⟨⟨.empty, []⟩, []⟩

/-- The next statement of a call, by what it does, or how the call ended. -/
inductive Stage (ε : Type) where
  | reading | reserving | dispatching | observing
  | committing (effectId : Option ε)
  | finished (result : Result ε)

def stage {ε : Type} : Program (Op ε) (Result ε) → Stage ε
  | .perform (.read _) _ => .reading
  | .perform (.reserve _) _ => .reserving
  | .perform (.dispatch ..) _ => .dispatching
  | .perform (.commit _ effectId) _ => .committing effectId
  | .perform (.readIndependent _) _ => .observing
  | .done result => .finished result

section
variable {ε : Type}

/-- The dispatches for a reference. -/
def World.dispatches (w : World ε) (ref : String) : Nat := w.dispatched.countP fun entry => entry.1 = ref

/-- `read_independent` reports no effect id but the one that a dispatch for the reference
produced. -/
def World.confirms [DecidableEq ε] (w : World ε) : Call ε → Stage ε → Bool
  | .reconcile ref observed, .observing => observed.effectIds.all fun effectId => (ref, some effectId) ∈ w.dispatched
  | _, _ => true

def Truthful [DecidableEq ε] (pool : GuardPool ε) (move : Move (Call ε)) : Prop :=
  (pool.moving move).all fun process => pool.state.confirms process.call (stage process.program)

instance [DecidableEq ε] (pool : GuardPool ε) (move : Move (Call ε)) : Decidable (Truthful pool move) :=
  inferInstanceAs (Decidable (Option.all _ _ = true))

/-- A guard call that reads a PENDING record ends there, without a dispatch. -/
def RefusesPending (pool : GuardPool ε) (move : Move (Call ε)) : Prop :=
  ∀ ref outcome program row, pool.moving move = some ⟨.guard ref outcome, program⟩ → stage program = .reading →
    pool.state.records.find? ref = some row → row.trailStatus = .pending →
    pool.returned exec move = some (.guarded none .pendingGuard)

/-- An effect is dispatched once at most for a reference, a COMMITTED record stays one, and
a PENDING record that is found leads to no dispatch. -/
def DispatchesOnce (moves : List (Move (Call ε))) : Prop :=
  let ended := run GuardPool.step .fresh moves
  (∀ ref, ended.state.dispatches ref ≤ 1) ∧
  (∀ before after, moves = before ++ after → ∀ ref row,
    (run GuardPool.step .fresh before).state.records.find? ref = some row → row.trailStatus = .committed →
    ∃ later, ended.state.records.find? ref = some later ∧ later.trailStatus = .committed) ∧
  ∀ before move after, moves = before ++ move :: after → RefusesPending (run GuardPool.step .fresh before) move

/-- A COMMITTED record keeps its effect id, and every guard call that returns while the
record is COMMITTED returns that id. -/
def KeepsEffectId (moves : List (Move (Call ε))) : Prop :=
  (∀ before after, moves = before ++ after → ∀ ref row,
    (run GuardPool.step .fresh before).state.records.find? ref = some row → row.trailStatus = .committed →
    (run GuardPool.step .fresh moves).state.records.find? ref = some row) ∧
  ∀ before move after, moves = before ++ move :: after → ∀ ref outcome program effectId guarded row,
    (run GuardPool.step .fresh before).moving move = some ⟨.guard ref outcome, program⟩ →
    (run GuardPool.step .fresh before).returned exec move = some (.guarded effectId guarded) →
    (run GuardPool.step .fresh (before ++ [move])).state.records.find? ref = some row →
    row.trailStatus = .committed → effectId = row.effectId

/-- What a statement of a call does to the file, and what the call does next. -/
inductive Effect (w : World ε) : Call ε → Stage ε → World ε → Stage ε → Prop
  | answered {ref outcome row} (found : w.records.find? ref = some row) :
      Effect w (.guard ref outcome) .reading w (.finished (answer row))
  | absent {ref outcome later} (none : w.records.find? ref = none)
      (next : later = .reserving ∨ later = .finished .raised) : Effect w (.guard ref outcome) .reading w later
  | reserved {ref outcome records} (inserted : w.records.insert? ⟨ref, .pending, none⟩ = some records) :
      Effect w (.guard ref outcome) .reserving { w with records } .dispatching
  | taken {ref outcome} (taken : w.records.insert? ⟨ref, .pending, none⟩ = none) :
      Effect w (.guard ref outcome) .reserving w .reading
  | dispatched {ref outcome later}
      (next : later = .finished .raised ∨ later = .committing outcome.produced) :
      Effect w (.guard ref outcome) .dispatching
        { w with dispatched := w.dispatched ++ [(ref, outcome.produced)] } later
  | committed {ref outcome effectId} : Effect w (.guard ref outcome) (.committing effectId)
      { w with records := upsert w.records ref effectId } (.finished (.guarded effectId .committed))
  | inspected {ref observed later} (next : later = .observing ∨ later = .finished (.reconciled none)) :
      Effect w (.reconcile ref observed) .reading w later
  | observed {ref observed later} (next : later = .finished (.reconciled none) ∨ later = .finished .raised ∨
      ∃ effectId ∈ observed.effectIds, later = .committing (some effectId)) :
      Effect w (.reconcile ref observed) .observing w later
  | reconciled {ref observed effectId} : Effect w (.reconcile ref observed) (.committing effectId)
      { w with records := upsert w.records ref effectId } (.finished (.reconciled effectId))

variable {β : Type} {op : Op ε β} {next : β → Program (Op ε) (Result ε)} {ref : String}

theorem effect_guard {outcome : Outcome ε} (left : (guard ref outcome).Residual (.perform op next)) (w : World ε) :
    Effect w (.guard ref outcome) (stage (.perform op next)) (exec op w).2 (stage (next (exec op w).1)) := by
  unfold guard at left
  rcases Program.residual_perform_iff.mp left with same | ⟨existing, left⟩
  · cases same
    cases found : w.records.find? ref with
    | none =>
        simp only [exec, found]
        exact .absent found (Or.inl rfl)
    | some row =>
        simp only [exec, found]
        exact .answered found
  cases existing with
  | some existing => cases Program.residual_done_iff.mp left
  | none =>
    rcases Program.residual_perform_iff.mp left with same | ⟨reserved, left⟩
    · cases same
      cases inserted : w.records.insert? ⟨ref, .pending, none⟩ with
      | none =>
          simp only [exec, inserted]
          exact .taken inserted
      | some records =>
          simp only [exec, inserted]
          exact .reserved inserted
    cases reserved with
    | false =>
        rcases Program.residual_perform_iff.mp left with same | ⟨existing, left⟩
        · cases same
          cases found : w.records.find? ref with
          | none =>
              simp only [exec, found]
              exact .absent found (Or.inr rfl)
          | some row =>
              simp only [exec, found]
              exact .answered found
        cases existing <;> cases Program.residual_done_iff.mp left
    | true =>
        rcases Program.residual_perform_iff.mp left with same | ⟨_, left⟩
        · cases same
          cases outcome with
          | returned effectId => exact .dispatched (Or.inr rfl)
          | raised produced => exact .dispatched (Or.inl rfl)
        cases outcome with
        | raised produced => cases Program.residual_done_iff.mp left
        | returned effectId =>
            rcases Program.residual_perform_iff.mp left with same | ⟨_, left⟩
            · cases same
              exact .committed
            · cases Program.residual_done_iff.mp left

theorem effect_reconcile {observed : Observed ε} (left : (reconcile ref observed).Residual (.perform op next))
    (w : World ε) :
    Effect w (.reconcile ref observed) (stage (.perform op next)) (exec op w).2 (stage (next (exec op w).1)) := by
  unfold reconcile at left
  rcases Program.residual_perform_iff.mp left with same | ⟨existing, left⟩
  · cases same
    apply Effect.inspected
    cases found : w.records.find? ref with
    | none =>
        simp only [exec, found]
        exact Or.inr rfl
    | some row =>
        simp only [exec, found]
        cases row.trailStatus with
        | pending => exact Or.inl rfl
        | committed => exact Or.inr rfl
  cases existing with
  | none => cases Program.residual_done_iff.mp left
  | some existing =>
    dsimp only at left
    cases status : existing.trailStatus with
    | committed =>
        rw [status] at left
        cases Program.residual_done_iff.mp left
    | pending =>
      rw [status] at left
      rcases Program.residual_perform_iff.mp left with same | ⟨_, left⟩
      · cases same
        apply Effect.observed
        dsimp only
        split
        · exact Or.inl rfl
        · cases ids : observed.effectIds with
          | nil => exact Or.inr (Or.inl rfl)
          | cons effectId rest => exact Or.inr (Or.inr ⟨effectId, List.mem_cons_self, rfl⟩)
      split at left
      · cases Program.residual_done_iff.mp left
      · split at left
        · cases Program.residual_done_iff.mp left
        · rcases Program.residual_perform_iff.mp left with same | ⟨_, left⟩
          · cases same
            exact .reconciled
          · cases Program.residual_done_iff.mp left

end

def Stage.result? {ε : Type} : Stage ε → Option (Result ε)
  | .finished result => some result
  | _ => none

section
variable {ε : Type} {pool : GuardPool ε}

/-- What a move does: a call arrives or dies, or a statement has its effect, or nothing
happens. -/
theorem step_cases (runs : pool.Runs Call.code) (move : Move (Call ε)) :
    (∃ call, move = .start call ∧ pool.returned exec move = none ∧
      pool.step move = { pool with processes := pool.processes ++ [⟨call, call.code⟩] }) ∨
    (∃ index, move = .crash index ∧ pool.returned exec move = none ∧
      pool.step move = { pool with processes := pool.processes.eraseIdx index }) ∨
    (∃ index call program w left, move = .advance index ∧ pool.processes[index]? = some ⟨call, program⟩ ∧
      pool.returned exec move = (stage left).result? ∧ Effect pool.state call (stage program) w (stage left) ∧
      pool.step move = { state := w, processes := pool.processes.set index ⟨call, left⟩ }) ∨
    (pool.returned exec move = none ∧
      (∀ process, pool.moving move = some process → ∃ result, stage process.program = .finished result) ∧
      pool.step move = pool) := by
  cases move with
  | start call => exact Or.inl ⟨call, rfl, rfl, rfl⟩
  | crash index => exact Or.inr (Or.inl ⟨index, rfl, rfl, rfl⟩)
  | advance index =>
      rcases pool.step_advance exec Call.code index with ⟨call, β, op, next, found, stepped⟩ | ⟨idle, still⟩
      · have left := runs _ (List.mem_of_getElem? found)
        have effect : Effect pool.state call (stage (.perform op next)) (exec op pool.state).2
            (stage (next (exec op pool.state).1)) := by
          cases call with
          | guard ref outcome => exact effect_guard left pool.state
          | reconcile ref observed => exact effect_reconcile left pool.state
        have result : pool.returned exec (.advance index) = (stage (next (exec op pool.state).1)).result? := by
          rw [Pool.returned, Pool.moving, found]
          dsimp only
          split
          · rename_i value ended
            rw [ended]
            rfl
          · rename_i goes
            cases program : next (exec op pool.state).1 with
            | done value => exact absurd program (goes value)
            | perform op next => cases op <;> rfl
        exact Or.inr (Or.inr (Or.inl ⟨index, call, _, _, _, rfl, found, result, effect, stepped⟩))
      · have done : ∀ process, pool.processes[index]? = some process →
            ∃ result, stage process.program = .finished result := by
          intro process found
          obtain ⟨value, ended⟩ := idle process found
          exact ⟨value, by rw [ended]; rfl⟩
        refine Or.inr (Or.inr (Or.inr ⟨?_, done, still⟩))
        rw [Pool.returned, Pool.moving]
        cases found : pool.processes[index]? with
        | none => rfl
        | some process =>
            obtain ⟨value, ended⟩ := idle process found
            obtain ⟨call, program⟩ := process
            cases ended
            rfl

def Stage.isDispatching : Stage ε → Bool
  | .dispatching => true
  | _ => false

/-- The calls for a reference that have reserved it and are about to dispatch. -/
def GuardPool.dispatching (pool : GuardPool ε) (ref : String) : Nat :=
  pool.processes.countP fun process => process.call.ref = ref ∧ (stage process.program).isDispatching

/-- A reference without a record has no dispatch, made or about to be, and one with a
record has one at most. -/
structure GuardPool.Sound (pool : GuardPool ε) : Prop where
  runs : pool.Runs Call.code
  once : ∀ ref, pool.dispatching ref + pool.state.dispatches ref ≤
    if (pool.state.records.find? ref).isSome then 1 else 0

variable {w after : World ε} {call : Call ε} {now later : Stage ε}

theorem find?_upsert (records : Table (GuardRecord ε)) (ref k : String) (effectId : Option ε) :
    (upsert records ref effectId).find? k =
      if ref = k then some ⟨ref, .committed, effectId⟩ else records.find? k := by
  unfold upsert
  cases inserted : records.insert? ⟨ref, .committed, effectId⟩ with
  | some next => exact Table.find?_insert inserted k
  | none =>
      have selects : ∀ row : GuardRecord ε, decide (row.idempotencyRef = ref) = decide (Keyed.key row = ref) :=
        fun _ => rfl
      dsimp only
      rw [Table.find?_update_key selects]
      split
      · rename_i same
        subst same
        cases found : records.find? ref with
        | none =>
            have fits : (records.insert? ⟨ref, .committed, effectId⟩).isSome := Table.insert?_isSome_iff.mpr found
            rw [inserted] at fits
            cases fits
        | some row =>
            obtain rfl : row.idempotencyRef = ref := Table.find?_key found
            rfl
      · rfl

/-- A dispatch is made by a call that was about to, and a call is about to only where it
has just made the record. -/
theorem Effect.dispatches (effect : Effect w call now after later) (ref : String) :
    after.dispatches ref + (if call.ref = ref ∧ later.isDispatching then 1 else 0) +
        (if (w.records.find? ref).isSome then 1 else 0) ≤
      w.dispatches ref + (if call.ref = ref ∧ now.isDispatching then 1 else 0) +
        if (after.records.find? ref).isSome then 1 else 0 := by
  have written : ∀ (named : String) (effectId : Option ε),
      (if (w.records.find? ref).isSome then 1 else 0) ≤
        if ((upsert w.records named effectId).find? ref).isSome then 1 else 0 := by
    intro named effectId
    rw [find?_upsert]
    split
    · split <;> simp_all
    · exact Nat.zero_le _
  cases effect with
  | answered found => simp [Stage.isDispatching]
  | absent none next => rcases next with rfl | rfl <;> simp [Stage.isDispatching]
  | @reserved named outcome records inserted =>
      obtain ⟨rows, none⟩ := Table.insert?_eq_some_iff.mp inserted
      have absent : w.records.find? named = Option.none := none
      have read : records.find? ref =
          if named = ref then some ⟨named, .pending, Option.none⟩ else w.records.find? ref :=
        Table.find?_insert inserted ref
      by_cases same : named = ref
      · subst same
        simp [Stage.isDispatching, Call.ref, absent, read, World.dispatches]
      · simp [Stage.isDispatching, Call.ref, same, read, World.dispatches]
  | taken taken => simp [Stage.isDispatching]
  | @dispatched named outcome _ next =>
      have counted : World.dispatches { w with dispatched := w.dispatched ++ [(named, outcome.produced)] } ref =
          w.dispatches ref + if named = ref then 1 else 0 := by
        rw [World.dispatches, List.countP_append, List.countP_singleton]
        simp [World.dispatches]
      rw [counted]
      rcases next with rfl | rfl <;> simp [Stage.isDispatching, Call.ref]
  | committed => simpa [Stage.isDispatching, World.dispatches] using written _ _
  | inspected next => rcases next with rfl | rfl <;> simp [Stage.isDispatching]
  | observed next => rcases next with rfl | rfl | ⟨_, _, rfl⟩ <;> simp [Stage.isDispatching]
  | reconciled => simpa [Stage.isDispatching, World.dispatches] using written _ _

theorem GuardPool.Sound.step (sound : pool.Sound) (move : Move (Call ε)) : (pool.step move).Sound := by
  refine ⟨sound.runs.step move, fun ref => ?_⟩
  have once := sound.once ref
  rcases step_cases sound.runs move with ⟨call, _, _, stepped⟩ | ⟨index, _, _, stepped⟩ |
    ⟨index, call, program, w, left, _, found, _, effect, stepped⟩ | ⟨_, _, same⟩
  · have starts : (stage call.code).isDispatching = false := by cases call <;> rfl
    have counted : (pool.step move).dispatching ref = pool.dispatching ref := by
      rw [stepped, GuardPool.dispatching, List.countP_append, List.countP_singleton]
      simp [starts, GuardPool.dispatching]
    rw [counted, stepped]
    exact once
  · have counted : (pool.step move).dispatching ref ≤ pool.dispatching ref := by
      rw [stepped]
      exact (List.eraseIdx_sublist ..).countP_le
    rw [stepped] at counted ⊢
    exact (Nat.add_le_add_right counted _).trans once
  · have effects := effect.dispatches ref
    have counted := @countP_set_add _ (fun process : Process (Call ε) (Op ε) (Result ε) =>
      decide (process.call.ref = ref ∧ (stage process.program).isDispatching)) _ _ _ ⟨call, left⟩ found
    change _ = pool.dispatching ref + _ at counted
    simp only [decide_eq_true_eq] at counted
    rw [stepped]
    change (pool.processes.set index ⟨call, left⟩).countP _ + w.dispatches ref ≤ _
    dsimp only
    omega
  · rw [same]
    exact once

theorem GuardPool.Sound.dispatches_le (sound : pool.Sound) (ref : String) : pool.state.dispatches ref ≤ 1 := by
  have once := sound.once ref
  split at once <;> omega

/-- What was dispatched for a reference is one effect. -/
theorem GuardPool.Sound.unique (sound : pool.Sound) {ref : String} {first second : Option ε}
    (one : (ref, first) ∈ pool.state.dispatched) (two : (ref, second) ∈ pool.state.dispatched) : first = second := by
  have once := sound.dispatches_le ref
  have found := find?_of_countP_le_one once one (decide_eq_true rfl)
  rw [find?_of_countP_le_one once two (decide_eq_true rfl)] at found
  exact ((Prod.mk.inj (Option.some.inj found)).2).symm

theorem sound_fresh : (GuardPool.fresh : GuardPool ε).Sound := by
  constructor
  · intro process member
    cases member
  · intro ref
    exact Nat.zero_le _

theorem Effect.committed_stays (effect : Effect w call now after later) {ref : String} {row : GuardRecord ε}
    (found : w.records.find? ref = some row) (committed : row.trailStatus = .committed) :
    ∃ next, after.records.find? ref = some next ∧ next.trailStatus = .committed := by
  have written : ∀ (named : String) (effectId : Option ε), ∃ next,
      (upsert w.records named effectId).find? ref = some next ∧ next.trailStatus = .committed := by
    intro named effectId
    rw [find?_upsert]
    split
    · exact ⟨_, rfl, rfl⟩
    · exact ⟨row, found, committed⟩
  cases effect with
  | @reserved named outcome records inserted =>
      obtain ⟨_, absent⟩ := Table.insert?_eq_some_iff.mp inserted
      have read : records.find? ref = if named = ref then some ⟨named, .pending, none⟩ else w.records.find? ref :=
        Table.find?_insert inserted ref
      by_cases same : named = ref
      · subst same
        cases found.symm.trans absent
      · exact ⟨row, by rw [read, if_neg same, found], committed⟩
  | committed => exact written _ _
  | reconciled => exact written _ _
  | _ => exact ⟨row, found, committed⟩

theorem committed_stays (runs : pool.Runs Call.code) (move : Move (Call ε)) {ref : String}
    (held : ∃ row, pool.state.records.find? ref = some row ∧ row.trailStatus = .committed) :
    ∃ row, (pool.step move).state.records.find? ref = some row ∧ row.trailStatus = .committed := by
  rcases step_cases runs move with ⟨call, _, _, stepped⟩ | ⟨index, _, _, stepped⟩ |
    ⟨index, call, program, w, left, _, _, _, effect, stepped⟩ | ⟨_, _, same⟩
  · rwa [stepped]
  · rwa [stepped]
  · obtain ⟨row, found, committed⟩ := held
    rw [stepped]
    exact effect.committed_stays found committed
  · rwa [same]

theorem refusesPending (runs : pool.Runs Call.code) (move : Move (Call ε)) : RefusesPending pool move := by
  intro ref outcome program row moves reading found pending
  rcases step_cases runs move with ⟨call, rfl, _, _⟩ | ⟨index, rfl, _, _⟩ |
    ⟨index, call, program, w, left, rfl, process, result, effect, _⟩ | ⟨_, idle, _⟩
  · cases moves
  · cases moves
  · cases process.symm.trans moves
    rw [result]
    rw [reading] at effect
    generalize stage left = later at effect ⊢
    cases effect with
    | answered there =>
        obtain rfl := Option.some.inj (found.symm.trans there)
        rw [answer, pending]
        rfl
    | absent none => cases found.symm.trans none
  · obtain ⟨result, finished⟩ := idle _ moves
    cases reading.symm.trans finished

/-- What is committed, or about to be, was dispatched. -/
structure GuardPool.Settled (pool : GuardPool ε) : Prop where
  committed : ∀ ref row, pool.state.records.find? ref = some row → row.trailStatus = .committed →
    (ref, row.effectId) ∈ pool.state.dispatched
  committing : ∀ process ∈ pool.processes, ∀ effectId, stage process.program = .committing effectId →
    (process.call.ref, effectId) ∈ pool.state.dispatched

theorem Effect.grows (effect : Effect w call now after later) {entry : String × Option ε}
    (member : entry ∈ w.dispatched) : entry ∈ after.dispatched := by
  cases effect with
  | dispatched => exact List.mem_append_left _ member
  | _ => exact member

theorem dispatched_grows (runs : pool.Runs Call.code) (move : Move (Call ε)) {entry : String × Option ε}
    (member : entry ∈ pool.state.dispatched) : entry ∈ (pool.step move).state.dispatched := by
  rcases step_cases runs move with ⟨call, _, _, stepped⟩ | ⟨index, _, _, stepped⟩ |
    ⟨index, call, program, w, left, _, _, _, effect, stepped⟩ | ⟨_, _, same⟩
  · rwa [stepped]
  · rwa [stepped]
  · rw [stepped]
    exact effect.grows member
  · rwa [same]

theorem settled_fresh : (GuardPool.fresh : GuardPool ε).Settled := by
  constructor
  · intro ref row found
    cases found
  · intro process member
    cases member

/-- A call is about to commit what its dispatch produced, or what the independent read
reports of a dispatch. -/
theorem Effect.committing [DecidableEq ε] (effect : Effect w call now after later)
    (confirmed : w.confirms call now = true) {effectId : Option ε} (commits : later = .committing effectId) :
    (call.ref, effectId) ∈ after.dispatched := by
  subst commits
  cases effect with
  | absent _ next => rcases next with next | next <;> cases next
  | dispatched next =>
      rcases next with next | next
      · cases next
      · cases next
        exact List.mem_append_right _ List.mem_cons_self
  | inspected next => rcases next with next | next <;> cases next
  | observed next =>
      rcases next with next | next | ⟨reported, member, next⟩
      · cases next
      · cases next
      · cases next
        exact of_decide_eq_true (List.all_eq_true.mp confirmed reported member)

/-- A committed record is one that was, or the call was about to commit it. -/
theorem Effect.record (effect : Effect w call now after later) {ref : String} {row : GuardRecord ε}
    (found : after.records.find? ref = some row) (committed : row.trailStatus = .committed) :
    w.records.find? ref = some row ∨
      ∃ effectId, now = .committing effectId ∧ call.ref = ref ∧ row.effectId = effectId := by
  have written : ∀ (named : String) (effectId : Option ε), (upsert w.records named effectId).find? ref = some row →
      w.records.find? ref = some row ∨ named = ref ∧ row.effectId = effectId := by
    intro named effectId read
    rw [find?_upsert] at read
    split at read
    · rename_i same
      cases read
      exact Or.inr ⟨same, rfl⟩
    · exact Or.inl read
  cases effect with
  | @reserved named outcome records inserted =>
      have read : records.find? ref =
          if named = ref then some ⟨named, .pending, none⟩ else w.records.find? ref :=
        Table.find?_insert inserted ref
      change records.find? ref = some row at found
      rw [read] at found
      split at found
      · cases found
        cases committed
      · exact Or.inl found
  | committed =>
      rcases written _ _ found with earlier | own
      · exact Or.inl earlier
      · exact Or.inr ⟨_, rfl, own⟩
  | reconciled =>
      rcases written _ _ found with earlier | own
      · exact Or.inl earlier
      · exact Or.inr ⟨_, rfl, own⟩
  | _ => exact Or.inl found

/-- A truthful move commits what was dispatched. -/
theorem GuardPool.Settled.step [DecidableEq ε] (settled : pool.Settled) (runs : pool.Runs Call.code)
    {move : Move (Call ε)} (truthful : Truthful pool move) : (pool.step move).Settled := by
  rcases step_cases runs move with ⟨call, _, _, stepped⟩ | ⟨index, _, _, stepped⟩ |
    ⟨index, call, program, w, left, rfl, found, _, effect, stepped⟩ | ⟨_, _, same⟩
  · rw [stepped]
    refine ⟨settled.committed, ?_⟩
    intro process member effectId commits
    rcases List.mem_append.mp member with earlier | last
    · exact settled.committing process earlier effectId commits
    · rw [List.mem_singleton.mp last] at commits
      cases call <;> cases commits
  · rw [stepped]
    refine ⟨settled.committed, ?_⟩
    intro process member
    exact settled.committing process (List.mem_of_mem_eraseIdx member)
  · have due := settled.committing _ (List.mem_of_getElem? found)
    have confirmed : pool.state.confirms call (stage program) = true := by
      rw [Truthful, Pool.moving, found] at truthful
      exact truthful
    have record : ∀ ref row, w.records.find? ref = some row → row.trailStatus = .committed →
        (ref, row.effectId) ∈ w.dispatched := by
      intro ref row there committed
      rcases effect.record there committed with earlier | ⟨effectId, commits, rfl, rfl⟩
      · exact effect.grows (settled.committed ref row earlier committed)
      · exact effect.grows (due _ commits)
    rw [stepped]
    refine ⟨record, ?_⟩
    intro process member effectId commits
    rcases List.mem_or_eq_of_mem_set member with earlier | rfl
    · exact effect.grows (settled.committing process earlier effectId commits)
    · exact effect.committing confirmed commits
  · rwa [same]

/-- A truthful move leaves a COMMITTED record as it is. -/
theorem committed_kept [DecidableEq ε] (sound : pool.Sound) (settled : pool.Settled) {move : Move (Call ε)}
    (truthful : Truthful pool move) {ref : String} {row : GuardRecord ε}
    (found : pool.state.records.find? ref = some row) (committed : row.trailStatus = .committed) :
    (pool.step move).state.records.find? ref = some row := by
  obtain ⟨later, there, still⟩ := committed_stays sound.runs move ⟨row, found, committed⟩
  have dispatched := (settled.step sound.runs truthful).committed ref later there still
  have first := dispatched_grows sound.runs move (settled.committed ref row found committed)
  have named : later.idempotencyRef = row.idempotencyRef := (Table.find?_key there).trans (Table.find?_key found).symm
  have effectId : later.effectId = row.effectId := (sound.step move).unique dispatched first
  obtain ⟨_, _, _⟩ := later
  obtain ⟨_, _, _⟩ := row
  cases named
  cases effectId
  cases still
  cases committed
  exact there

theorem returns_effectId (runs : pool.Runs Call.code) {move : Move (Call ε)} {ref : String} {outcome : Outcome ε}
    {program : Program (Op ε) (Result ε)} {effectId : Option ε} {guarded : GuardOutcome} {row : GuardRecord ε}
    (moves : pool.moving move = some ⟨.guard ref outcome, program⟩)
    (returned : pool.returned exec move = some (.guarded effectId guarded))
    (found : (pool.step move).state.records.find? ref = some row) (committed : row.trailStatus = .committed) :
    effectId = row.effectId := by
  rcases step_cases runs move with ⟨call, _, none, _⟩ | ⟨index, _, none, _⟩ |
    ⟨index, call, program', w, left, rfl, process, result, effect, stepped⟩ | ⟨none, _, _⟩
  · cases none.symm.trans returned
  · cases none.symm.trans returned
  · cases process.symm.trans moves
    rw [stepped] at found
    change w.records.find? ref = some row at found
    rw [returned] at result
    generalize stage program = now at effect
    generalize stage left = later at effect result
    cases effect with
    | answered there =>
        obtain rfl := Option.some.inj (there.symm.trans found)
        rw [answer, committed] at result
        cases result
        rfl
    | absent _ next => rcases next with rfl | rfl <;> cases result
    | reserved | taken => cases result
    | dispatched next => rcases next with rfl | rfl <;> cases result
    | committed =>
        cases result
        rw [find?_upsert, if_pos rfl] at found
        cases found
        rfl
  · cases none.symm.trans returned

/-- Any number of instances, interleaved and killed at any point, dispatch an effect once at
most for a reference; with truthful reads, what is committed and returned is its id. -/
theorem dispatchesOnce [DecidableEq ε] (moves : List (Move (Call ε))) : DispatchesOnce moves ∧
    (Admits GuardPool.step Truthful .fresh moves → KeepsEffectId moves) := by
  have sound : ∀ moves : List (Move (Call ε)), (run GuardPool.step .fresh moves).Sound := fun moves =>
    run_invariant (P := GuardPool.Sound) (fun _ move sound => sound.step move) moves sound_fresh
  refine ⟨⟨fun ref => (sound moves).dispatches_le ref, ?_, ?_⟩, fun admitted => ⟨?_, ?_⟩⟩
  · rintro before after rfl ref row found committed
    rw [run_append]
    obtain ⟨_, held⟩ := run_invariant (P := fun pool : GuardPool ε => pool.Runs Call.code ∧
        ∃ row, pool.state.records.find? ref = some row ∧ row.trailStatus = .committed)
      (fun pool move held => ⟨held.1.step move, committed_stays held.1 move held.2⟩) after
      ⟨(sound before).runs, row, found, committed⟩
    exact held
  · rintro before move after rfl
    exact refusesPending (sound before).runs move
  · rintro before after rfl ref row found committed
    obtain ⟨first, second⟩ := admits_append.mp admitted
    have settled : (run GuardPool.step .fresh before).Settled := by
      obtain ⟨_, settled⟩ := first.invariant (P := fun pool : GuardPool ε => pool.Sound ∧ pool.Settled)
        (fun _ move held truthful => ⟨held.1.step move, held.2.step held.1.runs truthful⟩) ⟨sound_fresh, settled_fresh⟩
      exact settled
    rw [run_append]
    obtain ⟨_, _, kept⟩ := second.invariant
      (P := fun pool : GuardPool ε => pool.Sound ∧ pool.Settled ∧ pool.state.records.find? ref = some row)
      (fun _ move held truthful => ⟨held.1.step move, held.2.1.step held.1.runs truthful,
        committed_kept held.1 held.2.1 truthful held.2.2 committed⟩) ⟨sound before, settled, found⟩
    exact kept
  · rintro before move after _ ref outcome program effectId guarded row moves returned found committed
    rw [run_concat] at found
    exact returns_effectId (sound before).runs moves returned found committed

end

/-- Two instances read no record; one reserves and dispatches, the other finds its record
PENDING, and a third reconciles it before the first commits. -/
def overlapping : List (Move (Call Nat)) :=
  [.start (.guard "ref" (.returned (some 7))), .start (.guard "ref" (.returned (some 8))), .advance 0, .advance 1,
    .advance 1, .advance 0, .advance 0, .advance 1, .start (.reconcile "ref" ⟨true, 1, [8]⟩), .advance 2, .advance 2,
    .advance 2, .advance 1, .start (.guard "ref" (.returned (some 9))), .advance 3]

theorem dispatchesOnce_overlapping : DispatchesOnce overlapping ∧ KeepsEffectId overlapping :=
  ⟨(dispatchesOnce overlapping).1, (dispatchesOnce overlapping).2 (by decide)⟩

end Argentum.Guard
