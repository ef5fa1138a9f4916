import Argentum.Conformance.Guard
import Mathlib.Data.List.Sort

/-! The effects behind the guards. An attempt raises before or after its effect, or returns; between
attempts the process restarts, and an orphaned record is reconciled with the effect store. What the
guard in memory forgets with its process, the durable one reads back from its file. -/
namespace Argentum.Effects
open Guard Transition

/-- Where `real_effect_fn` raises: before `apply_effect`, after it, or nowhere. -/
inductive Fault where
  | before | after | never
  deriving DecidableEq, Repr

/-- A call of the tool, with the id drawn for its effect. -/
structure Attempt (ε : Type) where
  action : String
  attemptNo : Nat
  fault : Fault
  effectId : ε

def Attempt.outcome {ε : Type} (a : Attempt ε) : Outcome ε :=
  match a.fault with
  | .before => .raised none
  | .after => .raised (some a.effectId)
  | .never => .returned (some a.effectId)

def Attempt.applies {ε : Type} (a : Attempt ε) : Bool := a.fault ≠ .before

structure EffectRow (ε : Type) where
  effectId : ε
  logicalActionId : String
  attemptNo : Nat
  counterValueAfter : Nat

structure EffectStore (ε : Type) where
  counter : Nat
  effects : List (EffectRow ε)

namespace EffectStore
variable {ε : Type}

def empty : EffectStore ε := ⟨0, []⟩

def applyEffect (store : EffectStore ε) (effectId : ε) (action : String) (attemptNo : Nat) : EffectStore ε :=
  ⟨store.counter + 1, store.effects ++ [⟨effectId, action, attemptNo, store.counter + 1⟩]⟩

/-- The store after a call of `real_effect_fn`. -/
def call (store : EffectStore ε) (a : Attempt ε) : EffectStore ε :=
  if a.applies then store.applyEffect a.effectId a.action a.attemptNo else store

/-- The rows of an action by attempt, where the store can be read. -/
def readIndependent (store : EffectStore ε) (action : String) (readable : Bool) : Observed ε :=
  if readable then
    let rows := (store.effects.filter fun row => row.logicalActionId = action).insertionSort fun a b =>
      a.attemptNo ≤ b.attemptNo
    ⟨true, rows.length, rows.map EffectRow.effectId⟩
  else ⟨false, 0, []⟩

end EffectStore

inductive Event (ε : Type) where
  | attempt (a : Attempt ε)
  | reconcile (action : String) (readable : Bool)
  | restart

def Event.isRestart {ε : Type} : Event ε → Bool
  | .restart => true
  | _ => false

/-- The dict of the guard in memory. -/
abbrev Records (ε : Type) := List (String × TrailStatus × Option ε)

def Records.set {ε : Type} (records : Records ε) (ref : String) (status : TrailStatus) (effectId : Option ε) :
    Records ε :=
  (ref, status, effectId) :: records.filter fun entry => entry.1 ≠ ref

structure InMemory (ε : Type) where
  records : Records ε
  store : EffectStore ε

structure Durable (ε : Type) where
  file : World ε
  store : EffectStore ε

section
variable {ε : Type} (refOf : String → String)

/-- The tool without a guard: every call of it has its effect. -/
def unguarded (store : EffectStore ε) : Event ε → EffectStore ε
  | .attempt a => store.call a
  | _ => store

/-- `IdempotencyGuard`: `guard`, `reconcile`, and the empty dict of a new process. -/
def inMemory (s : InMemory ε) : Event ε → Option (Result ε) × InMemory ε
  | .attempt a =>
      match s.records.lookup (refOf a.action) with
      | some (.committed, effectId) => (some (.guarded effectId .reconciledGuard), s)
      | some (.pending, _) => (some (.guarded none .pendingGuard), s)
      | none =>
          let reserved := s.records.set (refOf a.action) .pending none
          match a.outcome with
          | .raised _ => (some .raised, ⟨reserved, s.store.call a⟩)
          | .returned effectId =>
              (some (.guarded effectId .committed),
                ⟨reserved.set (refOf a.action) .committed effectId, s.store.call a⟩)
  | .reconcile action readable =>
      match s.records.lookup (refOf action) with
      | some (.pending, _) =>
          let observed := s.store.readIndependent action readable
          if !observed.readable || observed.effectCount = 0 then (some (.reconciled none), s)
          else
            match observed.effectIds with
            | [] => (some .raised, s)
            | effectId :: _ =>
                (some (.reconciled (some effectId)),
                  { s with records := s.records.set (refOf action) .committed (some effectId) })
      | _ => (some (.reconciled none), s)
  | .restart => (none, { s with records := [] })

/-- `DurableIdempotencyGuard`, alone on its file: where it dispatches the effect function is called,
and a new process opens the file that is there. -/
def durable (s : Durable ε) : Event ε → Option (Result ε) × Durable ε
  | .attempt a =>
      let ended := (Guard.guard (refOf a.action) a.outcome).run exec s.file
      (some ended.1,
        ⟨ended.2, if s.file.dispatched.length < ended.2.dispatched.length then s.store.call a else s.store⟩)
  | .reconcile action readable =>
      let ended := (Guard.reconcile (refOf action) (s.store.readIndependent action readable)).run exec s.file
      (some ended.1, { s with file := ended.2 })
  | .restart => (none, s)

end

section
variable {ε : Type} {refOf : String → String} {d : Durable ε} {m : InMemory ε}

theorem lookup_filter_ne {records : Records ε} {ref key : String} (other : key ≠ ref) :
    (records.filter fun entry => entry.1 ≠ ref).lookup key = records.lookup key := by
  induction records with
  | nil => rfl
  | cons entry rest ih =>
      rw [List.filter_cons, List.lookup_cons]
      by_cases own : entry.1 = ref
      · have apart : (key == entry.1) = false := beq_eq_false_iff_ne.mpr fun named => other (named.trans own)
        rw [if_neg (by simpa using own), ih, apart]
      · rw [if_pos (by simpa using own), List.lookup_cons, ih]

theorem lookup_set (records : Records ε) (ref key : String) (status : TrailStatus) (effectId : Option ε) :
    (records.set ref status effectId).lookup key =
      if ref = key then some (status, effectId) else records.lookup key := by
  rw [Records.set, List.lookup_cons]
  by_cases same : ref = key
  · rw [if_pos same, beq_iff_eq.mpr same.symm]
  · rw [if_neg same, beq_eq_false_iff_ne.mpr (Ne.symm same)]
    exact lookup_filter_ne (Ne.symm same)

/-- The dict and the file have the same records, and the stores are one. -/
structure Mirrors (d : Durable ε) (m : InMemory ε) : Prop where
  records : ∀ key, m.records.lookup key = (d.file.records.find? key).map fun row => (row.trailStatus, row.effectId)
  store : d.store = m.store

/-- What a dispatched call answers, and the record it leaves. -/
def answered : Outcome ε → Result ε
  | .raised _ => .raised
  | .returned effectId => .guarded effectId .committed

def statusOf : Outcome ε → TrailStatus
  | .raised _ => .pending
  | .returned _ => .committed

def idOf : Outcome ε → Option ε
  | .raised _ => none
  | .returned effectId => effectId

/-- A call of `guard` where the record is absent dispatches and leaves the record. -/
theorem run_guard_none {w : World ε} {ref : String} (absent : w.records.find? ref = none) (outcome : Outcome ε) :
    ∃ records, (Guard.guard ref outcome).run exec w =
        (answered outcome, ⟨records, w.dispatched ++ [(ref, outcome.produced)]⟩) ∧
      ∀ key, records.find? key =
        if ref = key then some ⟨ref, statusOf outcome, idOf outcome⟩ else w.records.find? key := by
  have free : (w.records.insert? (⟨ref, .pending, none⟩ : GuardRecord ε)).isSome := Table.insert?_isSome_iff.mpr absent
  obtain ⟨inserted, fits⟩ := Option.isSome_iff_exists.mp free
  have read : ∀ key, inserted.find? key = if ref = key then some ⟨ref, .pending, none⟩ else w.records.find? key :=
    Table.find?_insert fits
  cases outcome with
  | raised produced =>
      refine ⟨inserted, ?_, read⟩
      simp [Guard.guard, Program.run, exec, absent, fits, answered]
  | returned effectId =>
      refine ⟨upsert inserted ref effectId, ?_, fun key => ?_⟩
      · simp [Guard.guard, Program.run, exec, absent, fits, answered]
      · rw [find?_upsert, read]
        by_cases same : ref = key
        · rw [if_pos same, if_pos same, statusOf, idOf]
        · rw [if_neg same, if_neg same, if_neg same]

theorem run_guard_some {w : World ε} {ref : String} {row : GuardRecord ε} (found : w.records.find? ref = some row)
    (outcome : Outcome ε) : (Guard.guard ref outcome).run exec w = (answer row, w) := by
  simp [Guard.guard, Program.run, exec, found]

theorem inMemory_absent {a : Attempt ε} (absent : m.records.lookup (refOf a.action) = none) :
    inMemory refOf m (.attempt a) =
        (some (answered a.outcome), ⟨(inMemory refOf m (.attempt a)).2.records, m.store.call a⟩) ∧
      ∀ key, (inMemory refOf m (.attempt a)).2.records.lookup key =
        if refOf a.action = key then some (statusOf a.outcome, idOf a.outcome) else m.records.lookup key := by
  rw [inMemory, absent]
  dsimp only
  cases a.outcome with
  | raised produced => exact ⟨rfl, fun key => lookup_set _ _ _ _ _⟩
  | returned effectId =>
      refine ⟨rfl, fun key => ?_⟩
      dsimp only
      rw [lookup_set, lookup_set]
      by_cases same : refOf a.action = key
      · rw [if_pos same, if_pos same, statusOf, idOf]
      · rw [if_neg same, if_neg same, if_neg same]

/-- An attempt is answered alike by the two guards. -/
theorem Mirrors.attempt (mirrors : Mirrors d m) (a : Attempt ε) :
    (durable refOf d (.attempt a)).1 = (inMemory refOf m (.attempt a)).1 ∧
      Mirrors (durable refOf d (.attempt a)).2 (inMemory refOf m (.attempt a)).2 := by
  have read := mirrors.records (refOf a.action)
  cases found : d.file.records.find? (refOf a.action) with
  | none =>
      rw [found, Option.map_none] at read
      obtain ⟨records, ended, later⟩ := run_guard_none found a.outcome
      obtain ⟨same, later'⟩ := inMemory_absent read
      rw [durable, ended, same]
      refine ⟨rfl, fun key => ?_, ?_⟩
      · rw [later', later, mirrors.records]
        split <;> rfl
      · dsimp only
        rw [if_pos (by simp), mirrors.store]
  | some row =>
      rw [found, Option.map_some] at read
      have kept : (if d.file.dispatched.length < d.file.dispatched.length then d.store.call a else d.store) = d.store :=
        if_neg (lt_irrefl _)
      rw [durable, run_guard_some found, inMemory, read, kept]
      cases status : row.trailStatus with
      | committed => exact ⟨by rw [answer, status], mirrors⟩
      | pending => exact ⟨by rw [answer, status], mirrors⟩

theorem Mirrors.reconcile (mirrors : Mirrors d m) (action : String) (readable : Bool) :
    (durable refOf d (.reconcile action readable)).1 = (inMemory refOf m (.reconcile action readable)).1 ∧
      Mirrors (durable refOf d (.reconcile action readable)).2 (inMemory refOf m (.reconcile action readable)).2 := by
  have read := mirrors.records (refOf action)
  rw [durable, inMemory, Guard.reconcile, ← mirrors.store]
  cases found : d.file.records.find? (refOf action) with
  | none =>
      rw [found, Option.map_none] at read
      rw [read]
      simp only [Program.run, exec, found]
      exact ⟨trivial, mirrors⟩
  | some row =>
      rw [found, Option.map_some] at read
      rw [read]
      simp only [Program.run, exec, found]
      cases status : row.trailStatus with
      | committed => exact ⟨rfl, mirrors⟩
      | pending =>
          dsimp only
          generalize d.store.readIndependent action readable = observed
          simp only [Program.run, exec]
          split
          · exact ⟨rfl, mirrors⟩
          · cases observed.effectIds with
            | nil => exact ⟨rfl, mirrors⟩
            | cons effectId rest =>
                refine ⟨rfl, fun key => ?_, rfl⟩
                simp only [Program.run, exec]
                rw [lookup_set, find?_upsert, mirrors.records]
                split <;> rfl

theorem Mirrors.step (mirrors : Mirrors d m) {e : Event ε} (stays : e.isRestart = false) :
    (durable refOf d e).1 = (inMemory refOf m e).1 ∧ Mirrors (durable refOf d e).2 (inMemory refOf m e).2 := by
  cases e with
  | attempt a => exact mirrors.attempt a
  | reconcile action readable => exact mirrors.reconcile action readable
  | restart => cases stays

/-- The file and the dict before the first call. -/
def Durable.fresh : Durable ε := ⟨⟨.empty, []⟩, .empty⟩

def InMemory.fresh : InMemory ε := ⟨[], .empty⟩

theorem mirrors_fresh : Mirrors (Durable.fresh : Durable ε) .fresh := ⟨fun _ => rfl, rfl⟩

/-- The states after the events. -/
def Durable.after (refOf : String → String) : Durable ε → List (Event ε) → Durable ε :=
  run fun s e => (durable refOf s e).2

def InMemory.after (refOf : String → String) : InMemory ε → List (Event ε) → InMemory ε :=
  run fun s e => (inMemory refOf s e).2

/-- The durable guard across restarts is the guard in memory of a process that never dies: the calls
are answered alike, and the effects are the same. -/
def SurvivesRestarts (refOf : String → String) (events : List (Event ε)) : Prop :=
  (answers (durable refOf) .fresh events).filter (fun entry => !entry.1.isRestart) =
      answers (inMemory refOf) .fresh (events.filter fun e => !e.isRestart) ∧
    (Durable.after refOf .fresh events).store =
      (InMemory.after refOf .fresh (events.filter fun e => !e.isRestart)).store

theorem Mirrors.run (mirrors : Mirrors d m) (events : List (Event ε)) :
    (answers (durable refOf) d events).filter (fun entry => !entry.1.isRestart) =
        answers (inMemory refOf) m (events.filter fun e => !e.isRestart) ∧
      Mirrors (Durable.after refOf d events) (InMemory.after refOf m (events.filter fun e => !e.isRestart)) := by
  induction events generalizing d m with
  | nil => exact ⟨rfl, mirrors⟩
  | cons e rest ih =>
      cases stays : e.isRestart with
      | true =>
          have still : (durable refOf d e).2 = d := by cases e <;> first | rfl | cases stays
          have later := ih mirrors
          rw [answers, List.filter_cons_of_neg (by simp [stays]), List.filter_cons_of_neg (by simp [stays]), still]
          rw [Durable.after, run_cons, still]
          exact later
      | false =>
          obtain ⟨same, next⟩ := mirrors.step stays
          obtain ⟨others, last⟩ := ih next
          rw [answers, List.filter_cons_of_pos (by simp [stays]), List.filter_cons_of_pos (by simp [stays]), answers,
            same, others, Durable.after, run_cons, InMemory.after, run_cons]
          exact ⟨rfl, last⟩

theorem survivesRestarts (refOf : String → String) (events : List (Event ε)) : SurvivesRestarts refOf events :=
  ⟨(mirrors_fresh.run events).1, (mirrors_fresh.run events).2.store⟩

/-- The attempt at an action of a reference, if an event is one. -/
def attemptFor? (refOf : String → String) (ref : String) : Event ε → Option (Attempt ε)
  | .attempt a => if refOf a.action = ref then some a else none
  | _ => none

/-- The first attempt at a reference has its effect. -/
def firstApplies (refOf : String → String) (ref : String) (events : List (Event ε)) : Bool :=
  (events.findSome? (attemptFor? refOf ref)).any Attempt.applies

/-- The events of each process. -/
def lifetimes (events : List (Event ε)) : List (List (Event ε)) := events.splitOnP Event.isRestart

/-- The effect rows of the actions of a reference. -/
def EffectStore.rowsFor (store : EffectStore ε) (refOf : String → String) (ref : String) : Nat :=
  store.effects.countP fun row => refOf row.logicalActionId = ref

/-- How many effects a reference has: of every attempt that reaches it without a guard, of one for
each process whose first attempt does with the guard in memory, and of the first attempt of all with
the durable guard. -/
structure EffectCounts (refOf : String → String) (events : List (Event ε)) (ref : String) : Prop where
  unguarded : (run unguarded .empty events).rowsFor refOf ref =
    (events.filterMap (attemptFor? refOf ref)).countP Attempt.applies
  inMemory : (InMemory.after refOf .fresh events).store.rowsFor refOf ref =
    (lifetimes events).countP (firstApplies refOf ref)
  durable : (Durable.after refOf .fresh events).store.rowsFor refOf ref =
    if firstApplies refOf ref events then 1 else 0

variable {ref : String}

theorem rowsFor_call (store : EffectStore ε) (a : Attempt ε) : (store.call a).rowsFor refOf ref =
    store.rowsFor refOf ref + if refOf a.action = ref ∧ a.applies = true then 1 else 0 := by
  rw [EffectStore.call]
  split
  · rename_i applies
    rw [EffectStore.applyEffect, EffectStore.rowsFor, List.countP_append, List.countP_singleton]
    simp [EffectStore.rowsFor, applies]
  · rename_i withheld
    simp [withheld]

theorem rowsFor_unguarded (store : EffectStore ε) (events : List (Event ε)) :
    (run unguarded store events).rowsFor refOf ref =
      store.rowsFor refOf ref + (events.filterMap (attemptFor? refOf ref)).countP Attempt.applies := by
  induction events generalizing store with
  | nil => rfl
  | cons e rest ih =>
      rw [run_cons, ih]
      cases e with
      | attempt a =>
          rw [unguarded, rowsFor_call]
          by_cases own : refOf a.action = ref
          · simp [attemptFor?, own, List.countP_cons]
            omega
          · simp [attemptFor?, own]
      | reconcile action readable => rfl
      | restart => rfl

/-- The guard in memory has an effect for the first attempt at a reference that it has no record of. -/
theorem rowsFor_inMemory (refOf : String → String) (ref : String) (m : InMemory ε) {e : Event ε}
    (stays : e.isRestart = false) :
    (inMemory refOf m e).2.store.rowsFor refOf ref = m.store.rowsFor refOf ref +
        (if (m.records.lookup ref).isNone ∧ (attemptFor? refOf ref e).any Attempt.applies = true then 1 else 0) ∧
      ((inMemory refOf m e).2.records.lookup ref).isNone =
        ((m.records.lookup ref).isNone && (attemptFor? refOf ref e).isNone) := by
  cases e with
  | attempt a =>
      cases found : m.records.lookup (refOf a.action) with
      | none =>
          obtain ⟨same, later⟩ := inMemory_absent found
          rw [later ref, same]
          dsimp only
          rw [rowsFor_call]
          by_cases own : refOf a.action = ref
          · subst own
            simp [attemptFor?, found]
          · simp [attemptFor?, own]
      | some entry =>
          have still : (inMemory refOf m (.attempt a)).2 = m := by
            rw [inMemory, found]
            obtain ⟨_ | _, _⟩ := entry <;> rfl
          rw [still]
          by_cases own : refOf a.action = ref
          · subst own
            simp [found]
          · simp [attemptFor?, own]
  | reconcile action readable =>
      have kept : (inMemory refOf m (.reconcile action readable)).2.store = m.store ∧
          ((inMemory refOf m (.reconcile action readable)).2.records.lookup ref).isNone =
            (m.records.lookup ref).isNone := by
        rw [inMemory]
        split
        · rename_i found
          dsimp only
          split
          · exact ⟨rfl, rfl⟩
          · split
            · exact ⟨rfl, rfl⟩
            · refine ⟨rfl, ?_⟩
              dsimp only
              rw [lookup_set]
              split
              · rename_i same
                rw [← same, found]
                rfl
              · rfl
        · exact ⟨rfl, rfl⟩
      rw [kept.1, kept.2]
      simp [attemptFor?]
  | restart => cases stays

theorem lifetimes_restart (rest : List (Event ε)) : lifetimes (.restart :: rest) = [] :: lifetimes rest := by
  rw [lifetimes, List.splitOnP_cons_eq_if_modifyHead, if_pos (by rfl), lifetimes]

theorem lifetimes_stays {e : Event ε} (stays : e.isRestart = false) (rest : List (Event ε)) :
    lifetimes (e :: rest) = (lifetimes rest).modifyHead (List.cons e) := by
  rw [lifetimes, List.splitOnP_cons_eq_if_modifyHead, if_neg (by rw [stays]; exact Bool.false_ne_true), lifetimes]

theorem rowsFor_after (refOf : String → String) (ref : String) (m : InMemory ε) (events : List (Event ε)) :
    (InMemory.after refOf m events).store.rowsFor refOf ref = m.store.rowsFor refOf ref +
      if (m.records.lookup ref).isNone then (lifetimes events).countP (firstApplies refOf ref)
      else (lifetimes events).tail.countP (firstApplies refOf ref) := by
  induction events generalizing m with
  | nil => simp [InMemory.after, lifetimes, firstApplies]
  | cons e rest ih =>
      rw [InMemory.after, run_cons]
      refine (ih _).trans ?_
      cases stays : e.isRestart with
      | true =>
          obtain rfl : e = .restart := by
            cases e with
            | restart => rfl
            | attempt | reconcile => cases stays
          rw [lifetimes_restart]
          simp [inMemory, firstApplies]
      | false =>
          obtain ⟨rows, reserved⟩ := rowsFor_inMemory refOf ref m stays
          obtain ⟨first, others, split⟩ : ∃ first others, lifetimes rest = first :: others :=
            List.exists_cons_of_ne_nil (List.splitOnP_ne_nil Event.isRestart rest)
          rw [rows, reserved, lifetimes_stays stays, split, List.modifyHead_cons, List.tail_cons, List.tail_cons,
            List.countP_cons, List.countP_cons]
          cases attempted : attemptFor? refOf ref e with
          | none =>
              have later : firstApplies refOf ref (e :: first) = firstApplies refOf ref first := by
                rw [firstApplies, List.findSome?_cons, attempted, firstApplies]
              rw [later]
              cases m.records.lookup ref <;> simp
          | some a =>
              have own : firstApplies refOf ref (e :: first) = a.applies := by
                rw [firstApplies, List.findSome?_cons, attempted]
                rfl
              rw [own]
              cases m.records.lookup ref <;> simp
              omega

theorem firstApplies_filter (events : List (Event ε)) :
    firstApplies refOf ref (events.filter fun e => !e.isRestart) = firstApplies refOf ref events := by
  rw [firstApplies, firstApplies]
  congr 1
  induction events with
  | nil => rfl
  | cons e rest ih =>
      cases e with
      | restart => exact ih
      | attempt a => simpa [Event.isRestart, List.findSome?_cons] using by split <;> first | rfl | exact ih
      | reconcile action readable => exact ih

/-- The exact number of effects behind each guard, whatever attempts, reconciliations and restarts
there are. -/
theorem effectCounts (refOf : String → String) (events : List (Event ε)) (ref : String) :
    EffectCounts refOf events ref where
  unguarded := by
    rw [rowsFor_unguarded]
    exact Nat.zero_add _
  inMemory := (rowsFor_after refOf ref .fresh events).trans (Nat.zero_add _)
  durable := by
    have once : lifetimes (events.filter fun e => !e.isRestart) = [events.filter fun e => !e.isRestart] :=
      List.splitOnP_eq_singleton fun e member => by simpa using (List.mem_filter.mp member).2
    have count := rowsFor_after refOf ref .fresh (events.filter fun e => !e.isRestart)
    rw [once, List.countP_singleton, firstApplies_filter] at count
    rw [(mirrors_fresh.run events).2.store]
    exact count.trans (Nat.zero_add _)

end

/-- A process dies after the effect, and the next one retries. -/
example : (InMemory.after id .fresh [.attempt ⟨"pay", 1, .after, 7⟩, .restart,
      .attempt ⟨"pay", 2, .never, 8⟩]).store.rowsFor id "pay" = 2 ∧
    (Durable.after id .fresh [.attempt ⟨"pay", 1, .after, 7⟩, .restart,
      .attempt ⟨"pay", 2, .never, 8⟩]).store.rowsFor id "pay" = 1 := by decide

end Argentum.Effects
