import Argentum.Core.Transition
import Mathlib.Data.List.Count
import Mathlib.Data.List.InsertIdx

/-! Programs that reach shared state through atomic operations only. A program
alone is run to its end, or cut after some of its operations. A pool runs many at
once: a step performs the next operation of one of them, so every interleaving of
the operations is a run. The operations and their meaning are arbitrary. -/
namespace Argentum

/-- A program asks for one operation at a time and goes on with the answer. -/
inductive Program (Op : Type → Type) (α : Type) : Type 1 where
  | done (value : α)
  | perform {β : Type} (op : Op β) (next : β → Program Op α)

/-- What an operation answers at a state, and the state it leaves. -/
abbrev Semantics (Op : Type → Type) (S : Type) := ∀ {β : Type}, Op β → S → β × S

namespace Program
variable {Op : Type → Type} {S α β : Type}

def bind (program : Program Op α) (next : α → Program Op β) : Program Op β :=
  match program with
  | .done value => next value
  | .perform op rest => .perform op fun answer => (rest answer).bind next

instance : Monad (Program Op) where
  pure := .done
  bind := bind

/-- The program of one operation. -/
def ask (op : Op β) : Program Op β := .perform op .done

def run (exec : Semantics Op S) : Program Op α → S → α × S
  | .done value, s => (value, s)
  | .perform op next, s => (next (exec op s).1).run exec (exec op s).2

/-- The state after the first `n` operations, where the program is cut. -/
def cut (exec : Semantics Op S) : Nat → Program Op α → S → S
  | n + 1, .perform op next, s => cut exec n (next (exec op s).1) (exec op s).2
  | _, _, s => s

section
variable {exec : Semantics Op S} {s : S}

@[simp] theorem run_pure (value : α) : (pure value : Program Op α).run exec s = (value, s) := rfl

@[simp] theorem run_done (value : α) : (done value : Program Op α).run exec s = (value, s) := rfl

@[simp] theorem run_ask (op : Op β) : (ask op).run exec s = exec op s := rfl

@[simp] theorem run_bind (program : Program Op α) (next : α → Program Op β) :
    (program >>= next).run exec s =
      (next (program.run exec s).1).run exec (program.run exec s).2 := by
  change (program.bind next).run exec s = _
  induction program generalizing s with
  | done value => rfl
  | perform op rest ih => exact ih _

end

/-- Every operation the program may perform is allowed. -/
def Uses (allowed : ∀ {β : Type}, Op β → Prop) : Program Op α → Prop
  | .done _ => True
  | .perform op next => allowed op ∧ ∀ answer, (next answer).Uses allowed

section
variable {exec : Semantics Op S} {allowed : ∀ {β : Type}, Op β → Prop} {P : S → Prop} {s : S}

theorem Uses.bind {program : Program Op α} {next : α → Program Op β} (first : program.Uses allowed)
    (later : ∀ value, (next value).Uses allowed) : (program >>= next).Uses allowed := by
  induction program with
  | done value => exact later value
  | perform op rest ih => exact ⟨first.1, fun answer => ih answer (first.2 answer)⟩

theorem Uses.mono {wider : ∀ {β : Type}, Op β → Prop} {program : Program Op α} (uses : program.Uses allowed)
    (widens : ∀ {β : Type} (op : Op β), allowed op → wider op) : program.Uses wider := by
  induction program with
  | done value => trivial
  | perform op next ih => exact ⟨widens op uses.1, fun answer => ih answer (uses.2 answer)⟩

/-- What the allowed operations keep, a program that uses no others keeps. -/
theorem Uses.run {program : Program Op α} (uses : program.Uses allowed)
    (keeps : ∀ {β : Type} (op : Op β) (s : S), allowed op → P s → P (exec op s).2) (holds : P s) :
    P (program.run exec s).2 := by
  induction program generalizing s with
  | done value => exact holds
  | perform op next ih => exact ih _ (uses.2 _) (keeps op s uses.1 holds)

/-- And so does the part of it before a cut. -/
theorem Uses.cut {program : Program Op α} (uses : program.Uses allowed)
    (keeps : ∀ {β : Type} (op : Op β) (s : S), allowed op → P s → P (exec op s).2) (holds : P s) (n : Nat) :
    P (program.cut exec n s) := by
  induction n generalizing program s with
  | zero => cases program <;> exact holds
  | succ n ih =>
      cases program with
      | done value => exact holds
      | perform op next => exact ih (uses.2 _) (keeps op s uses.1 holds)

end
/-- What is left of a program after some of its operations were answered. -/
inductive Residual (program : Program Op α) : Program Op α → Prop
  | start : Residual program program
  | answer {β : Type} {op : Op β} {next : β → Program Op α} (value : β) :
      Residual program (.perform op next) → Residual program (next value)

/-- What is left of a program uses no other operations. -/
theorem Residual.uses {allowed : ∀ {β : Type}, Op β → Prop} {program left : Program Op α}
    (residual : program.Residual left) (uses : program.Uses allowed) : left.Uses allowed := by
  induction residual with
  | start => exact uses
  | answer value _ ih => exact ih.2 value

/-- Nothing but its end is left of a program that is done. -/
theorem residual_done_iff {value : α} {left : Program Op α} :
    (done value).Residual left ↔ left = done value := by
  constructor
  · intro residual
    induction residual with
    | start => rfl
    | answer _ _ ih => cases ih
  · rintro rfl
    exact .start

theorem residual_perform_iff {β : Type} {op : Op β} {next : β → Program Op α} {left : Program Op α} :
    (perform op next).Residual left ↔ left = perform op next ∨ ∃ value, (next value).Residual left := by
  constructor
  · intro residual
    induction residual with
    | start => exact Or.inl rfl
    | answer value _ ih =>
        rcases ih with same | ⟨first, later⟩
        · cases same
          exact Or.inr ⟨value, .start⟩
        · exact Or.inr ⟨first, .answer value later⟩
  · rintro (rfl | ⟨value, residual⟩)
    · exact .start
    · induction residual with
      | start => exact .answer value .start
      | answer later _ ih => exact .answer later ih

/-- Each operation the program comes to is safe there, if what others did since the last
one stays within what it relies on them for. -/
def SafeAmong (exec : Semantics Op S) (relies : S → S → Prop) (safe : ∀ {β : Type}, S → Op β → Prop) :
    Program Op α → S → Prop
  | .done _, _ => True
  | .perform op next, s => ∀ t, relies s t →
      safe t op ∧ (next (exec op t).1).SafeAmong exec relies safe (exec op t).2

/-- The operation the program performs next is allowed. -/
def First (allowed : ∀ {β : Type}, Op β → Prop) : Program Op α → Prop
  | .done _ => True
  | .perform op _ => allowed op

instance decidableFirst {allowed : ∀ {β : Type}, Op β → Prop}
    [∀ {β : Type} (op : Op β), Decidable (allowed op)] : ∀ program : Program Op α, Decidable (program.First allowed)
  | .done _ => isTrue trivial
  | .perform op _ => inferInstanceAs (Decidable (allowed op))

theorem SafeAmong.mono {exec : Semantics Op S} {relies : S → S → Prop} {safe : ∀ {β : Type}, S → Op β → Prop}
    {program : Program Op α} {s t : S} (transitive : ∀ {a b c}, relies a b → relies b c → relies a c)
    (safely : program.SafeAmong exec relies safe s) (within : relies s t) : program.SafeAmong exec relies safe t := by
  cases program with
  | done value => trivial
  | perform op next => exact fun later more => safely later (transitive within more)

end Program

/-- How a count changes where one member is replaced. -/
theorem countP_set_add {α : Type*} {p : α → Bool} {items : List α} {index : Nat} {old : α} (new : α)
    (found : items[index]? = some old) :
    (items.set index new).countP p + (if p old then 1 else 0) = items.countP p + if p new then 1 else 0 := by
  obtain ⟨inside, rfl⟩ := List.getElem?_eq_some_iff.mp found
  have present : (if p items[index] then 1 else 0) ≤ items.countP p := by
    split
    · rename_i counted
      exact List.countP_pos_iff.mpr ⟨_, List.getElem_mem inside, counted⟩
    · exact Nat.zero_le _
  rw [List.countP_set inside]
  omega

/-- How a count changes where one member is taken out. -/
theorem countP_eraseIdx_add {α : Type*} {p : α → Bool} {items : List α} {index : Nat} {old : α}
    (found : items[index]? = some old) :
    (items.eraseIdx index).countP p + (if p old then 1 else 0) = items.countP p := by
  induction items generalizing index with
  | nil => cases found
  | cons first rest ih =>
      cases index with
      | zero =>
          obtain rfl := Option.some.inj found
          rw [List.eraseIdx_cons_zero, List.countP_cons]
      | succ index =>
          rw [List.eraseIdx_cons_succ, List.countP_cons, List.countP_cons, ← ih found]
          omega

/-- A call in progress: what was called, and what of it is left to do. -/
structure Process (C : Type) (Op : Type → Type) (α : Type) where
  call : C
  program : Program Op α

structure Pool (C : Type) (Op : Type → Type) (α S : Type) where
  state : S
  processes : List (Process C Op α)

/-- A call arrives, performs its next operation, or dies where it stands. -/
inductive Move (C : Type) where
  | start (call : C)
  | advance (index : Nat)
  | crash (index : Nat)

namespace Pool
variable {C : Type} {Op : Type → Type} {α S : Type}

/-- The process whose next operation a move performs. -/
def moving (pool : Pool C Op α S) : Move C → Option (Process C Op α)
  | .advance index => pool.processes[index]?
  | _ => none

def step (exec : Semantics Op S) (code : C → Program Op α) (pool : Pool C Op α S) :
    Move C → Pool C Op α S
  | .start call => { pool with processes := pool.processes ++ [⟨call, code call⟩] }
  | .advance index =>
      match pool.processes[index]? with
      | some ⟨call, .perform op next⟩ =>
          { state := (exec op pool.state).2
            processes := pool.processes.set index ⟨call, next (exec op pool.state).1⟩ }
      | _ => pool
  | .crash index => { pool with processes := pool.processes.eraseIdx index }

/-- The result of the call whose last operation a move performs. -/
def returned (exec : Semantics Op S) (pool : Pool C Op α S) (move : Move C) : Option α :=
  match pool.moving move with
  | some ⟨_, .perform op next⟩ =>
      match next (exec op pool.state).1 with
      | .done value => some value
      | _ => none
  | _ => none

/-- Every process is on its way through the code of its call. -/
def Runs (code : C → Program Op α) (pool : Pool C Op α S) : Prop :=
  ∀ process ∈ pool.processes, (code process.call).Residual process.program

variable {exec : Semantics Op S} {code : C → Program Op α} {pool : Pool C Op α S}

/-- An advance performs the next operation of a process, or there is none. -/
theorem step_advance (pool : Pool C Op α S) (exec : Semantics Op S) (code : C → Program Op α) (index : Nat) :
    (∃ (call : C) (β : Type) (op : Op β) (next : β → Program Op α),
      pool.processes[index]? = some ⟨call, .perform op next⟩ ∧
      pool.step exec code (.advance index) =
        { state := (exec op pool.state).2
          processes := pool.processes.set index ⟨call, next (exec op pool.state).1⟩ }) ∨
      ((∀ process, pool.processes[index]? = some process → ∃ value, process.program = .done value) ∧
        pool.step exec code (.advance index) = pool) := by
  cases found : pool.processes[index]? with
  | none => exact Or.inr ⟨by simp, by simp [step, found]⟩
  | some process =>
      obtain ⟨call, program⟩ := process
      cases program with
      | done value => exact Or.inr ⟨by simp, by simp [step, found]⟩
      | perform op next => exact Or.inl ⟨call, _, op, next, rfl, by simp [step, found]⟩

theorem Runs.step (runs : pool.Runs code) (move : Move C) : (pool.step exec code move).Runs code := by
  cases move with
  | start call =>
      intro process member
      rcases List.mem_append.mp member with earlier | last
      · exact runs process earlier
      · rw [List.mem_singleton.mp last]
        exact .start
  | advance index =>
      rcases pool.step_advance exec code index with
        ⟨call, β, op, next, found, stepped⟩ | ⟨_, still⟩
      · rw [stepped]
        intro process member
        rcases List.mem_or_eq_of_mem_set member with earlier | rfl
        · exact runs process earlier
        · exact .answer _ (runs _ (List.mem_of_getElem? found))
      · rwa [still]
  | crash index =>
      intro process member
      exact runs process (List.mem_of_mem_eraseIdx member)

/-- What a process of the pool performs at a move is allowed at the state it finds. -/
def Performs (allowed : ∀ {β : Type}, S → Op β → Prop) (pool : Pool C Op α S) (move : Move C) : Prop :=
  ∀ process ∈ pool.moving move, process.program.First fun op => allowed pool.state op

instance {allowed : ∀ {β : Type}, S → Op β → Prop} [∀ {β : Type} s (op : Op β), Decidable (allowed s op)]
    (pool : Pool C Op α S) (move : Move C) : Decidable (Performs allowed pool move) :=
  inferInstanceAs (Decidable (∀ process ∈ pool.moving move, process.program.First fun op => allowed pool.state op))

section
variable {relies : S → S → Prop} {safe allowed : ∀ {β : Type}, S → Op β → Prop} {P : S → Prop}

/-- A move keeps an invariant of the safe and allowed operations, and every process safe
among the others, where safe operations do no more than the others rely on. -/
theorem safe_step (reflexive : ∀ s, relies s s) (transitive : ∀ {a b c}, relies a b → relies b c → relies a c)
    (codes : ∀ call s, (code call).SafeAmong exec relies safe s)
    (guarantees : ∀ {β : Type} s (op : Op β), safe s op → relies s (exec op s).2)
    (keeps : ∀ {β : Type} s (op : Op β), P s → safe s op → allowed s op → P (exec op s).2)
    (holds : P pool.state ∧ ∀ process ∈ pool.processes, process.program.SafeAmong exec relies safe pool.state)
    {move : Move C} (performs : Performs allowed pool move) :
    P (pool.step exec code move).state ∧ ∀ process ∈ (pool.step exec code move).processes,
      process.program.SafeAmong exec relies safe (pool.step exec code move).state := by
  obtain ⟨state, each⟩ := holds
  cases move with
  | start call =>
      refine ⟨state, fun process member => ?_⟩
      rcases List.mem_append.mp member with earlier | last
      · exact each process earlier
      · rw [List.mem_singleton.mp last]
        exact codes call pool.state
  | advance index =>
      rcases pool.step_advance exec code index with ⟨call, β, op, next, found, stepped⟩ | ⟨_, still⟩
      · have own := each _ (List.mem_of_getElem? found)
        obtain ⟨safely, rest⟩ := own pool.state (reflexive _)
        have may : allowed pool.state op := performs ⟨call, .perform op next⟩ found
        rw [stepped]
        refine ⟨keeps _ op state safely may, fun process member => ?_⟩
        rcases List.mem_or_eq_of_mem_set member with earlier | rfl
        · exact (each process earlier).mono transitive (guarantees _ op safely)
        · exact rest
      · rw [still]
        exact ⟨state, each⟩
  | crash index => exact ⟨state, fun process member => each process (List.mem_of_mem_eraseIdx member)⟩

/-- The run rule of a pool: what the safe operations keep where each is allowed holds in
every state that calls reach in any interleaving. -/
theorem safe_run (reflexive : ∀ s, relies s s) (transitive : ∀ {a b c}, relies a b → relies b c → relies a c)
    (codes : ∀ call s, (code call).SafeAmong exec relies safe s)
    (guarantees : ∀ {β : Type} s (op : Op β), safe s op → relies s (exec op s).2)
    (keeps : ∀ {β : Type} s (op : Op β), P s → safe s op → allowed s op → P (exec op s).2)
    {start : S} {moves : List (Move C)} (initial : P start)
    (admitted : Transition.Admits (step exec code) (Performs (α := α) allowed) ⟨start, []⟩ moves) :
    P (Transition.run (step exec code) ⟨start, ([] : List (Process C Op α))⟩ moves).state :=
  (admitted.invariant (fun _ _ holds performs =>
      safe_step reflexive transitive codes guarantees keeps holds performs)
    ⟨initial, fun _ member => absurd member List.not_mem_nil⟩).1

/-- What the operations that the calls of a run use keep holds in every state the calls reach,
in any interleaving. -/
theorem uses_run {used : ∀ {β : Type}, Op β → Prop} {start : S} {moves : List (Move C)}
    (codes : ∀ call, .start call ∈ moves → (code call).Uses used)
    (keeps : ∀ {β : Type} (op : Op β) s, used op → P s → P (exec op s).2) (initial : P start) :
    P (Transition.run (step exec code) ⟨start, ([] : List (Process C Op α))⟩ moves).state := by
  let Inv (pool : Pool C Op α S) : Prop := P pool.state ∧ ∀ process ∈ pool.processes, process.program.Uses used
  suffices holds : Inv (Transition.run (step exec code) ⟨start, []⟩ moves) from holds.1
  have admitted : Transition.Admits (step exec code)
      (fun (_ : Pool C Op α S) move => ∀ call, move = .start call → (code call).Uses used) ⟨start, []⟩ moves :=
    Transition.admits_of_mem fun move member _ call same => codes call (same ▸ member)
  refine admitted.invariant ?_ ⟨initial, fun _ member => absurd member List.not_mem_nil⟩
  rintro pool move ⟨state, each⟩ starts
  cases move with
  | start call =>
      refine ⟨state, fun process member => ?_⟩
      rcases List.mem_append.mp member with earlier | last
      · exact each process earlier
      · rw [List.mem_singleton.mp last]
        exact starts call rfl
  | advance index =>
      rcases pool.step_advance exec code index with ⟨call, β, op, next, found, stepped⟩ | ⟨_, still⟩
      · have uses := each _ (List.mem_of_getElem? found)
        rw [stepped]
        refine ⟨keeps op pool.state uses.1 state, fun process member => ?_⟩
        rcases List.mem_or_eq_of_mem_set member with earlier | rfl
        · exact each process earlier
        · exact uses.2 _
      · rw [still]
        exact ⟨state, each⟩
  | crash index => exact ⟨state, fun process member => each process (List.mem_of_mem_eraseIdx member)⟩

end

end Pool

namespace Program
variable {Op : Type → Type} {S N α β : Type}

/-- As `SafeAmong`, where the program carries a note that its own operations see and write,
and ends in a value that fits the note and what it finds then. -/
def SafeNoted (exec : N → Semantics Op S) (note : ∀ {β : Type}, N → Op β → S → N) (relies : S → S → Prop)
    (safe : ∀ {β : Type}, S → N → Op β → Prop) (ends : α → N → S → Prop) : Program Op α → N → S → Prop
  | .done value, n, s => ∀ t, relies s t → ends value n t
  | .perform op next, n, s => ∀ t, relies s t → safe t n op ∧
      (next (exec n op t).1).SafeNoted exec note relies safe ends (note n op t) (exec n op t).2

section
variable {exec : N → Semantics Op S} {note : ∀ {β : Type}, N → Op β → S → N} {relies : S → S → Prop}
  {safe : ∀ {β : Type}, S → N → Op β → Prop} {ends : α → N → S → Prop} {program : Program Op α} {n : N} {s t : S}

theorem SafeNoted.mono (transitive : ∀ {a b c}, relies a b → relies b c → relies a c)
    (safely : program.SafeNoted exec note relies safe ends n s) (within : relies s t) :
    program.SafeNoted exec note relies safe ends n t := by
  cases program with
  | done value => exact fun later more => safely later (transitive within more)
  | perform op next => exact fun later more => safely later (transitive within more)

theorem SafeNoted.imp {wider : α → N → S → Prop} (safely : program.SafeNoted exec note relies safe ends n s)
    (implies : ∀ value n s, ends value n s → wider value n s) :
    program.SafeNoted exec note relies safe wider n s := by
  induction program generalizing n s with
  | done value => exact fun t within => implies value n t (safely t within)
  | perform op next ih =>
      intro t within
      obtain ⟨first, later⟩ := safely t within
      exact ⟨first, ih _ later⟩

/-- The rule of sequence: what follows is safe with whatever the first part ends in. -/
theorem SafeNoted.bind {after : β → N → S → Prop} {next : α → Program Op β} (reflexive : ∀ s, relies s s)
    (first : program.SafeNoted exec note relies safe
      (fun value n s => (next value).SafeNoted exec note relies safe after n s) n s) :
    (program >>= next).SafeNoted exec note relies safe after n s := by
  induction program generalizing n s with
  | done value => exact first s (reflexive s)
  | perform op rest ih =>
      intro t within
      obtain ⟨safely, later⟩ := first t within
      exact ⟨safely, ih _ later⟩

end
end Program

/-- A pool whose processes each carry a note. No operation answers by the notes: they, and
what the state holds besides, are there to say what a run did. -/
structure Noted (C : Type) (Op : Type → Type) (α S N : Type) where
  state : S
  processes : List (Process C Op α × N)

namespace Noted
variable {C : Type} {Op : Type → Type} {α S T N : Type}

def step (exec : N → Semantics Op S) (note : ∀ {β : Type}, N → Op β → S → N) (fresh : C → N)
    (code : C → Program Op α) (pool : Noted C Op α S N) : Move C → Noted C Op α S N
  | .start call => { pool with processes := pool.processes ++ [(⟨call, code call⟩, fresh call)] }
  | .advance index =>
      match pool.processes[index]? with
      | some (⟨call, .perform op next⟩, n) =>
          { state := (exec n op pool.state).2
            processes := pool.processes.set index (⟨call, next (exec n op pool.state).1⟩, note n op pool.state) }
      | _ => pool
  | .crash index => { pool with processes := pool.processes.eraseIdx index }

/-- What the next operation of the process that moves is, and its note, are allowed. -/
def Performs (allowed : ∀ {β : Type}, S → N → Op β → Prop) (pool : Noted C Op α S N) : Move C → Prop
  | .advance index => ∀ moved ∈ pool.processes[index]?, moved.1.program.First fun op => allowed pool.state moved.2 op
  | _ => True

instance {allowed : ∀ {β : Type}, S → N → Op β → Prop} [∀ {β : Type} s n (op : Op β), Decidable (allowed s n op)]
    (pool : Noted C Op α S N) : ∀ move, Decidable (Performs allowed pool move)
  | .start _ => isTrue trivial
  | .advance index => inferInstanceAs (Decidable (∀ moved ∈ pool.processes[index]?,
      moved.1.program.First fun op => allowed pool.state moved.2 op))
  | .crash _ => isTrue trivial

theorem Performs.both {first second : ∀ {β : Type}, S → N → Op β → Prop} {pool : Noted C Op α S N} {move : Move C}
    (one : Performs first pool move) (other : Performs second pool move) :
    Performs (fun s n op => first s n op ∧ second s n op) pool move := by
  cases move with
  | start | crash => trivial
  | advance index =>
      intro moved found
      have both := And.intro (one moved found) (other moved found)
      obtain ⟨⟨call, program⟩, n⟩ := moved
      cases program with
      | done value => trivial
      | perform op next => exact both

/-- The pool without the notes. -/
def forget (seen : S → T) (pool : Noted C Op α S N) : Pool C Op α T :=
  ⟨seen pool.state, pool.processes.map Prod.fst⟩

variable {exec : N → Semantics Op S} {note : ∀ {β : Type}, N → Op β → S → N} {fresh : C → N}
  {code : C → Program Op α} {pool : Noted C Op α S N}

/-- The notes change nothing of what is done. -/
theorem forget_step {bare : Semantics Op T} {seen : S → T}
    (agrees : ∀ {β : Type} n (op : Op β) s, (bare op (seen s)) = ((exec n op s).1, seen (exec n op s).2))
    (pool : Noted C Op α S N) (move : Move C) :
    (pool.step exec note fresh code move).forget seen = (pool.forget seen).step bare code move := by
  cases move with
  | start call => simp [step, forget, Pool.step]
  | crash index => simp [step, forget, Pool.step, List.eraseIdx_map]
  | advance index =>
      cases found : pool.processes[index]? with
      | none => simp [step, forget, Pool.step, found]
      | some moved =>
          obtain ⟨⟨call, program⟩, n⟩ := moved
          cases program with
          | done value => simp [step, forget, Pool.step, found]
          | perform op next =>
              have same := agrees n op pool.state
              simp [step, forget, Pool.step, found, same, List.map_set]

theorem step_advance (pool : Noted C Op α S N) (exec : N → Semantics Op S) (note : ∀ {β : Type}, N → Op β → S → N)
    (fresh : C → N) (code : C → Program Op α) (index : Nat) :
    (∃ (call : C) (β : Type) (op : Op β) (next : β → Program Op α) (n : N),
      pool.processes[index]? = some (⟨call, .perform op next⟩, n) ∧
      pool.step exec note fresh code (.advance index) =
        { state := (exec n op pool.state).2
          processes := pool.processes.set index (⟨call, next (exec n op pool.state).1⟩, note n op pool.state) }) ∨
      pool.step exec note fresh code (.advance index) = pool := by
  cases found : pool.processes[index]? with
  | none => exact Or.inr (by simp [step, found])
  | some moved =>
      obtain ⟨⟨call, program⟩, n⟩ := moved
      cases program with
      | done value => exact Or.inr (by simp [step, found])
      | perform op next => exact Or.inl ⟨call, _, op, next, n, rfl, by simp [step, found]⟩

section
variable {relies : S → S → Prop} {safe allowed : ∀ {β : Type}, S → N → Op β → Prop} {P : S → Prop}

/-- A move keeps an invariant of the safe and allowed operations, and every process safe
among the others with its note. -/
theorem safe_step (reflexive : ∀ s, relies s s) (transitive : ∀ {a b c}, relies a b → relies b c → relies a c)
    (guarantees : ∀ {β : Type} s n (op : Op β), safe s n op → relies s (exec n op s).2)
    (keeps : ∀ {β : Type} s n (op : Op β), P s → safe s n op → allowed s n op → P (exec n op s).2)
    (holds : P pool.state ∧ ∀ process ∈ pool.processes,
      process.1.program.SafeNoted exec note relies safe (fun _ _ _ => True) process.2 pool.state)
    {move : Move C} (starts : ∀ call, move = .start call → ∀ s,
      (code call).SafeNoted exec note relies safe (fun _ _ _ => True) (fresh call) s)
    (performs : Performs allowed pool move) :
    let after := pool.step exec note fresh code move
    P after.state ∧ ∀ process ∈ after.processes,
      process.1.program.SafeNoted exec note relies safe (fun _ _ _ => True) process.2 after.state := by
  obtain ⟨state, each⟩ := holds
  cases move with
  | start call =>
      refine ⟨state, fun process member => ?_⟩
      rcases List.mem_append.mp member with earlier | last
      · exact each process earlier
      · rw [List.mem_singleton.mp last]
        exact starts call rfl pool.state
  | advance index =>
      rcases pool.step_advance exec note fresh code index with ⟨call, β, op, next, n, found, stepped⟩ | still
      · obtain ⟨safely, rest⟩ := each _ (List.mem_of_getElem? found) pool.state (reflexive _)
        have may : allowed pool.state n op := performs (⟨call, .perform op next⟩, n) found
        rw [stepped]
        refine ⟨keeps _ n op state safely may, fun process member => ?_⟩
        rcases List.mem_or_eq_of_mem_set member with earlier | rfl
        · exact (each process earlier).mono transitive (guarantees _ n op safely)
        · exact rest
      · rw [still]
        exact ⟨state, each⟩
  | crash index => exact ⟨state, fun process member => each process (List.mem_of_mem_eraseIdx member)⟩

/-- The run rule of a pool with notes. -/
theorem safe_run (reflexive : ∀ s, relies s s) (transitive : ∀ {a b c}, relies a b → relies b c → relies a c)
    (guarantees : ∀ {β : Type} s n (op : Op β), safe s n op → relies s (exec n op s).2)
    (keeps : ∀ {β : Type} s n (op : Op β), P s → safe s n op → allowed s n op → P (exec n op s).2)
    {start : S} {moves : List (Move C)}
    (codes : ∀ call, .start call ∈ moves → ∀ s,
      (code call).SafeNoted exec note relies safe (fun _ _ _ => True) (fresh call) s)
    (admitted : Transition.Admits (step exec note fresh code) (Performs (α := α) allowed) ⟨start, []⟩ moves)
    (initial : P start) :
    P (Transition.run (step exec note fresh code) ⟨start, ([] : List (Process C Op α × N))⟩ moves).state := by
  let Inv (pool : Noted C Op α S N) : Prop := P pool.state ∧ ∀ process ∈ pool.processes,
    process.1.program.SafeNoted exec note relies safe (fun _ _ _ => True) process.2 pool.state
  suffices holds : Inv (Transition.run (step exec note fresh code) ⟨start, []⟩ moves) from holds.1
  have begun : Inv ⟨start, []⟩ := ⟨initial, fun _ member => absurd member List.not_mem_nil⟩
  generalize (⟨start, []⟩ : Noted C Op α S N) = pool at admitted begun ⊢
  induction moves generalizing pool with
  | nil => exact begun
  | cons move rest ih =>
      refine ih (fun call later => codes call (List.mem_cons_of_mem _ later)) _ admitted.2 ?_
      exact safe_step reflexive transitive guarantees keeps begun
        (fun call same => codes call (same ▸ List.mem_cons_self)) admitted.1

end

end Noted
end Argentum
