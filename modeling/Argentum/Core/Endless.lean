import Argentum.Core.Transition

/-! Endless runs of a deterministic labelled machine. What each step keeps holds at all
times, and what is waited for has come once the step that brings it is taken. A list of
steps is made endless by what follows on it. -/
namespace Argentum.Transition
variable {S L : Type*}

/-- The states of an endless run. -/
def states (step : S → L → S) (start : S) (labels : Nat → L) : Nat → S
  | 0 => start
  | n + 1 => step (states step start labels n) (labels n)

/-- The labels of a list, and others after them. -/
def followed (labels : List L) (rest : Nat → L) (n : Nat) : L := labels[n]?.getD (rest (n - labels.length))

section
variable {step : S → L → S} {guard : S → L → Prop} {start : S} {labels : Nat → L} {P Q : S → Prop}

/-- The run rule at all times. -/
theorem states_invariant (guarded : ∀ n, guard (states step start labels n) (labels n))
    (preserves : ∀ state label, P state → guard state label → P (step state label)) (initial : P start) (n : Nat) :
    P (states step start labels n) := by
  induction n with
  | zero => exact initial
  | succ n ih => exact preserves _ _ ih (guarded n)

/-- What no step takes away holds from the time it first did. -/
theorem states_stable (keeps : ∀ n, P (states step start labels n) → P (states step start labels (n + 1)))
    {first later : Nat} (ordered : first ≤ later) (holds : P (states step start labels first)) :
    P (states step start labels later) := by
  induction later, ordered using Nat.le_induction with
  | base => exact holds
  | succ n _ ih => exact keeps n ih

/-- What is waited for, and then stays, has come once the step is taken that brings it. -/
theorem states_awaited {first helpful : Nat}
    (waits : ∀ n, P (states step start labels n) →
      P (states step start labels (n + 1)) ∨ Q (states step start labels (n + 1)))
    (stays : ∀ n, Q (states step start labels n) → Q (states step start labels (n + 1)))
    (brings : P (states step start labels helpful) → Q (states step start labels (helpful + 1)))
    (ordered : first ≤ helpful) (waiting : P (states step start labels first)) :
    Q (states step start labels (helpful + 1)) := by
  have either : P (states step start labels helpful) ∨ Q (states step start labels helpful) :=
    states_stable (P := fun state => P state ∨ Q state)
      (fun n kept => kept.elim (waits n) fun come => Or.inr (stays n come)) ordered (Or.inl waiting)
  exact either.elim brings (stays helpful)

end

section
variable {step : S → L → S} {guard : S → L → Prop} {start : S} {labels : List L} {rest : Nat → L} {P : S → Prop}
  {n : Nat}

/-- On the way through the list, the run is one of the list. -/
theorem states_followed (within : n ≤ labels.length) :
    states step start (followed labels rest) n = run step start (labels.take n) := by
  induction n with
  | zero => rfl
  | succ n ih =>
      have here : labels[n]? = some (labels.get ⟨n, within⟩) := List.getElem?_eq_getElem within
      rw [states, ih (by omega), List.take_add_one, here, Option.toList_some, run_concat, followed, here,
        Option.getD_some]

theorem states_followed_length : states step start (followed labels rest) labels.length = run step start labels := by
  rw [states_followed le_rfl, List.take_length]

theorem followed_rest (beyond : labels.length ≤ n) : followed labels rest n = rest (n - labels.length) := by
  rw [followed, List.getElem?_eq_none beyond, Option.getD_none]

/-- The list is admitted, and so is what follows on it at any state. -/
theorem guard_followed (admitted : Admits step guard start labels) (each : ∀ state k, guard state (rest k)) (n : Nat) :
    guard (states step start (followed labels rest) n) (followed labels rest n) := by
  by_cases within : n < labels.length
  · rw [states_followed within.le, followed, List.getElem?_eq_getElem within, Option.getD_some]
    refine admits_iff_split.mp admitted _ _ (labels.drop (n + 1)) ?_
    rw [← List.drop_eq_getElem_cons, List.take_append_drop]
  · rw [followed_rest (by omega)]
    exact each _ _

/-- What holds at the end of the list and is kept by what follows holds for good. -/
theorem states_rest (keeps : ∀ state k, P state → P (step state (rest k))) (ends : P (run step start labels))
    (beyond : labels.length ≤ n) : P (states step start (followed labels rest) n) := by
  induction n, beyond using Nat.le_induction with
  | base =>
      rw [states_followed_length]
      exact ends
  | succ n beyond ih =>
      rw [states, followed_rest beyond]
      exact keeps _ _ ih

end

end Argentum.Transition
