import Mathlib.Data.List.Basic
import Mathlib.Data.List.Infix
import Mathlib.Tactic.Abel

/-! Runs of a deterministic labelled machine. A guard admits or excludes each
step at the state it starts from; an invariant kept by the admitted steps holds
in every state such a run reaches. The machine, its labels and the guard are
arbitrary. -/
namespace Argentum.Transition
variable {S L : Type*}

/-- The state reached by taking the labelled steps, oldest first. -/
def run (step : S → L → S) (start : S) (labels : List L) : S := labels.foldl step start

/-- Every step of the run is admitted at the state it is taken from. -/
def Admits (step : S → L → S) (guard : S → L → Prop) : S → List L → Prop
  | _, [] => True
  | state, label :: rest => guard state label ∧ Admits step guard (step state label) rest

instance decidableAdmits {step : S → L → S} {guard : S → L → Prop} [∀ state label, Decidable (guard state label)] :
    ∀ start labels, Decidable (Admits step guard start labels)
  | _, [] => isTrue trivial
  | start, label :: rest => @instDecidableAnd _ _ _ (decidableAdmits (step start label) rest)

section
variable {step : S → L → S} {guard : S → L → Prop} {start : S}

@[simp] theorem run_nil : run step start [] = start := rfl

@[simp] theorem run_cons (label : L) (rest : List L) :
    run step start (label :: rest) = run step (step start label) rest := rfl

theorem run_append (first second : List L) :
    run step start (first ++ second) = run step (run step start first) second :=
  List.foldl_append ..

@[simp] theorem run_concat (labels : List L) (last : L) :
    run step start (labels ++ [last]) = step (run step start labels) last := by
  rw [run_append, run_cons, run_nil]

theorem admits_append {first second : List L} :
    Admits step guard start (first ++ second) ↔
      Admits step guard start first ∧ Admits step guard (run step start first) second := by
  induction first generalizing start with
  | nil => simp [Admits]
  | cons label rest ih => simp only [List.cons_append, Admits, run_cons, ih, and_assoc]

theorem admits_concat {labels : List L} {last : L} :
    Admits step guard start (labels ++ [last]) ↔
      Admits step guard start labels ∧ guard (run step start labels) last := by
  simp only [admits_append, Admits, and_true]

/-- Each step of a run is taken from where the steps before it end. -/
theorem admits_iff_split {labels : List L} : Admits step guard start labels ↔
    ∀ before label after, labels = before ++ label :: after → guard (run step start before) label := by
  constructor
  · rintro admitted before label after rfl
    exact (admits_append.mp admitted).2.1
  · intro each
    induction labels generalizing start with
    | nil => trivial
    | cons label rest ih =>
        refine ⟨each [] label rest rfl, ih fun before later after split => ?_⟩
        exact each (label :: before) later after (by rw [split, List.cons_append])

/-- The run rule: what every admitted step keeps holds wherever the run ends. -/
theorem Admits.invariant {P : S → Prop} {labels : List L}
    (admitted : Admits step guard start labels)
    (preserves : ∀ state label, P state → guard state label → P (step state label))
    (initial : P start) : P (run step start labels) := by
  induction labels generalizing start with
  | nil => exact initial
  | cons label rest ih => exact ih admitted.2 (preserves _ _ initial admitted.1)

/-- Two guards that admit a run admit it together. -/
theorem Admits.both {other third : S → L → Prop} {labels : List L} (first : Admits step guard start labels)
    (second : Admits step other start labels)
    (implies : ∀ state label, guard state label → other state label → third state label) :
    Admits step third start labels := by
  induction labels generalizing start with
  | nil => trivial
  | cons label rest ih => exact ⟨implies _ _ first.1 second.1, ih first.2 second.2⟩

/-- The run rule where every step is admitted. -/
theorem run_invariant {P : S → Prop} (preserves : ∀ state label, P state → P (step state label))
    (labels : List L) (initial : P start) : P (run step start labels) := by
  induction labels generalizing start with
  | nil => exact initial
  | cons label rest ih => exact ih (preserves _ _ initial)

/-- The run rule for two states: a reflexive, transitive relation that every
admitted step from an invariant state stays in relates the ends of the run. -/
theorem Admits.relates {P : S → Prop} {R : S → S → Prop} {labels : List L}
    (admitted : Admits step guard start labels)
    (reflexive : ∀ state, R state state)
    (transitive : ∀ {first second third}, R first second → R second third → R first third)
    (preserves : ∀ state label, P state → guard state label → P (step state label))
    (stays : ∀ state label, P state → guard state label → R state (step state label))
    (initial : P start) : R start (run step start labels) := by
  induction labels generalizing start with
  | nil => exact reflexive start
  | cons label rest ih =>
      exact transitive (stays _ _ initial admitted.1)
        (ih admitted.2 (preserves _ _ initial admitted.1))

end

/-- What is seen of a machine that carries more along is the run of the machine itself. -/
theorem run_image {T : Type*} {step : S → L → S} {wider : T → L → T} (seen : T → S)
    (tracks : ∀ state label, seen (wider state label) = step (seen state) label) (start : T) (labels : List L) :
    seen (run wider start labels) = run step (seen start) labels := by
  induction labels generalizing start with
  | nil => rfl
  | cons label rest ih => rw [run_cons, run_cons, ih, tracks]

/-- A guard that reads the label alone is met by the labels it admits. -/
theorem admits_of_mem {step : S → L → S} {guard : S → L → Prop} {start : S} {labels : List L}
    (each : ∀ label ∈ labels, ∀ state, guard state label) : Admits step guard start labels := by
  induction labels generalizing start with
  | nil => trivial
  | cons label rest ih =>
      exact ⟨each label List.mem_cons_self start, ih fun l later => each l (List.mem_cons_of_mem _ later)⟩

/-- What the steps of a run amount to, each measured at the state it is taken from. -/
def total {M : Type*} [AddMonoid M] (step : S → L → S) (measure : S → L → M) : S → List L → M
  | _, [] => 0
  | state, label :: rest => measure state label + total step measure (step state label) rest

theorem total_append {M : Type*} [AddMonoid M] {step : S → L → S} {measure : S → L → M} {start : S}
    (first second : List L) : total step measure start (first ++ second) =
      total step measure start first + total step measure (run step start first) second := by
  induction first generalizing start with
  | nil => simp [total]
  | cons label rest ih => rw [List.cons_append, total, total, ih, run_cons, add_assoc]

theorem total_concat {M : Type*} [AddMonoid M] {step : S → L → S} {measure : S → L → M} {start : S}
    (labels : List L) (last : L) : total step measure start (labels ++ [last]) =
      total step measure start labels + measure (run step start labels) last := by
  rw [total_append, total, total, add_zero]

theorem total_sub {M : Type*} [AddCommGroup M] {step : S → L → S} {gain loss : S → L → M}
    (start : S) (labels : List L) :
    total step (fun state label => gain state label - loss state label) start labels =
      total step gain start labels - total step loss start labels := by
  induction labels generalizing start with
  | nil => simp [total]
  | cons label rest ih =>
      simp only [total, ih]
      abel

/-- The run rule for an invariant that mentions what the steps amount to so far. -/
theorem Admits.tally {M : Type*} [AddMonoid M] {step : S → L → S} {guard : S → L → Prop}
    {measure : S → L → M} {P : S → M → Prop} {start : S} {labels : List L}
    (admitted : Admits step guard start labels)
    (preserves : ∀ state label sum, P state sum → guard state label →
      P (step state label) (sum + measure state label))
    (initial : P start 0) : P (run step start labels) (total step measure start labels) := by
  suffices general : ∀ sum, P start sum →
      P (run step start labels) (sum + total step measure start labels) by
    simpa using general 0 initial
  clear initial
  induction labels generalizing start with
  | nil =>
      intro sum holds
      simpa [total] using holds
  | cons label rest ih =>
      intro sum holds
      rw [run_cons, total, ← add_assoc]
      exact ih admitted.2 _ (preserves _ _ _ holds admitted.1)

/-- What the steps of a run log, each at the state it is taken from. -/
def logged {O : Type*} (step : S → L → S) (log : S → L → List O) : S → List L → List O
  | _, [] => []
  | state, label :: rest => log state label ++ logged step log (step state label) rest

/-- The run rule for an invariant that mentions what was logged so far. -/
theorem Admits.records {O : Type*} {step : S → L → S} {guard : S → L → Prop} {log : S → L → List O}
    {P : S → List O → Prop} {start : S} {labels : List L} (admitted : Admits step guard start labels)
    (preserves : ∀ state label sofar, P state sofar → guard state label →
      P (step state label) (sofar ++ log state label))
    (initial : P start []) : P (run step start labels) (logged step log start labels) := by
  suffices general : ∀ sofar, P start sofar →
      P (run step start labels) (sofar ++ logged step log start labels) by
    simpa using general [] initial
  clear initial
  induction labels generalizing start with
  | nil =>
      intro sofar holds
      simpa [logged] using holds
  | cons label rest ih =>
      intro sofar holds
      rw [run_cons, logged, ← List.append_assoc]
      exact ih admitted.2 _ (preserves _ _ _ holds admitted.1)

/-- Some state on the way, the first and the last included, satisfies `P`. -/
def Passed (step : S → L → S) (start : S) (labels : List L) (P : S → Prop) : Prop :=
  ∃ before, before <+: labels ∧ P (run step start before)

theorem passed_nil {step : S → L → S} {start : S} {P : S → Prop} :
    Passed step start [] P ↔ P start := by
  simp [Passed, List.prefix_nil]

theorem passed_concat {step : S → L → S} {start : S} {labels : List L} {last : L} {P : S → Prop} :
    Passed step start (labels ++ [last]) P ↔
      Passed step start labels P ∨ P (run step start (labels ++ [last])) := by
  constructor
  · rintro ⟨before, earlier, holds⟩
    rcases List.prefix_concat_iff.mp earlier with rfl | earlier
    · exact Or.inr holds
    · exact Or.inl ⟨before, earlier, holds⟩
  · rintro (⟨before, earlier, holds⟩ | holds)
    · exact ⟨before, earlier.trans (List.prefix_append _ _), holds⟩
    · exact ⟨_, List.prefix_refl _, holds⟩

/-- What holds where a run ends, under an invariant, held where it began or was brought by one of
its steps. -/
theorem held_or_brought {step : S → L → S} {start : S} {I P : S → Prop} {Q : S → L → Prop}
    (keeps : ∀ state label, I state → I (step state label)) (initial : I start)
    (brings : ∀ state label, I state → P (step state label) → P state ∨ Q state label) (labels : List L)
    (ends : P (run step start labels)) : P start ∨
      ∃ before label after, labels = before ++ label :: after ∧ Q (run step start before) label := by
  induction labels using List.reverseRecOn with
  | nil => exact Or.inl ends
  | append_singleton labels last ih =>
      rw [run_concat] at ends
      rcases brings _ last (run_invariant keeps labels initial) ends with held | brought
      · rcases ih held with began | ⟨before, label, after, rfl, brought⟩
        · exact Or.inl began
        · exact Or.inr ⟨before, label, after ++ [last], by simp, brought⟩
      · exact Or.inr ⟨labels, last, [], rfl, brought⟩

/-- The labels in order, each with what a machine that reacts to them answers. -/
def answers {O : Type*} (react : S → L → O × S) : S → List L → List (L × O)
  | _, [] => []
  | state, label :: rest => (label, (react state label).1) :: answers react (react state label).2 rest

/-- Labels that are answered without a mark are not seen by the others: any selection of
the answered labels that has every marked one is answered as it was. -/
def Unseen {O : Type*} (react : S → L → O × S) (marked : L × O → Bool) (start : S) (labels : List L) : Prop :=
  ∀ kept, List.Sublist kept (answers react start labels) →
    kept.filter marked = (answers react start labels).filter marked →
    answers react start (kept.map Prod.fst) = kept

/-- What leaves the state alone is not seen by what follows it. -/
theorem unseen_of_idle {O : Type*} {react : S → L → O × S} {marked : L × O → Bool}
    (idle : ∀ state label, marked (label, (react state label).1) = false → (react state label).2 = state)
    (start : S) (labels : List L) : Unseen react marked start labels := by
  induction labels generalizing start with
  | nil =>
      intro kept selected _
      rw [answers, List.sublist_nil] at selected
      rw [selected, List.map_nil, answers]
  | cons label rest ih =>
      intro kept selected every
      rw [answers] at selected every
      cases selected with
      | cons _ later =>
          cases mark : marked (label, (react start label).1) with
          | true =>
              -- a marked label is not left out
              rw [List.filter_cons_of_pos mark] at every
              have shorter := (later.filter marked).length_le
              rw [every, List.length_cons] at shorter
              omega
          | false =>
              rw [List.filter_cons_of_neg (by rw [mark]; exact Bool.false_ne_true)] at every
              rw [idle start label mark] at later every
              exact ih start kept later every
      | cons_cons _ later =>
          rename_i kept
          rw [List.map_cons, answers]
          refine congrArg _ (ih _ kept later ?_)
          cases mark : marked (label, (react start label).1) with
          | true =>
              rw [List.filter_cons_of_pos mark, List.filter_cons_of_pos mark] at every
              exact List.tail_eq_of_cons_eq every
          | false =>
              have unmarked : ¬ marked (label, (react start label).1) = true := by
                rw [mark]
                exact Bool.false_ne_true
              rwa [List.filter_cons_of_neg unmarked, List.filter_cons_of_neg unmarked] at every

end Argentum.Transition
