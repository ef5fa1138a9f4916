import Argentum.Core.Methods
import Argentum.Core.Transition
import Argentum.Trail.Log

/-! The v1.1 decision rule at the tool boundary, and the reference that replays it over the
presented pairs. The guard admits a reference before the effect runs, so an effect that
raises leaves an admission without an effect id. -/
namespace Argentum.LogicalIdentity
open Jcs Sha256 Text Transition Trail

inductive Decision where
  | execute | duplicate | conflict
deriving DecidableEq

abbrev Ledger := List (Str × Str)

/-- The reference decision, and the ledger after it. -/
def decide (ledger : Ledger) (ref digest : Str) (checkDigest : Bool) : Decision × Ledger :=
  match ledger.lookup ref with
  | none => (.execute, assign ledger ref digest)
  | some prior => if checkDigest = false ∨ prior = digest then (.duplicate, ledger) else (.conflict, ledger)

/-- `effects += outcome == "EXECUTE"` -/
def count (effects : Nat) (outcome : Decision) : Nat := if outcome = .execute then effects + 1 else effects

def replayFrom (checkDigest : Bool) (ledger : Ledger) (effects : Nat) :
    List (Str × Str × Str) → List (Str × Decision × Nat)
  | [] => []
  | (eid, ref, digest) :: pairs =>
      let decided := decide ledger ref digest checkDigest
      (eid, decided.1, count effects decided.1) :: replayFrom checkDigest decided.2 (count effects decided.1) pairs

def replay (pairs : List (Str × Str × Str)) (checkDigest : Bool) : List (Str × Decision × Nat) :=
  replayFrom checkDigest [] 0 pairs

inductive Mode where
  | conformant | noDigestCheck | contentKey | digestInside
deriving DecidableEq

def idempotencyKey : Str := ofString "idempotency_key"

structure LogicalIdentityGuard where
  artifactBase : List (Str × Json)
  mode : Mode

def LogicalIdentityGuard.artifact (guard : LogicalIdentityGuard) (logicalActionId admittedPayloadDigest : Str) :
    List (Str × Json) :=
  let key := if guard.mode = .contentKey then ofString "sha256:" ++ admittedPayloadDigest else logicalActionId
  let art := assign guard.artifactBase idempotencyKey (.str key)
  if guard.mode = .digestInside then assign art (ofString "admitted_payload_digest") (.str admittedPayloadDigest)
  else art

/-- How `real_effect_fn` ends: it returns an effect id, which may be `None`, or raises. -/
inductive Effect (ε : Type) where
  | returned (effectId : Option ε)
  | raised

structure Call (ε : Type) where
  logicalActionId : Str
  admittedPayload : List (Str × Json)
  effect : Effect ε

structure Admission (ε : Type) where
  digest : Str
  effectId : Option ε

/-- A run of an effect, by the call and the reference that it ran for. -/
structure Execution (ε : Type) where
  logicalActionId : Str
  idempotencyRef : Str
  effect : Effect ε

/-- `_admissions`, and the effects that have run, oldest first. -/
structure State (ε : Type) where
  admissions : List (Str × Admission ε)
  executed : List (Execution ε)

structure Report (ε : Type) where
  outcome : Decision
  idempotencyRef : Str
  admittedPayloadDigest : Str
  effectId : Option ε

inductive Answer (ε : Type) where
  /-- The payload or the artifact has no canonical bytes. -/
  | unhashed (raised : PyError)
  /-- What the effect raised. -/
  | effectRaised
  | reported (report : Report ε)

section
variable [Interpreter] {ε : Type}

/-- What the effect has for an effect id: none where it raises. -/
def Effect.effectId : Effect ε → Option ε
  | .returned effectId => effectId
  | .raised => none

/-- The `(idempotency_ref, admitted_payload_digest)` that a call presents. -/
def pair (guard : LogicalIdentityGuard) (call : Call ε) : Except PyError (Str × Str) := do
  let digest ← sha256Jcs (.dict call.admittedPayload)
  let ref ← sha256Jcs (.dict (guard.artifact call.logicalActionId digest))
  return (ref, digest)

def dispatch (guard : LogicalIdentityGuard) (s : State ε) (call : Call ε) : Answer ε × State ε :=
  match pair guard call with
  | .error raised => (.unhashed raised, s)
  | .ok (ref, digest) =>
      match s.admissions.lookup ref with
      | none =>
          let admissions := assign s.admissions ref ⟨digest, none⟩
          let executed := s.executed ++ [⟨call.logicalActionId, ref, call.effect⟩]
          match call.effect with
          | .raised => (.effectRaised, ⟨admissions, executed⟩)
          | .returned effectId =>
              (.reported ⟨.execute, ref, digest, effectId⟩, ⟨assign admissions ref ⟨digest, effectId⟩, executed⟩)
      | some prior =>
          if guard.mode = .noDigestCheck ∨ prior.digest = digest then
            (.reported ⟨.duplicate, ref, digest, prior.effectId⟩, s)
          else (.reported ⟨.conflict, ref, digest, none⟩, s)

def step (guard : LogicalIdentityGuard) (s : State ε) (call : Call ε) : State ε := (dispatch guard s call).2

def State.start : State ε := ⟨[], []⟩

/-- The pairs that the calls present, under their ids: a call that is not hashed presents none. -/
def presented (guard : LogicalIdentityGuard) (calls : List (Call ε)) : List (Str × Str × Str) :=
  calls.filterMap fun call => (pair guard call).toOption.map (call.logicalActionId, ·)

/-- The call runs its effect. -/
def Executes (guard : LogicalIdentityGuard) (s : State ε) (call : Call ε) : Prop :=
  ∃ ref, (step guard s call).executed = s.executed ++ [⟨call.logicalActionId, ref, call.effect⟩]

def Execution.isFor (ref : Str) (execution : Execution ε) : Bool := execution.idempotencyRef = ref

/-- The call on a reference does what the reference replay decides there. -/
structure Follows (guard : LogicalIdentityGuard) (s : State ε) (call : Call ε) (ref : Str) (outcome : Decision) :
    Prop where
  executes : Executes guard s call ↔ outcome = .execute
  reports : ∀ report, (dispatch guard s call).1 = .reported report → report.outcome = outcome
  duplicate : outcome = .duplicate → ∃ execution report, s.executed.filter (Execution.isFor ref) = [execution] ∧
    (dispatch guard s call).1 = .reported report ∧ report.effectId = execution.effect.effectId
  conflict : outcome = .conflict → step guard s call = s

variable {guard : LogicalIdentityGuard} {s s' : State ε} {call : Call ε} {calls before after : List (Call ε)}
  {ref digest : Str}

/-- What a call does, by the admission of the reference it presents. -/
theorem dispatch_cases (guard : LogicalIdentityGuard) (s : State ε) (call : Call ε) :
    (∃ raised, pair guard call = .error raised ∧ dispatch guard s call = (.unhashed raised, s)) ∨
    ∃ ref digest, pair guard call = .ok (ref, digest) ∧
      ((s.admissions.lookup ref = none ∧
          (step guard s call).executed = s.executed ++ [⟨call.logicalActionId, ref, call.effect⟩] ∧
          (∀ other, (step guard s call).admissions.lookup other =
            if other = ref then some ⟨digest, call.effect.effectId⟩ else s.admissions.lookup other) ∧
          ((dispatch guard s call).1 = .effectRaised ∨
            (dispatch guard s call).1 = .reported ⟨.execute, ref, digest, call.effect.effectId⟩)) ∨
        ∃ prior, s.admissions.lookup ref = some prior ∧
          ((guard.mode = .noDigestCheck ∨ prior.digest = digest) ∧
              dispatch guard s call = (.reported ⟨.duplicate, ref, digest, prior.effectId⟩, s) ∨
            ¬ (guard.mode = .noDigestCheck ∨ prior.digest = digest) ∧
              dispatch guard s call = (.reported ⟨.conflict, ref, digest, none⟩, s))) := by
  unfold step dispatch
  cases pair guard call with
  | error raised => exact Or.inl ⟨raised, rfl, rfl⟩
  | ok presented =>
      obtain ⟨ref, digest⟩ := presented
      refine Or.inr ⟨ref, digest, rfl, ?_⟩
      dsimp only
      cases admitted : s.admissions.lookup ref with
      | some prior =>
          by_cases same : guard.mode = .noDigestCheck ∨ prior.digest = digest
          · exact Or.inr ⟨prior, rfl, Or.inl ⟨same, if_pos same⟩⟩
          · exact Or.inr ⟨prior, rfl, Or.inr ⟨same, if_neg same⟩⟩
      | none =>
          refine Or.inl ⟨rfl, ?_⟩
          cases call.effect with
          | raised => exact ⟨rfl, lookup_assign, Or.inl rfl⟩
          | returned effectId =>
              refine ⟨rfl, fun other => ?_, Or.inr rfl⟩
              simp only [lookup_assign]
              split <;> rfl

/-- The reference's ledger and count after the pairs. -/
def advance (checkDigest : Bool) (reached : Ledger × Nat) (presented : Str × Str × Str) : Ledger × Nat :=
  let decided := decide reached.1 presented.2.1 presented.2.2 checkDigest
  (decided.2, count reached.2 decided.1)

theorem presented_append (before after : List (Call ε)) :
    presented guard (before ++ after) = presented guard before ++ presented guard after := List.filterMap_append

theorem presented_cons (hashed : pair guard call = .ok (ref, digest)) :
    presented guard (call :: after) = (call.logicalActionId, ref, digest) :: presented guard after := by
  rw [presented, List.filterMap_cons, hashed]
  rfl

theorem presented_unhashed {raised : PyError} (unhashed : pair guard call = .error raised) :
    presented guard [call] = [] := by
  rw [presented, List.filterMap_cons, unhashed]
  rfl

/-- The ledger has the admitted digests, and a reference is admitted where an effect has run for
it: once, and with the effect id that it ended with. -/
structure Mirrors (s : State ε) (reached : Ledger × Nat) : Prop where
  digests : ∀ ref, reached.1.lookup ref = (s.admissions.lookup ref).map Admission.digest
  effects : reached.2 = s.executed.length
  fresh : ∀ ref, s.admissions.lookup ref = none → s.executed.filter (Execution.isFor ref) = []
  only : ∀ ref admission, s.admissions.lookup ref = some admission →
    ∃ execution, s.executed.filter (Execution.isFor ref) = [execution] ∧ admission.effectId = execution.effect.effectId

omit [Interpreter] in
theorem mirrors_start : Mirrors (.start : State ε) ([], 0) where
  digests _ := rfl
  effects := rfl
  fresh _ _ := rfl
  only _ _ admitted := by cases admitted

omit [Interpreter] in
theorem decide_none {ledger : Ledger} (free : ledger.lookup ref = none) (checkDigest : Bool) :
    decide ledger ref digest checkDigest = (.execute, assign ledger ref digest) := by
  rw [decide, free]

omit [Interpreter] in
theorem decide_same {ledger : Ledger} {prior : Str} {checkDigest : Bool} (found : ledger.lookup ref = some prior)
    (same : checkDigest = false ∨ prior = digest) : decide ledger ref digest checkDigest = (.duplicate, ledger) := by
  rw [decide, found]
  exact if_pos same

omit [Interpreter] in
theorem decide_other {ledger : Ledger} {prior : Str} {checkDigest : Bool} (found : ledger.lookup ref = some prior)
    (other : ¬ (checkDigest = false ∨ prior = digest)) :
    decide ledger ref digest checkDigest = (.conflict, ledger) := by
  rw [decide, found]
  exact if_neg other

theorem not_executes (kept : step guard s call = s) : ¬ Executes guard s call := by
  rintro ⟨ref, grown⟩
  have longer := congrArg List.length grown
  rw [kept, List.length_append, List.length_singleton] at longer
  omega

omit [Interpreter] in
/-- A reference that is admitted now is admitted after an execution that is recorded for it. -/
theorem Mirrors.execute {reached : Ledger × Nat} (mirrors : Mirrors s reached)
    (free : s.admissions.lookup ref = none)
    (grown : s'.executed = s.executed ++ [⟨call.logicalActionId, ref, call.effect⟩])
    (admitted : ∀ other, s'.admissions.lookup other =
      if other = ref then some ⟨digest, call.effect.effectId⟩ else s.admissions.lookup other) :
    Mirrors s' (assign reached.1 ref digest, reached.2 + 1) where
  digests other := by
    rw [lookup_assign, admitted, mirrors.digests]
    split <;> rfl
  effects := by rw [grown, mirrors.effects, List.length_append, List.length_singleton]
  fresh other none := by
    rw [admitted] at none
    split at none
    · cases none
    · rename_i apart
      rw [grown, List.filter_append, mirrors.fresh other none, List.filter_singleton]
      simp [Execution.isFor, Ne.symm apart]
  only other admission found := by
    rw [admitted] at found
    rw [grown, List.filter_append, List.filter_singleton]
    split at found
    · rename_i same
      subst same
      rw [mirrors.fresh other free]
      exact ⟨⟨call.logicalActionId, other, call.effect⟩, by simp [Execution.isFor],
        congrArg Admission.effectId (Option.some.inj found).symm⟩
    · rename_i apart
      obtain ⟨execution, ran, ended⟩ := mirrors.only other admission found
      exact ⟨execution, by simp [ran, Execution.isFor, Ne.symm apart], ended⟩

/-- Whether the guard compares digests at all. -/
def checks (guard : LogicalIdentityGuard) : Bool := if guard.mode = .noDigestCheck then false else true

omit [Interpreter] in
theorem checks_eq_false : checks guard = false ↔ guard.mode = .noDigestCheck := by
  unfold checks
  split <;> simp_all

/-- The reference decides on a presented pair as the guard does. -/
theorem Mirrors.step {reached : Ledger × Nat} (mirrors : Mirrors s reached)
    (hashed : pair guard call = .ok (ref, digest)) :
    Mirrors (step guard s call) (advance (checks guard) reached (call.logicalActionId, ref, digest)) ∧
      Follows guard s call ref (decide reached.1 ref digest (checks guard)).1 := by
  rcases dispatch_cases guard s call with ⟨raised, unhashed, _⟩ | ⟨own, ownDigest, presented, settled⟩
  · rw [unhashed] at hashed
    cases hashed
  obtain ⟨rfl, rfl⟩ := Prod.mk.inj (Except.ok.inj (hashed.symm.trans presented))
  have looked := mirrors.digests ref
  rcases settled with ⟨free, grown, admitted, answered⟩ | ⟨prior, found, settled⟩
  · rw [free] at looked
    rw [advance, decide_none looked]
    refine ⟨mirrors.execute free grown admitted, iff_of_true ⟨ref, grown⟩ rfl, ?_, ?_, ?_⟩
    · intro report reported
      rcases answered with raised | executed
      · rw [raised] at reported
        cases reported
      · rw [executed] at reported
        cases reported
        rfl
    · rintro ⟨⟩
    · rintro ⟨⟩
  · rw [found] at looked
    rw [← checks_eq_false] at settled
    obtain ⟨execution, ran, ended⟩ := mirrors.only ref prior found
    rcases settled with ⟨same, answered⟩ | ⟨other, answered⟩
    · have kept : LogicalIdentity.step guard s call = s := congrArg Prod.snd answered
      rw [advance, decide_same looked same, kept]
      refine ⟨mirrors, iff_of_false (not_executes kept) (by rintro ⟨⟩), ?_, fun _ => ?_, fun _ => kept⟩
      · intro report reported
        rw [answered] at reported
        cases reported
        rfl
      · exact ⟨execution, _, ran, congrArg Prod.fst answered, ended⟩
    · have kept : LogicalIdentity.step guard s call = s := congrArg Prod.snd answered
      rw [advance, decide_other looked other, kept]
      refine ⟨mirrors, iff_of_false (not_executes kept) (by rintro ⟨⟩), ?_, by rintro ⟨⟩, fun _ => kept⟩
      intro report reported
      rw [answered] at reported
      cases reported
      rfl

/-- The guard's state after the calls is the reference's after the pairs they present. -/
theorem mirrors_run (guard : LogicalIdentityGuard) (calls : List (Call ε)) :
    Mirrors (run (LogicalIdentity.step guard) .start calls)
      (run (advance (checks guard)) ([], 0) (presented guard calls)) := by
  induction calls using List.reverseRecOn with
  | nil => exact mirrors_start
  | append_singleton calls call ih =>
      rw [run_concat, presented_append, run_append]
      cases hashed : pair guard call with
      | error raised =>
          rw [presented_unhashed hashed, LogicalIdentity.step, dispatch, hashed]
          exact ih
      | ok pair =>
          rw [presented_cons hashed]
          exact (ih.step hashed).1

omit [Interpreter] in
theorem Mirrors.once {reached : Ledger × Nat} (mirrors : Mirrors s reached) (ref : Str) :
    (s.executed.filter (Execution.isFor ref)).length ≤ 1 := by
  cases admitted : s.admissions.lookup ref with
  | none => simp [mirrors.fresh ref admitted]
  | some admission =>
      obtain ⟨execution, only, _⟩ := mirrors.only ref admission admitted
      simp [only]

end
end Argentum.LogicalIdentity
