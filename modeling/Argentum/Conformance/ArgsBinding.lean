import Argentum.Conformance.Guard
import Argentum.Conformance.Delegation

/-! The guard that binds arguments, around the durable guard. The records are in a file, and
every process start has its own bindings in memory: a process binds a reference to the first
digest it is given itself, whatever the record of the reference was made for. -/
namespace Argentum.ArgsBinding
open Guard Transition Text

abbrev Arguments := List (Str × Json)

def deriveArgsDigest (arguments : Arguments) : Except PyError Str :=
  Delegation.sha256hex (Delegation.jcs (.dict arguments))

/-- A call of `ArgumentBoundGuard.guard` on a reference, by the instance it is made through. -/
structure BoundCall (ε : Type) where
  instanceId : Nat
  arguments : Arguments
  outcome : Outcome ε

/-- `_bound_args` of every instance, over the file they share. -/
structure State (ε : Type) where
  world : World ε
  boundArgs : List ((Nat × String) × Str)

/-- What a call ends in. -/
inductive Answer (ε : Type) where
  /-- The arguments have no digest. -/
  | undigested (raised : PyError)
  | argumentMismatch (idempotencyRef : String) (logicalActionId : Json) (boundDigest presentedDigest : Str)
  | delegated (result : Result ε)

section
variable {ε : Type}

/-- The wrapped guard's answer, and the file after it. -/
def delegate (ref : String) (call : BoundCall ε) (boundArgs : List ((Nat × String) × Str)) (w : World ε) :
    Answer ε × State ε :=
  let ended := (Guard.guard ref call.outcome).run Guard.exec w
  (.delegated ended.1, ⟨ended.2, boundArgs⟩)

def guard (ref : String) (s : State ε) (call : BoundCall ε) : Answer ε × State ε :=
  match deriveArgsDigest call.arguments with
  | .error raised => (.undigested raised, s)
  | .ok presentedDigest =>
      match s.boundArgs.lookup (call.instanceId, ref) with
      | none => delegate ref call (((call.instanceId, ref), presentedDigest) :: s.boundArgs) s.world
      | some boundDigest =>
          if boundDigest ≠ presentedDigest then
            (.argumentMismatch ref (Json.get (.dict call.arguments) (ofString "logical_action_id")) boundDigest
              presentedDigest, s)
          else delegate ref call s.boundArgs s.world

def step (ref : String) (s : State ε) (call : BoundCall ε) : State ε := (guard ref s call).2

/-- No instance has bound anything yet. -/
def State.start (w : World ε) : State ε := ⟨w, []⟩

/-- The first digest that the calls present. -/
def firstDigest (calls : List (BoundCall ε)) : Option Str :=
  calls.findSome? fun call => (deriveArgsDigest call.arguments).toOption

/-- The call dispatches its effect, or returns an effect id. -/
def Used (ref : String) (s : State ε) (call : BoundCall ε) : Prop :=
  (step ref s call).world.dispatched ≠ s.world.dispatched ∨
    ∃ effectId outcome, (guard ref s call).1 = .delegated (.guarded (some effectId) outcome)

/-- The call raises `ArgumentMismatchError`, dispatches nothing and leaves the records as they
are. -/
def Refused (ref : String) (s : State ε) (call : BoundCall ε) : Prop :=
  (∃ logicalActionId boundDigest presentedDigest,
    (guard ref s call).1 = .argumentMismatch ref logicalActionId boundDigest presentedDigest) ∧
  (step ref s call).world = s.world

/-- Whatever is dispatched or returned is for the digest of the first call, and a call with
another digest is refused. -/
structure StaysBound (ref : String) (w : World ε) (calls : List (BoundCall ε)) : Prop where
  used : ∀ before call after, calls = before ++ call :: after → Used ref (run (step ref) (.start w) before) call →
    ∃ digest, deriveArgsDigest call.arguments = .ok digest ∧ firstDigest calls = some digest
  refused : ∀ before call after, calls = before ++ call :: after → ∀ digest,
    deriveArgsDigest call.arguments = .ok digest → firstDigest calls ≠ some digest →
    Refused ref (run (step ref) (.start w) before) call

/-- The first digest an instance is given. -/
def firstOf (instanceId : Nat) (calls : List (BoundCall ε)) : Option Str :=
  firstDigest (calls.filter fun call => call.instanceId = instanceId)

variable {ref : String} {s : State ε} {call : BoundCall ε} {calls before after : List (BoundCall ε)} {digest : Str}

theorem firstDigest_append (before after : List (BoundCall ε)) :
    firstDigest (before ++ after) = (firstDigest before).or (firstDigest after) := List.findSome?_append

theorem firstOf_concat (instanceId : Nat) (calls : List (BoundCall ε)) (call : BoundCall ε) :
    firstOf instanceId (calls ++ [call]) = (firstOf instanceId calls).or
      (if call.instanceId = instanceId then (deriveArgsDigest call.arguments).toOption else none) := by
  rw [firstOf, List.filter_append, firstDigest_append, ← firstOf]
  congr 1
  by_cases own : call.instanceId = instanceId
  · rw [if_pos own, firstDigest, List.filter_singleton, decide_eq_true own]
    cases presented : (deriveArgsDigest call.arguments).toOption <;> simp [presented]
  · rw [if_neg own, firstDigest, List.filter_singleton, decide_eq_false own]
    rfl

/-- What a call does, by what its instance has bound before. -/
theorem guard_cases (ref : String) (s : State ε) (call : BoundCall ε) :
    (∃ raised, deriveArgsDigest call.arguments = .error raised ∧ guard ref s call = (.undigested raised, s)) ∨
    ∃ digest, deriveArgsDigest call.arguments = .ok digest ∧
      ((s.boundArgs.lookup (call.instanceId, ref) = none ∧
          guard ref s call = delegate ref call (((call.instanceId, ref), digest) :: s.boundArgs) s.world) ∨
        (s.boundArgs.lookup (call.instanceId, ref) = some digest ∧
          guard ref s call = delegate ref call s.boundArgs s.world) ∨
        ∃ boundDigest logicalActionId, s.boundArgs.lookup (call.instanceId, ref) = some boundDigest ∧
          boundDigest ≠ digest ∧
          guard ref s call = (.argumentMismatch ref logicalActionId boundDigest digest, s)) := by
  unfold guard
  cases deriveArgsDigest call.arguments with
  | error raised => exact Or.inl ⟨raised, rfl, rfl⟩
  | ok digest =>
      refine Or.inr ⟨digest, rfl, ?_⟩
      cases bound : s.boundArgs.lookup (call.instanceId, ref) with
      | none => exact Or.inl ⟨rfl, rfl⟩
      | some boundDigest =>
          by_cases same : boundDigest = digest
          · subst same
            exact Or.inr (Or.inl ⟨rfl, if_neg (not_not.mpr rfl)⟩)
          · exact Or.inr (Or.inr ⟨boundDigest, _, rfl, same, if_pos same⟩)

/-- An instance has the first digest it was given bound to the reference. -/
theorem lookup_run (w : World ε) (calls : List (BoundCall ε)) (instanceId : Nat) :
    (run (step ref) (.start w) calls).boundArgs.lookup (instanceId, ref) = firstOf instanceId calls := by
  induction calls using List.reverseRecOn with
  | nil => rfl
  | append_singleton calls call ih =>
      rw [run_concat, firstOf_concat, ← ih]
      generalize run (step ref) (.start w) calls = s
      rw [step]
      rcases guard_cases ref s call with ⟨raised, derived, ended⟩ | ⟨digest, derived, ⟨free, ended⟩ | ⟨bound, ended⟩ |
        ⟨boundDigest, _, bound, _, ended⟩⟩
      · rw [ended, derived]
        simp [Except.toOption]
      · rw [ended, derived, delegate, List.lookup_cons]
        by_cases own : call.instanceId = instanceId
        · subst own
          simp [free, Except.toOption]
        · have apart : ((instanceId, ref) == (call.instanceId, ref)) = false :=
            beq_false_of_ne fun same => own (Prod.mk.inj same).1.symm
          rw [apart, if_neg own, Option.or_none]
      · rw [ended, derived, delegate]
        by_cases own : call.instanceId = instanceId
        · subst own
          simp [bound]
        · rw [if_neg own, Option.or_none]
      · rw [ended, derived]
        by_cases own : call.instanceId = instanceId
        · subst own
          simp [bound]
        · rw [if_neg own, Option.or_none]

/-- A call that its instance does not refuse presents the first digest of the instance. -/
theorem firstOf_split (presented : deriveArgsDigest call.arguments = .ok digest)
    (allowed : firstOf call.instanceId before = none ∨ firstOf call.instanceId before = some digest) :
    firstOf call.instanceId (before ++ call :: after) = some digest := by
  rw [List.append_cons, firstOf, List.filter_append, firstDigest_append, ← firstOf, firstOf_concat, if_pos rfl,
    presented]
  rcases allowed with free | bound
  · rw [free]
    rfl
  · rw [bound]
    rfl

/-- The call that binds an instance is the first with a digest that is made through it. -/
theorem exists_binding {instanceId : Nat} (first : firstOf instanceId calls = some digest) :
    ∃ before call after, calls = before ++ call :: after ∧ call.instanceId = instanceId ∧
      deriveArgsDigest call.arguments = .ok digest ∧ firstOf instanceId before = none := by
  induction calls using List.reverseRecOn with
  | nil => cases first
  | append_singleton calls call ih =>
      rw [firstOf_concat] at first
      cases earlier : firstOf instanceId calls with
      | some own =>
          rw [earlier] at first
          obtain ⟨before, binding, after, rfl, found⟩ := ih (earlier.trans first)
          exact ⟨before, binding, after ++ [call], by simp, found⟩
      | none =>
          rw [earlier, Option.none_or] at first
          split at first
          · rename_i own
            cases derived : deriveArgsDigest call.arguments with
            | error raised =>
                rw [derived] at first
                cases first
            | ok presented =>
                rw [derived] at first
                exact ⟨calls, call, [], rfl, own, derived.trans (congrArg Except.ok (Option.some.inj first)), earlier⟩
          · cases first

theorem not_used (ended : (guard ref s call).2 = s)
    (other : ∀ effectId outcome, (guard ref s call).1 ≠ .delegated (.guarded (some effectId) outcome)) :
    ¬ Used ref s call := by
  rintro (dispatched | ⟨effectId, outcome, returned⟩)
  · exact dispatched (congrArg (fun s => s.world.dispatched) ended)
  · exact other effectId outcome returned

/-- The binding holds across instances exactly when every instance is first given the digest that
was given first: none of them starts with arguments of its own. -/
theorem staysBound_iff (ref : String) (w : World ε) (calls : List (BoundCall ε)) :
    StaysBound ref w calls ↔
      ∀ instanceId digest, firstOf instanceId calls = some digest → firstDigest calls = some digest := by
  constructor
  · intro stays instanceId digest first
    by_contra other
    obtain ⟨before, call, after, split, rfl, presented, free⟩ := exists_binding first
    obtain ⟨⟨logicalActionId, boundDigest, presentedDigest, refused⟩, _⟩ :=
      stays.refused before call after split digest presented other
    rw [guard, presented, lookup_run, free] at refused
    cases refused
  · intro each
    constructor
    · rintro before call after rfl used
      rcases guard_cases ref (run (step ref) (.start w) before) call with ⟨raised, _, ended⟩ |
        ⟨digest, presented, ⟨free, _⟩ | ⟨bound, _⟩ | ⟨boundDigest, _, _, _, ended⟩⟩
      · exact absurd used (not_used (by rw [ended]) (by simp [ended]))
      · rw [lookup_run] at free
        exact ⟨digest, presented, each _ _ (firstOf_split presented (Or.inl free))⟩
      · rw [lookup_run] at bound
        exact ⟨digest, presented, each _ _ (firstOf_split presented (Or.inr bound))⟩
      · exact absurd used (not_used (by rw [ended]) (by simp [ended]))
    · rintro before call after rfl digest presented other
      rcases guard_cases ref (run (step ref) (.start w) before) call with ⟨raised, undigested, _⟩ |
        ⟨own, derived, settled⟩
      · rw [undigested] at presented
        cases presented
      · obtain rfl : own = digest := Except.ok.inj (derived.symm.trans presented)
        rcases settled with ⟨free, _⟩ | ⟨bound, _⟩ | ⟨boundDigest, logicalActionId, _, _, ended⟩
        · rw [lookup_run] at free
          exact absurd (each _ _ (firstOf_split presented (Or.inl free))) other
        · rw [lookup_run] at bound
          exact absurd (each _ _ (firstOf_split presented (Or.inr bound))) other
        · exact ⟨⟨logicalActionId, boundDigest, own, congrArg Prod.fst ended⟩,
            by rw [step, ended]⟩

end

def amountOf (amount : Int) : Arguments := [(ofString "amount", .int amount)]

/-- A second process is first given 250 on the reference of a payment of 100. -/
def restarted : List (BoundCall String) :=
  [⟨0, amountOf 100, .returned (some "effect-1")⟩, ⟨1, amountOf 250, .returned (some "effect-2")⟩]

/-- The second process returns the effect id of the first payment for the other amount. -/
theorem not_staysBound_restarted : ¬ StaysBound "ref" ⟨.empty, []⟩ restarted := by
  intro stays
  obtain ⟨⟨_, _, _, refused⟩, _⟩ := stays.refused [⟨0, amountOf 100, .returned (some "effect-1")⟩]
    ⟨1, amountOf 250, .returned (some "effect-2")⟩ [] rfl _ rfl (by decide +kernel)
  cases refused

end Argentum.ArgsBinding
