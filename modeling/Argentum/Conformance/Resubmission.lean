import Argentum.Conformance.Delegation
import Argentum.Core.Transition

/-! Submissions that share one registry of accepted chains. A chain, and a reference of a
hop, is accepted once; a submission that is not accepted is not seen by the others. -/
namespace Argentum

namespace Json

/-- What a value that has a hash is found by. -/
inductive HashKey where
  | null
  | str (s : Str)
  | number (n : Number)
  | nan

def hashKey? : Json → Option HashKey
  | .null => some .null
  | .str s => some (.str s)
  | .float .nan => some .nan
  | value => value.number?.map .number

/-- A value that has a hash is the same as those that are found by the same. -/
theorem same_iff_hashKey? {value other : Json} (hashed : value.hashable = true) :
    value.same other = true ↔ value.hashKey? = other.hashKey? := by
  cases value with
  | list | dict => cases hashed
  | null | str | bool | int =>
      cases other with
      | float x => cases x <;> simp [same, hashKey?, number?, Float64.number?]
      | _ => simp [same, hashKey?, number?]
  | float x =>
      cases x <;> cases other with
      | float x => cases x <;> simp [same, hashKey?, number?, Float64.number?]
      | _ => simp [same, hashKey?, number?, Float64.number?]

end Json

namespace Delegation
open Text Transition

namespace Seen
variable {seen : Seen} {value other : Json} {values : List Json}

theorem member_iff : seen.member value = true ↔ ∃ old ∈ seen, old.same value = true := by
  rw [member, List.any_eq_true]

theorem contains_false (absent : seen.contains value = .ok false) :
    value.hashable = true ∧ seen.member value = false := by
  unfold contains at absent
  split at absent
  · exact ⟨‹_›, Except.ok.inj absent⟩
  · cases absent

theorem containsAny_false (absent : seen.containsAny values = .ok false) :
    ∀ value ∈ values, value.hashable = true ∧ seen.member value = false := by
  induction values with
  | nil => exact fun value member => absurd member List.not_mem_nil
  | cons value rest ih =>
      obtain ⟨found, asked, later⟩ := bind_ok absent
      cases found with
      | true => cases later
      | false => exact List.forall_mem_cons.mpr ⟨contains_false asked, ih later⟩

/-- What is in a set is found by every value that is the same. -/
theorem member_of_same (hashed : ∀ old ∈ seen, old.hashable = true) (own : value.hashable = true)
    (held : seen.member value = true) (same : value.same other = true) : seen.member other = true := by
  obtain ⟨old, member, equal⟩ := member_iff.mp held
  refine member_iff.mpr ⟨old, member, ?_⟩
  rw [Json.same_iff_hashKey? (hashed old member)] at equal ⊢
  exact equal.trans ((Json.same_iff_hashKey? own).mp same)

theorem member_add_of_member (held : seen.member other = true) : (seen.add value).member other = true := by
  unfold add
  split
  · exact held
  · rw [member, List.any_append, Bool.or_eq_true]
    exact Or.inl held

theorem member_add_self (own : value.hashable = true) : (seen.add value).member value = true := by
  unfold add
  split
  · assumption
  · refine member_iff.mpr ⟨value, List.mem_append_right _ (List.mem_singleton_self _), ?_⟩
    exact (Json.same_iff_hashKey? own).mpr rfl

/-- A set holds values with a hash. -/
def Hashed (seen : Seen) : Prop := ∀ old ∈ seen, old.hashable = true

theorem Hashed.add (hashed : seen.Hashed) (own : value.hashable = true) : (seen.add value).Hashed := by
  unfold Seen.add
  split
  · exact hashed
  · intro old member
    rcases List.mem_append.mp member with earlier | new
    · exact hashed old earlier
    · rw [List.mem_singleton.mp new]
      exact own

theorem member_addAll_of_member (held : seen.member other = true) : (values.foldl add seen).member other = true := by
  induction values generalizing seen with
  | nil => exact held
  | cons value rest ih => exact ih (member_add_of_member held)

theorem member_addAll (own : ∀ value ∈ values, value.hashable = true) :
    ∀ value ∈ values, (values.foldl add seen).member value = true := by
  induction values generalizing seen with
  | nil => exact fun value member => absurd member List.not_mem_nil
  | cons value rest ih =>
      obtain ⟨first, later⟩ := List.forall_mem_cons.mp own
      have added : (rest.foldl add (seen.add value)).member value = true :=
        member_addAll_of_member (member_add_self first)
      exact List.forall_mem_cons.mpr ⟨added, ih later⟩

theorem Hashed.addAll (hashed : seen.Hashed) (own : ∀ value ∈ values, value.hashable = true) :
    Hashed (values.foldl Seen.add seen) := by
  induction values generalizing seen with
  | nil => exact hashed
  | cons value rest ih =>
      obtain ⟨first, later⟩ := List.forall_mem_cons.mp own
      exact ih (hashed.add first) later

end Seen

/-- A submission: a vector, with the keys and the flags it is evaluated with. -/
structure Submission where
  vector : Json
  pubkeys : Pubkeys
  keysAreComplete : Bool
  enforceScopeNarrowing : Bool

/-- What the replay guard knows the submitted chain by. -/
def Submission.authorization? (submission : Submission) : Option Authorization :=
  match submission.vector.item (ofString "chain_artifact") with
  | .error _ => none
  | .ok chain =>
      match chain.item (ofString "hops") >>= readAuthorization chain with
      | .ok authorization => some authorization
      | .error _ => none

/-- A call with the shared registry. What raises leaves it as it was. -/
def submit (verifies : Verifier) (registry : SeenRegistry) (submission : Submission) :
    Except PyError Evaluation × SeenRegistry :=
  match evaluateVector verifies submission.vector submission.pubkeys (some registry)
    submission.keysAreComplete submission.enforceScopeNarrowing with
  | .ok (evaluation, after) => (.ok evaluation, after.getD registry)
  | .error raised => (.error raised, registry)

/-- The submission returned PASS. -/
def passed (answered : Submission × Except PyError Evaluation) : Bool :=
  match answered.2 with
  | .ok evaluation => evaluation.verdict = .pass
  | .error _ => false

/-- Neither the chain ids nor any two references of hops are the same. -/
structure Authorization.Distinct (first second : Authorization) : Prop where
  chainId : first.chainId.same second.chainId = false
  hopRefs : ∀ ref ∈ first.hopRefs, ∀ other ∈ second.hopRefs, ref.same other = false

/-- Every authorization is accepted once; a submission that is not accepted leaves the
registry as it was, and any number of such submissions can be left out. -/
def AcceptsOnce (verifies : Verifier) (registry : SeenRegistry) (submissions : List Submission) : Prop :=
  ((answers (submit verifies) registry submissions).filter passed).Pairwise (fun earlier later =>
      ∃ first second, earlier.1.authorization? = some first ∧ later.1.authorization? = some second ∧
        first.Distinct second) ∧
    (∀ (reached : SeenRegistry) submission, passed (submission, (submit verifies reached submission).1) = false →
      (submit verifies reached submission).2 = reached) ∧
    Unseen (submit verifies) passed registry submissions

section
variable {registry : SeenRegistry}

namespace SeenRegistry

/-- Both sets hold values with a hash. -/
structure Hashed (registry : SeenRegistry) : Prop where
  chainIds : registry.chainIds.Hashed
  delegationRefs : registry.delegationRefs.Hashed

/-- The registry holds neither the chain nor one of its references. -/
structure Lacks (registry : SeenRegistry) (authorization : Authorization) : Prop where
  chainId : registry.chainIds.member authorization.chainId = false
  hopRefs : ∀ ref ∈ authorization.hopRefs, registry.delegationRefs.member ref = false

/-- What a registry that was asked says: the values have hashes, and are not in it. -/
theorem contains_false {authorization : Authorization}
    (absent : registry.contains authorization.chainId authorization.hopRefs = .ok false) :
    authorization.chainId.hashable = true ∧ (∀ ref ∈ authorization.hopRefs, ref.hashable = true) ∧
      registry.Lacks authorization := by
  obtain ⟨found, asked, later⟩ := bind_ok absent
  cases found with
  | true => cases later
  | false =>
      obtain ⟨own, chainId⟩ := Seen.contains_false asked
      have refs := Seen.containsAny_false later
      exact ⟨own, fun ref member => (refs ref member).1, chainId, fun ref member => (refs ref member).2⟩

end SeenRegistry

/-- A submission that passes is one the registry lacks, and is recorded; another one leaves
the registry. -/
theorem submit_cases (verifies : Verifier) (registry : SeenRegistry) (submission : Submission) :
    (passed (submission, (submit verifies registry submission).1) = false ∧
      (submit verifies registry submission).2 = registry) ∨
    ∃ authorization, passed (submission, (submit verifies registry submission).1) = true ∧
      submission.authorization? = some authorization ∧
      registry.contains authorization.chainId authorization.hopRefs = .ok false ∧
      (submit verifies registry submission).2 = registry.record authorization.chainId authorization.hopRefs := by
  unfold submit
  split
  · rename_i evaluation after evaluated
    obtain ⟨chain, artifact, evaluated⟩ := bind_ok evaluated
    obtain ⟨hops, listed, evaluated⟩ := bind_ok evaluated
    obtain ⟨⟨failures, notAssessed⟩, _, evaluated⟩ := bind_ok evaluated
    obtain ⟨⟨replayed, left⟩, checked, evaluated⟩ := bind_ok evaluated
    cases evaluated
    have clean : (failures.isEmpty && notAssessed.isEmpty) = true ↔ failures = [] ∧ notAssessed = [] := by
      rw [Bool.and_eq_true, List.isEmpty_iff, List.isEmpty_iff]
    rcases replayCheck_cases checked with ⟨absent, _⟩ | ⟨held, authorization, same, read, outcome⟩
    · cases absent
    · cases same
      rcases outcome with ⟨_, replay, unchanged⟩ | ⟨unseen, none, recorded⟩
      · refine Or.inl ⟨decide_eq_false fun passed => ?_, by rw [unchanged]; rfl⟩
        have empty := (pass_iff.mp passed).1
        rw [replay] at empty
        simp at empty
      · by_cases passes : failures = [] ∧ notAssessed = []
        · refine Or.inr ⟨authorization, decide_eq_true (pass_iff.mpr ?_), ?_, unseen, ?_⟩
          · rw [none, List.append_nil]
            exact passes
          · rw [Submission.authorization?, artifact]
            simp only [bind_ok_iff.mpr ⟨hops, listed, read⟩]
          · rw [recorded, if_pos (clean.mpr passes)]
            rfl
        · refine Or.inl ⟨decide_eq_false fun passed => passes ?_, ?_⟩
          · have empty := pass_iff.mp passed
            rwa [none, List.append_nil] at empty
          · rw [recorded, if_neg fun holds => passes (clean.mp holds)]
            rfl
  · exact Or.inl ⟨rfl, rfl⟩

/-- What a registry lacks after a record it lacked before, and it is not what was recorded. -/
theorem SeenRegistry.Lacks.of_record {first second : Authorization} (hashed : registry.Hashed)
    (own : first.chainId.hashable = true) (refs : ∀ ref ∈ first.hopRefs, ref.hashable = true)
    (lacks : (registry.record first.chainId first.hopRefs).Lacks second) :
    registry.Lacks second ∧ first.Distinct second := by
  have kept : ∀ {seen later : Seen} {value : Json}, later.member value = false →
      (seen.member value = true → later.member value = true) → seen.member value = false := by
    intro seen later value absent grows
    by_contra held
    rw [grows (eq_true_of_ne_false held)] at absent
    cases absent
  refine ⟨⟨kept lacks.chainId Seen.member_add_of_member, fun ref member => ?_⟩, ?_, fun ref member other also => ?_⟩
  · exact kept (lacks.hopRefs ref member) Seen.member_addAll_of_member
  · by_contra same
    have found := Seen.member_of_same (hashed.chainIds.add own) own (Seen.member_add_self own)
      (eq_true_of_ne_false same)
    exact absurd (lacks.chainId.symm.trans found) Bool.false_ne_true
  · by_contra same
    have found := Seen.member_of_same (hashed.delegationRefs.addAll refs) (refs ref member)
      (Seen.member_addAll refs ref member) (eq_true_of_ne_false same)
    exact absurd ((lacks.hopRefs other also).symm.trans found) Bool.false_ne_true

/-- What passes later is what the registry lacks now, and no two of it share anything. -/
theorem accepted_distinct (verifies : Verifier) (hashed : registry.Hashed) (submissions : List Submission) :
    (∀ later ∈ (answers (submit verifies) registry submissions).filter passed,
      ∃ authorization, later.1.authorization? = some authorization ∧ registry.Lacks authorization) ∧
    ((answers (submit verifies) registry submissions).filter passed).Pairwise fun earlier later =>
      ∃ first second, earlier.1.authorization? = some first ∧ later.1.authorization? = some second ∧
        first.Distinct second := by
  induction submissions generalizing registry with
  | nil => exact ⟨fun later member => absurd member List.not_mem_nil, List.Pairwise.nil⟩
  | cons submission rest ih =>
      rw [answers]
      rcases submit_cases verifies registry submission with
        ⟨refused, unchanged⟩ | ⟨first, accepted, known, unseen, recorded⟩
      · rw [List.filter_cons_of_neg (by rw [refused]; exact Bool.false_ne_true), unchanged]
        exact ih hashed
      · obtain ⟨own, refs, lacks⟩ := SeenRegistry.contains_false unseen
        rw [List.filter_cons_of_pos accepted, recorded]
        obtain ⟨lacked, distinct⟩ := @ih (registry.record first.chainId first.hopRefs)
          ⟨hashed.chainIds.add own, hashed.delegationRefs.addAll refs⟩
        refine ⟨List.forall_mem_cons.mpr ⟨⟨first, known, lacks⟩, ?_⟩, List.pairwise_cons.mpr ⟨?_, distinct⟩⟩
        · intro later member
          obtain ⟨second, also, absent⟩ := lacked later member
          exact ⟨second, also, (absent.of_record hashed own refs).1⟩
        · intro later member
          obtain ⟨second, also, absent⟩ := lacked later member
          exact ⟨first, second, known, also, (absent.of_record hashed own refs).2⟩

end

/-- In every sequence of submissions to one registry an authorization is accepted once, and
what is rejected is not seen. -/
theorem acceptsOnce (verifies : Verifier) (submissions : List Submission) :
    AcceptsOnce verifies .empty submissions := by
  have hashed : SeenRegistry.empty.Hashed :=
    ⟨fun _ member => absurd member List.not_mem_nil, fun _ member => absurd member List.not_mem_nil⟩
  have unchanged : ∀ (reached : SeenRegistry) submission,
      passed (submission, (submit verifies reached submission).1) = false →
      (submit verifies reached submission).2 = reached := by
    intro reached submission refused
    rcases submit_cases verifies reached submission with ⟨_, same⟩ | ⟨_, accepted, _⟩
    · exact same
    · rw [refused] at accepted
      cases accepted
  exact ⟨(accepted_distinct verifies hashed submissions).2, unchanged, unseen_of_idle unchanged _ _⟩

end Delegation
end Argentum
