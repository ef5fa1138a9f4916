import Argentum.Trail.Soundness

/-! Where the verifier raises. Its shape checks cover most of what its arithmetic, its lookups
and its subtractions need, and leave seven gaps: how deep an agent's id may be nested to be
compared, what the canonical encoder refuses in an entry, in an anchor and in a checkpoint, what
a proof may hold, an agent counter that is null, and the period end of a checkpoint. A request
that stays out of them is always answered. -/
namespace Argentum.Trail
open Text Sha256 Jcs

/-- A loop over the proof meets no item that is not text, unless text that is not
hexadecimal has ended it before. -/
def Readable (proof : Json) : Prop :=
  ∃ items, iterate proof = .ok items ∧ ∀ (i : Nat) (item : Json), items[i]? = some item →
    (∀ (j : Nat) (other : Json), j < i → items[j]? = some other → ∃ bytes, bytesFromhex other = .ok bytes) →
    ∃ s, item = .str s

section
variable {α β : Type} {check : Check α} {next : α → Check β} {action : Except PyError α}

end

section
variable [Interpreter] {agentId : Json} {entries rest : List Entry} {first : Entry} {fromSeq prevSeq : Int}
  {prevHead : Json}

/-- The fields of an entry that `entry_preimage` takes. -/
abbrev Entry.Fits (e : Entry) : Prop :=
  Trail.Fits (.int e.seq) (e.value.get Key.actionRef) (e.value.get Key.prevHead) (e.value.get Key.agentSeq)

end

section
variable [Interpreter] {fromisoformat : FromIsoFormat} {anchor checkpoint proof root agentId now maxAge : Json} {fromSeq : Int}
  {first : Entry} {others entries : List Entry}

end

/-- The calls in the verifier's domain: any JSON, a seq to start from, and for the checkpoint's
age a time that reads and a number of seconds that is not negative, or neither. -/
structure InDomain (fromisoformat : FromIsoFormat) (request : Request) (fromSeq : Int) : Prop where
  start : request.fromSeq = .int fromSeq
  positive : 1 ≤ fromSeq
  now : request.now = .null ∨ ∃ time, parseTs fromisoformat request.now = .ok time
  maxAge : request.maxCheckpointAgeS = .null ∨
    ∃ limit, request.maxCheckpointAgeS.number? = some limit ∧ Number.ofRat 0 ≤ limit

section
variable [Interpreter] (fromisoformat : FromIsoFormat) (request : Request) (fromSeq : Int) (agentId : Json) (first : Entry)
  (others : List Entry) (cpSeq : Int)

/-- The entries pass the check of their order. -/
def ReachesHashes : Prop := checkOrder fromSeq (first :: others) = .ok ()

/-- They are continuous. -/
def ReachesAnchor : Prop :=
  ReachesHashes fromSeq first others ∧ walk agentId fromSeq (fromSeq - 1) .null (first :: others) = .ok ()

end

section
variable [Interpreter] {fromisoformat : FromIsoFormat} {request : Request} {fromSeq : Int} {agentId : Json}
  {first : Entry} {others : List Entry}

/-- What continuity leaves to the later checks. -/
theorem ReachesAnchor.entries (reached : ReachesAnchor fromSeq agentId first others) :
    first.seq = fromSeq ∧ first.Fits ∧ ((first :: others).getLast (by simp)).seq = fromSeq + others.length ∧
      ∀ e ∈ first :: others, e.value.get Key.agentSeq = .null ∨ atLeastOne (e.value.get Key.agentSeq) = true := by
  have walked := walk_eq_ok_iff.mp reached.2
  obtain ⟨seq, checks, _⟩ := walked 0 first rfl
  have final : (first :: others)[others.length]? = some ((first :: others).getLast (by simp)) := by
    rw [← List.getLast?_eq_some_getLast, List.getLast?_eq_getElem?]
    rfl
  refine ⟨by simpa using seq, checks.1, by rw [(walked _ _ final).1]; omega, fun e member => ?_⟩
  obtain ⟨i, found⟩ := List.mem_iff_getElem?.mp member
  exact (walked i e found).2.1.1.counter

end

section
open Cpython

end

end Argentum.Trail
