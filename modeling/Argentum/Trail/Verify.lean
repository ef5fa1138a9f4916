import Argentum.Trail.Log

/-! The verifier's side of `trail_head.py`. Each check either passes, returns its
own verdict or lets an exception through; the first that does not pass ends the
run. Entries, checkpoints, proofs, roots and bounds are any JSON values. -/
namespace Argentum.Trail
open Text Sha256 Jcs

inductive Verdict where
  | malformed
  | broken
  | anchorUnproven
  | anchorMismatch
  | agentGap
  | continuityOnly
  | checkpointUnproven
  | staleCheckpoint
  | truncated
  | checkpointMismatch
  | complete
  | completeUnsealedTail
  | windowComplete
  | windowCompleteUnsealedTail
  deriving DecidableEq

/-- The four answers that claim the log is whole. -/
def Verdict.positive : Verdict → Bool
  | .complete => true
  | .completeUnsealedTail => true
  | .windowComplete => true
  | .windowCompleteUnsealedTail => true
  | _ => false

inductive Completeness where
  | proven
  | provenThroughCheckpoint
  | provenFromSeq
  | provenFromSeqThroughCheckpoint
  | notEvaluated
  | failed
  deriving DecidableEq

inductive Reason where
  | emptyOrNotAList
  | entryShape
  | agentMixed
  | seqOrder
  | seqGap
  | entryPreimage
  | headMismatch
  | linkMismatch
  | anchorShape
  | anchorOtherAgent
  | anchorNotInRoot
  | anchorNotAdjacent
  | prevHeadDiffersFromAnchor
  | agentSeqPartial
  | agentSeqNotContiguous
  | noCheckpoint
  | checkpointShape
  | checkpointOtherAgent
  | notInRoot
  | checkpointTooOld
  | checkpointBeforeWindow
  | logShorterThanCheckpoint
  | headDiffersFromCheckpoint
  deriving DecidableEq

inductive WindowAnchor where
  | genesis
  | uncertified
  | certified
  deriving DecidableEq

inductive RootAnchoring where
  | notChecked
  deriving DecidableEq

/-- The dictionary `_result` builds; a field the call leaves out is none. A
checkpoint seq of `True` counts as 1. -/
structure Result where
  verdict : Verdict
  completeness : Completeness
  atSeq : Option Int := none
  reason : Option Reason := none
  rootAnchoring : RootAnchoring := .notChecked
  lastSeq : Option Int := none
  checkpointSeq : Option Int := none
  unsealedEntries : Option Int := none
  asOf : Option Json := none
  fromSeq : Option Int := none
  windowAnchor : Option WindowAnchor := none
  checkpointAgeS : Option Int := none

/-- A run of the verifier ends before its last check with an exception or with a
result that is not positive. -/
inductive Exit where
  | raised (error : PyError)
  | returned (result : Result) (negative : result.verdict.positive = false)

abbrev Check := Except Exit

def raising {α : Type} (action : Except PyError α) : Check α := action.mapError .raised

/-- `return _result(verdict, FAILED, ...)`. -/
def fail {α : Type} (verdict : Verdict) (reason : Reason) (atSeq : Option Int := none)
    (negative : verdict.positive = false := by rfl) : Check α :=
  .error (.returned { verdict, completeness := .failed, atSeq, reason := some reason } negative)

/-- `==` where the verifiers compare. -/
def equals [Interpreter] (value other : Json) : Except PyError Bool := Interpreter.comparison.eq value other

/-- The stack lasts for comparing the values. -/
def Comparable [Interpreter] (value other : Json) : Prop := ∃ verdict, equals value other = .ok verdict

theorem equals_str [Interpreter] {value : Json} {s : Str} : equals value (.str s) = .ok (Json.eq value (.str s)) :=
  Comparison.eq_str (Interpreter.compares value s)

theorem equals_eq_ok_iff [Interpreter] {value other : Json} {verdict : Bool} :
    equals value other = .ok verdict ↔ Comparable value other ∧ Json.eq value other = verdict := by
  constructor
  · exact fun compared => ⟨⟨verdict, compared⟩, (Comparison.eq_ok compared).symm⟩
  · rintro ⟨⟨_, compared⟩, rfl⟩
    rw [← Comparison.eq_ok compared]
    exact compared

/-- A presented entry of the required shape. -/
structure Entry where
  value : Json
  seq : Int
  seqShape : value.get Key.seq = .int seq
  headShape : isHex64 (value.get Key.head) = true
  refShape : isHex64 (value.get Key.actionRef) = true

def readEntry (value : Json) : Option Entry :=
  match seqShape : value.get Key.seq with
  | .int seq =>
      if shape : isHex64 (value.get Key.head) = true ∧ isHex64 (value.get Key.actionRef) = true then
        some ⟨value, seq, seqShape, shape.1, shape.2⟩
      else none
  | _ => none

def readEntries [Interpreter] (agentId : Json) : List Json → Check (List Entry)
  | [] => .ok []
  | value :: rest =>
      match readEntry value with
      | none => fail .malformed .entryShape
      | some entry => do
          let own ← raising (equals (value.get Key.agentId) agentId)
          if !own then fail .malformed .agentMixed (some entry.seq)
          else
            let others ← readEntries agentId rest
            return entry :: others

/-- The first entry's id is compared with itself, and a container with itself takes no frames
for its members. -/
def readLog [Interpreter] (value : Json) (rest : List Json) : Check (Entry × List Entry) :=
  match readEntry value with
  | none => fail .malformed .entryShape
  | some first =>
      if !Json.eq (value.get Key.agentId) (value.get Key.agentId) then fail .malformed .agentMixed (some first.seq)
      else do
        let others ← readEntries (value.get Key.agentId) rest
        return (first, others)

/-- The first seq that is not where counting from `expected` puts it. -/
def firstBad : Int → List Int → Option Int
  | _, [] => none
  | expected, seq :: rest => if seq ≠ expected then some seq else firstBad (expected + 1) rest

/-- A reordered log is told apart from one with a removed entry. -/
def checkOrder (fromSeq : Int) (entries : List Entry) : Check Unit :=
  let seqs := entries.map Entry.seq
  let sorted := seqs.insertionSort (· ≤ ·)
  if sorted = (List.range seqs.length).map (fun i => fromSeq + i) ∧ seqs ≠ sorted then
    fail .broken .seqOrder (firstBad fromSeq seqs)
  else .ok ()

/-- Continuity: the next seq, then the head, then the link to the entry before. -/
def walk [Interpreter] (agentId : Json) (fromSeq : Int) : Int → Json → List Entry → Check Unit
  | _, _, [] => .ok ()
  | prevSeq, prevHead, e :: rest =>
      if e.seq ≠ prevSeq + 1 then fail .broken .seqGap (some e.seq)
      else
        match entryPreimage agentId (.int e.seq) (e.value.get Key.actionRef) (e.value.get Key.prevHead)
          (e.value.get Key.agentSeq) with
        | .error .valueError => fail .malformed .entryPreimage (some e.seq)
        | .error error => .error (.raised error)
        | .ok pre => do
            let digest ← raising (sha256Jcs (.dict pre))
            if !Json.eq (.str digest) (e.value.get Key.head) then fail .broken .headMismatch (some e.seq)
            else if fromSeq < e.seq && !Json.eq (e.value.get Key.prevHead) prevHead then
              fail .broken .linkMismatch (some e.seq)
            else walk agentId fromSeq e.seq (e.value.get Key.head) rest

/-- The checkpoint's digest is included under the root; without a root or a proof it is not. -/
def provenIn [Interpreter] (cp proof root : Json) : Except PyError Bool :=
  if root.isNull || proof.isNull then .ok false
  else do verifyInclusion (← checkpointDigest cp) proof root

def checkAnchor [Interpreter] (anchor anchorProof anchorRoot agentId : Json) (fromSeq : Int) (first : Entry) :
    Check WindowAnchor :=
  if anchor.isNull then .ok (if fromSeq = 1 then .genesis else .uncertified)
  else if !anchor.isDict || !Json.eq (anchor.get Key.v) (.str checkpointV) ||
      !isHex64 (anchor.get Key.head) || (anchor.get Key.seq).properInt?.isNone then
    fail .anchorUnproven .anchorShape
  else do
    let own ← raising (equals (anchor.get Key.agentId) agentId)
    if !own then fail .anchorUnproven .anchorOtherAgent
    else
      let proven ← raising (provenIn anchor anchorProof anchorRoot)
      if !proven then fail .anchorUnproven .anchorNotInRoot
      else if fromSeq = 1 || !Json.eq (anchor.get Key.seq) (.int (fromSeq - 1)) then
        fail .anchorUnproven .anchorNotAdjacent (some fromSeq)
      else
        let stated ← raising (first.value.item Key.prevHead)
        if !Json.eq stated (anchor.get Key.head) then
          fail .anchorMismatch .prevHeadDiffersFromAnchor (some fromSeq)
        else return .certified

/-- `value + 1` on an agent counter: null does not add. -/
def nextCount (value : Json) : Except PyError Json :=
  match value.int? with
  | some n => .ok (.int (n + 1))
  | none => .error .typeError

def checkContiguous : List Entry → Check Unit
  | a :: b :: rest => do
      let expected ← raising (nextCount (a.value.get Key.agentSeq))
      if !Json.eq (b.value.get Key.agentSeq) expected then
        fail .agentGap .agentSeqNotContiguous (some b.seq)
      else checkContiguous (b :: rest)
  | _ => .ok ()

/-- The agent's own counter: on all entries or on none, from 1 in a full log, without gaps. -/
def checkCounter (fromSeq : Int) (first : Entry) (entries : List Entry) : Check Unit :=
  let counted := entries.filter fun e => e.value.has Key.agentSeq
  if counted.isEmpty then .ok ()
  else if counted.length ≠ entries.length then fail .agentGap .agentSeqPartial
  else if fromSeq = 1 && !Json.eq (first.value.get Key.agentSeq) (.int 1) then
    fail .agentGap .agentSeqNotContiguous (some 1)
  else checkContiguous entries

/-- `timedelta.total_seconds()`, a float. -/
def totalSeconds (micros : Int) : ℚ :=
  let seconds : ℚ := nearestDouble ((micros.natAbs : ℚ) / 1000000)
  if micros < 0 then -seconds else seconds

/-- Seconds from `period_end` to `now`. -/
def ageOf (fromisoformat : FromIsoFormat) (now checkpoint : Json) : Except PyError ℚ := do
  let later ← parseTs fromisoformat now
  let earlier ← parseTs fromisoformat (← checkpoint.item Key.periodEnd)
  if later.aware = earlier.aware then return totalSeconds (later.micros - earlier.micros)
  else .error .typeError

/-- `age > bound`: only a number compares with a number, and NaN is above and below none. -/
def exceeds (age : ℚ) (bound : Json) : Except PyError Bool :=
  match bound with
  | .float .nan => .ok false
  | bound =>
      match bound.number? with
      | some limit => .ok (decide (limit < .ofRat age))
      | none => .error .typeError

def checkAge (fromisoformat : FromIsoFormat) (now maxAge checkpoint : Json) : Check Unit :=
  if maxAge.isNull || now.isNull then .ok ()
  else do
    let age ← raising (ageOf fromisoformat now checkpoint)
    if ← raising (exceeds age maxAge) then
      let stale : Result :=
        { verdict := .staleCheckpoint, completeness := .failed, reason := some .checkpointTooOld
          checkpointAgeS := some (age.num.tdiv age.den) }
      .error (.returned stale rfl)
    else return ()

/-- The checkpoint's seq, when it has the shape of one and is proven for this agent. -/
def checkCheckpoint [Interpreter] (checkpoint proof root agentId : Json) : Check Int :=
  match (checkpoint.get Key.seq).int? with
  | none => fail .malformed .checkpointShape
  | some cpSeq =>
      if !checkpoint.isDict || !Json.eq (checkpoint.get Key.v) (.str checkpointV) ||
          !isHex64 (checkpoint.get Key.head) then
        fail .malformed .checkpointShape
      else do
        let own ← raising (equals (checkpoint.get Key.agentId) agentId)
        if !own then fail .checkpointUnproven .checkpointOtherAgent
        else
          let proven ← raising (provenIn checkpoint proof root)
          if !proven then fail .checkpointUnproven .notInRoot else return cpSeq

/-- The answer once the checkpoint is proven and fresh. -/
def conclude (entries : List Entry) (checkpoint : Json) (cpSeq fromSeq lastSeq : Int)
    (windowAnchor : WindowAnchor) : Check Result :=
  if cpSeq < fromSeq then
    return { verdict := .continuityOnly, completeness := .notEvaluated
             reason := some .checkpointBeforeWindow, lastSeq := some lastSeq
             checkpointSeq := some cpSeq, fromSeq := some fromSeq, windowAnchor := some windowAnchor }
  else if lastSeq < cpSeq then
    return { verdict := .truncated, completeness := .failed, atSeq := some (lastSeq + 1)
             reason := some .logShorterThanCheckpoint, lastSeq := some lastSeq
             checkpointSeq := some cpSeq }
  else
    match entries[(cpSeq - fromSeq).toNat]? with
    | none => .error (.raised .indexError)
    | some sealedEntry =>
        if !Json.eq (sealedEntry.value.get Key.head) (checkpoint.get Key.head) then
          fail .checkpointMismatch .headDiffersFromCheckpoint (some cpSeq)
        else do
          let asOf ← raising (checkpoint.item Key.periodEnd)
          if lastSeq = cpSeq then
            return { verdict := if 1 < fromSeq then .windowComplete else .complete
                     completeness := if 1 < fromSeq then .provenFromSeq else .proven
                     lastSeq := some lastSeq, asOf := some asOf
                     fromSeq := some fromSeq, windowAnchor := some windowAnchor }
          else
            return { verdict := if 1 < fromSeq then .windowCompleteUnsealedTail
                                else .completeUnsealedTail
                     completeness := if 1 < fromSeq then .provenFromSeqThroughCheckpoint
                                     else .provenThroughCheckpoint
                     lastSeq := some lastSeq, checkpointSeq := some cpSeq
                     unsealedEntries := some (lastSeq - cpSeq), asOf := some asOf
                     fromSeq := some fromSeq, windowAnchor := some windowAnchor }

/-- The arguments of `verify_trail`; null is the default of all but `from_seq`. -/
structure Request where
  entries : Json
  checkpoint : Json := .null
  proof : Json := .null
  root : Json := .null
  now : Json := .null
  maxCheckpointAgeS : Json := .null
  anchor : Json := .null
  anchorProof : Json := .null
  anchorRoot : Json := .null
  fromSeq : Json := .int 1

/-- The last check: completeness needs a checkpoint. -/
def checkComplete [Interpreter] (fromisoformat : FromIsoFormat) (request : Request) (agentId : Json)
    (fromSeq lastSeq : Int) (windowAnchor : WindowAnchor) (entries : List Entry) : Check Result :=
  if request.checkpoint.isNull then
    return { verdict := .continuityOnly, completeness := .notEvaluated, reason := some .noCheckpoint
             lastSeq := some lastSeq, fromSeq := some fromSeq, windowAnchor := some windowAnchor }
  else do
    let cpSeq ← checkCheckpoint request.checkpoint request.proof request.root agentId
    checkAge fromisoformat request.now request.maxCheckpointAgeS request.checkpoint
    conclude entries request.checkpoint cpSeq fromSeq lastSeq windowAnchor

/-- The checks after the shape of the entries, on a log with a first and a last one. -/
def checkTrail [Interpreter] (fromisoformat : FromIsoFormat) (request : Request) (agentId : Json)
    (first : Entry) (entries : List Entry) (last : Entry) : Check Result :=
  match request.fromSeq.properInt? with
  | none => .error (.raised .valueError)
  | some fromSeq =>
      if fromSeq < 1 then .error (.raised .valueError)
      else do
        checkOrder fromSeq entries
        walk agentId fromSeq (fromSeq - 1) .null entries
        let windowAnchor ← checkAnchor request.anchor request.anchorProof request.anchorRoot agentId
          fromSeq first
        checkCounter fromSeq first entries
        checkComplete fromisoformat request agentId fromSeq last.seq windowAnchor entries

def runTrail [Interpreter] (fromisoformat : FromIsoFormat) (request : Request) : Check Result :=
  match request.entries with
  | .list (value :: rest) => do
      let (first, others) ← readLog value rest
      checkTrail fromisoformat request (value.get Key.agentId) first (first :: others)
        ((first :: others).getLast (List.cons_ne_nil _ _))
  | _ => fail .malformed .emptyOrNotAList

def verifyTrail [Interpreter] (fromisoformat : FromIsoFormat) (request : Request) : Except PyError Result :=
  match runTrail fromisoformat request with
  | .ok result => .ok result
  | .error (.returned result _) => .ok result
  | .error (.raised error) => .error error

end Argentum.Trail
