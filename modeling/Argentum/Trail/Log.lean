import Argentum.Trail.Encodable
import Argentum.Trail.Merkle

/-! The producer's side of `trail_head.py`: entries of an agent's log, each
committing to the one before it, a checkpoint of a log, and the seal of a period
over the checkpoints of its agents. -/
namespace Argentum.Trail
open Text Sha256 Jcs

namespace Key

def v : Str := ofString "v"
def agentId : Str := ofString "agent_id"
def seq : Str := ofString "seq"
def actionRef : Str := ofString "action_ref"
def prevHead : Str := ofString "prev_head"
def agentSeq : Str := ofString "agent_seq"
def head : Str := ofString "head"
def periodEnd : Str := ofString "period_end"

end Key

def entryV : Str := ofString "trail-head-ref/v1"

def checkpointV : Str := ofString "trail-head-ref/v1/checkpoint"

/-- `str.lower` on a character of the ASCII text that reaches it. -/
def lower (c : CodePoint) : CodePoint :=
  if 65 ≤ c.val ∧ c.val ≤ 90 then Fin.ofNat 0x110000 (c.val + 32) else c

/-- `_is_hex64`. White space that `bytes.fromhex` skips counts among the 64 characters. -/
def isHex64 : Json → Bool
  | .str s => s.length = 64 && (fromhex s).isSome && decide (s = s.map lower)
  | _ => false

def sha256Jcs [Interpreter] (value : Json) : Except PyError Str := do return hexOf (sha256 (← jcsBytes value))

/-- What `datetime.fromisoformat` returns: microseconds, counted in UTC when the
text carries an offset. Naive and aware values do not subtract. -/
structure DateTime where
  micros : Int
  aware : Bool

/-- `datetime.fromisoformat`, none where it raises `ValueError`. Which texts it
reads depends on the interpreter's version, so the module takes it as given. -/
abbrev FromIsoFormat := Str → Option DateTime

def parseTs (fromisoformat : FromIsoFormat) : Json → Except PyError DateTime
  | .str ts =>
      if ts.getLast? = some 90 then
        match fromisoformat (ts.dropLast ++ ofString "+00:00") with
        | some time => .ok time
        | none => .error .valueError
      else .error .valueError
  | _ => .error .valueError

def atLeastOne (value : Json) : Bool := value.properInt?.any fun n => decide (1 ≤ n)

/-- The dictionary `entry_preimage` builds: nulls are left out. -/
def preimageItems (agentId seq actionRef prevHead agentSeq : Json) : List (Str × Json) :=
  [(Key.v, .str entryV), (Key.agentId, agentId), (Key.seq, seq), (Key.actionRef, actionRef)] ++
    (if prevHead.isNull then [] else [(Key.prevHead, prevHead)]) ++
    (if agentSeq.isNull then [] else [(Key.agentSeq, agentSeq)])

def entryPreimage (agentId seq actionRef prevHead agentSeq : Json) :
    Except PyError (List (Str × Json)) :=
  if !atLeastOne seq then .error .valueError
  else if !isHex64 actionRef then .error .valueError
  else if (seq.properInt? == some 1) != prevHead.isNull then .error .valueError
  else if !prevHead.isNull && !isHex64 prevHead then .error .valueError
  else if !agentSeq.isNull && !atLeastOne agentSeq then .error .valueError
  else .ok (preimageItems agentId seq actionRef prevHead agentSeq)

/-- The entry of a preimage: `v` goes, `head` comes. -/
def entryOf (pre : List (Str × Json)) (head : Str) : Json :=
  .dict (pre.filter (fun item => item.1 ≠ Key.v) ++ [(Key.head, .str head)])

def makeEntry [Interpreter] (agentId seq actionRef prevHead agentSeq : Json) : Except PyError Json := do
  let pre ← entryPreimage agentId seq actionRef prevHead agentSeq
  return entryOf pre (← sha256Jcs (.dict pre))

/-- `log[-1]["head"] if log else None`. -/
def lastHead (log : List Json) : Except PyError Json :=
  match log.getLast? with
  | some last => last.item Key.head
  | none => .ok .null

def appendEntry [Interpreter] (log : List Json) (agentId actionRef agentSeq : Json) : Except PyError (List Json) := do
  let prev ← lastHead log
  let entry ← makeEntry agentId (.int (log.length + 1)) actionRef prev agentSeq
  return log ++ [entry]

/-- A log from `append_entry` calls, each with an action ref and an agent counter or null. -/
def appendAll [Interpreter] (agentId : Json) (log : List Json) : List (Json × Json) → Except PyError (List Json)
  | [] => .ok log
  | (actionRef, agentSeq) :: rest => do appendAll agentId (← appendEntry log agentId actionRef agentSeq) rest

def makeCheckpoint (fromisoformat : FromIsoFormat) (agentId periodEnd : Json) (log : List Json) :
    Except PyError Json :=
  match log.getLast? with
  | none => .error .valueError
  | some last => do
      let _ ← parseTs fromisoformat periodEnd
      return .dict [(Key.v, .str checkpointV), (Key.agentId, agentId), (Key.periodEnd, periodEnd),
        (Key.seq, ← last.item Key.seq), (Key.head, ← last.item Key.head)]

def checkpointDigest [Interpreter] (cp : Json) : Except PyError Str := sha256Jcs cp

/-- The sort key of a checkpoint. No order relates a string id to another value,
so in a period with a string id the others raise. -/
def sealKey (cp : Json) : Except PyError (Str × Json) := do
  match ← cp.item Key.agentId with
  | .str agentId => return (agentId, cp)
  | _ => .error .typeError

/-- The members of `{c["period_end"] for c in ordered}` are one. -/
def onePeriod : List Json → Except PyError Unit
  | [] => .error .valueError
  | first :: rest =>
      if !(first :: rest).all Json.hashable then .error .typeError
      else if !rest.all (fun other => first.same other) then .error .valueError
      else .ok ()

structure Sealed where
  root : Str
  tree : MerkleTree
  digests : List Str

/-- The order of `sorted(checkpoints, key=lambda c: c["agent_id"])`. -/
abbrev byAgent (a b : Str × Json) : Prop := a.1 ≤ b.1

def sealPeriod [Interpreter] (checkpoints : List Json) : Except PyError Sealed := do
  let keyed ← mapOk sealKey checkpoints
  let ordered := keyed.insertionSort byAgent
  if (ordered.map Prod.fst).Nodup then
    onePeriod (← mapOk (fun c => c.2.item Key.periodEnd) ordered)
    let digests ← mapOk (fun c => checkpointDigest c.2) ordered
    let tree ← buildMerkleTree digests
    return { root := tree.root, tree, digests }
  else .error .valueError

theorem isHex64_hexOf {bytes : Bytes} (length : bytes.length = 32) : isHex64 (.str (hexOf bytes)) = true := by
  have digits : ∀ n : Fin 16, lower (hexDigit n) = hexDigit n := by decide
  have lowered : (hexOf bytes).map lower = hexOf bytes := by
    refine (List.map_congr_left fun c member => ?_).trans (List.map_id _)
    obtain ⟨n, rfl⟩ := hexOf_digits bytes c member
    exact digits n
  simp [isHex64, lowered, length]

theorem sha256Jcs_eq_ok_iff [Interpreter] {value : Json} {digest : Str} : sha256Jcs value = .ok digest ↔
    ∃ bytes, jcsBytes value = .ok bytes ∧ hexOf (sha256 bytes) = digest := by
  rw [sha256Jcs, bind_ok_iff]
  simp [pure, Except.pure]

/-- The arguments `entry_preimage` accepts. -/
structure Fits (seq actionRef prevHead agentSeq : Json) : Prop where
  positive : atLeastOne seq = true
  refShape : isHex64 actionRef = true
  genesis : seq.properInt? = some 1 ↔ prevHead = .null
  prevShape : prevHead = .null ∨ isHex64 prevHead = true
  counter : agentSeq = .null ∨ atLeastOne agentSeq = true

section
variable {agentId seq actionRef prevHead agentSeq : Json} {pre : List (Str × Json)} {head : Str}

theorem entryPreimage_eq_ok_iff :
    entryPreimage agentId seq actionRef prevHead agentSeq = .ok pre ↔
      Fits seq actionRef prevHead agentSeq ∧ pre = preimageItems agentId seq actionRef prevHead agentSeq := by
  have nullPrev : prevHead.isNull = true ↔ prevHead = .null := Json.isNull_iff
  have nullCounter : agentSeq.isNull = true ↔ agentSeq = .null := Json.isNull_iff
  unfold entryPreimage
  split
  · rename_i small
    exact ⟨fun failed => by contradiction, fun fits => by simp [fits.1.positive] at small⟩
  split
  · rename_i shape
    exact ⟨fun failed => by contradiction, fun fits => by simp [fits.1.refShape] at shape⟩
  split
  · rename_i genesis
    refine ⟨fun failed => by contradiction, fun fits => ?_⟩
    have linked := fits.1.genesis
    rw [← nullPrev] at linked
    rw [bne_iff_ne, ne_eq, Bool.eq_iff_iff, beq_iff_eq] at genesis
    exact absurd linked genesis
  split
  · rename_i shape
    refine ⟨fun failed => by contradiction, fun fits => ?_⟩
    rw [Bool.and_eq_true, Bool.not_eq_true', Bool.not_eq_true', ← Bool.not_eq_true, nullPrev] at shape
    rcases fits.1.prevShape with null | hex
    · exact absurd null shape.1
    · simp [hex] at shape
  split
  · rename_i shape
    refine ⟨fun failed => by contradiction, fun fits => ?_⟩
    rw [Bool.and_eq_true, Bool.not_eq_true', Bool.not_eq_true', ← Bool.not_eq_true, nullCounter] at shape
    rcases fits.1.counter with null | positive
    · exact absurd null shape.1
    · simp [positive] at shape
  · rename_i large shape genesis prevShape counterShape
    rw [Except.ok.injEq]
    refine ⟨fun same => ⟨⟨by simpa using large, by simpa using shape, ?_, ?_, ?_⟩, same.symm⟩,
      fun fits => fits.2.symm⟩
    · rw [bne_iff_ne, ne_eq, not_not, Bool.eq_iff_iff, beq_iff_eq] at genesis
      rw [genesis, nullPrev]
    · rw [← nullPrev]
      cases null : prevHead.isNull <;> simp_all
    · rw [← nullCounter]
      cases null : agentSeq.isNull <;> simp_all

theorem entryOf_preimageItems : entryOf (preimageItems agentId seq actionRef prevHead agentSeq) head =
    .dict ([(Key.agentId, agentId), (Key.seq, seq), (Key.actionRef, actionRef)] ++
      (if prevHead.isNull then [] else [(Key.prevHead, prevHead)]) ++
      (if agentSeq.isNull then [] else [(Key.agentSeq, agentSeq)]) ++ [(Key.head, .str head)]) := by
  unfold preimageItems
  cases prevHead.isNull <;> cases agentSeq.isNull <;> rfl

/-- What `get` reads from an entry is what the preimage was made of. -/
theorem get_entryOf [Interpreter] {entry : Json}
    (made : entry = entryOf (preimageItems agentId seq actionRef prevHead agentSeq) head) :
    entry.isDict = true ∧ entry.get Key.agentId = agentId ∧ entry.get Key.seq = seq ∧
      entry.get Key.actionRef = actionRef ∧ entry.get Key.prevHead = prevHead ∧
      entry.get Key.agentSeq = agentSeq ∧ entry.get Key.head = .str head := by
  rw [entryOf_preimageItems] at made
  subst made
  have nullPrev : prevHead.isNull = true ↔ prevHead = .null := Json.isNull_iff
  have nullCounter : agentSeq.isNull = true ↔ agentSeq = .null := Json.isNull_iff
  cases noPrev : prevHead.isNull <;> cases noCounter : agentSeq.isNull <;>
    refine ⟨rfl, rfl, rfl, rfl, ?_, ?_, rfl⟩ <;>
    first | rfl | exact (nullPrev.mp noPrev).symm | exact (nullCounter.mp noCounter).symm

theorem has_entryOf [Interpreter] {entry : Json}
    (made : entry = entryOf (preimageItems agentId seq actionRef prevHead agentSeq) head) :
    entry.has Key.agentSeq = !agentSeq.isNull ∧
      (prevHead.isNull = false → entry.item Key.prevHead = .ok prevHead) ∧
      entry.item Key.seq = .ok seq ∧ entry.item Key.head = .ok (.str head) := by
  rw [entryOf_preimageItems] at made
  subst made
  cases prevHead.isNull <;> cases agentSeq.isNull <;>
    refine ⟨rfl, fun present => ?_, rfl, rfl⟩ <;>
    first | rfl | contradiction

theorem lookup_preimageItems : let items := preimageItems agentId seq actionRef prevHead agentSeq
    items.lookup Key.seq = some seq ∧ items.lookup Key.actionRef = some actionRef ∧
      items.lookup Key.prevHead = (if prevHead.isNull then none else some prevHead) ∧
      items.lookup Key.agentSeq = (if agentSeq.isNull then none else some agentSeq) := by
  unfold preimageItems
  cases prevHead.isNull <;> cases agentSeq.isNull <;> exact ⟨rfl, rfl, rfl, rfl⟩

end

theorem isHex64_str {value : Json} (shape : isHex64 value = true) : ∃ s, value = .str s := by
  cases value with
  | str s => exact ⟨s, rfl⟩
  | null | bool | int | float | list | dict => simp [isHex64] at shape

/-- Text that `bytes.fromhex` reads is ASCII. -/
theorem fromhex_ascii {text : Str} {bytes : Bytes} (read : fromhex text = some bytes) : ∀ c ∈ text, c.val < 128 := by
  have space : ∀ c : CodePoint, isSpace c = true → c.val < 128 := by
    intro c white
    simp only [isSpace, Bool.or_eq_true, Bool.and_eq_true, decide_eq_true_eq, beq_iff_eq] at white
    omega
  have digit : ∀ c n, digitValue? c = some n → c.val < 128 := by
    intro c n value
    unfold digitValue? at value
    split at value
    · omega
    split at value
    · omega
    split at value
    · omega
    · cases value
  induction text using fromhex.induct generalizing bytes with
  | case1 => exact List.forall_mem_nil _
  | case2 c white => exact List.forall_mem_singleton.mpr (space c white)
  | case3 c other => simp [fromhex, other] at read
  | case4 c d rest white ih =>
      rw [fromhex, if_pos white] at read
      exact List.forall_mem_cons.mpr ⟨space c white, ih read⟩
  | case5 c d rest other high low second first ih =>
      simp only [fromhex, if_neg other, first, second] at read
      obtain ⟨inner, later, _⟩ := Option.map_eq_some_iff.mp read
      exact List.forall_mem_cons.mpr ⟨digit c high first, List.forall_mem_cons.mpr ⟨digit d low second, ih later⟩⟩
  | case6 c d rest other none =>
      unfold fromhex at read
      rw [if_neg other] at read
      split at read
      · rename_i high low first second
        exact absurd second (none high low first)
      · cases read

theorem encodable_of_isHex64 {value : Json} (shape : isHex64 value = true) : Encodable value := by
  obtain ⟨s, rfl⟩ := isHex64_str shape
  simp only [isHex64, Bool.and_eq_true] at shape
  obtain ⟨bytes, read⟩ := Option.isSome_iff_exists.mp shape.1.2
  exact .str fun c member => Or.inl (Nat.lt_trans (fromhex_ascii read c member) (by decide))

/-- A preimage encodes when each of its fields does; one that is left out is null. -/
theorem encodable_preimage_iff {agentId seq actionRef prevHead agentSeq : Json} :
    Encodable (.dict (preimageItems agentId seq actionRef prevHead agentSeq)) ↔
      Encodable agentId ∧ Encodable seq ∧ Encodable actionRef ∧ Encodable prevHead ∧ Encodable agentSeq := by
  have v : Scalar Key.v := scalar_ascii rfl
  have agent : Scalar Key.agentId := scalar_ascii rfl
  have counted : Scalar Key.seq := scalar_ascii rfl
  have ref : Scalar Key.actionRef := scalar_ascii rfl
  have prev : Scalar Key.prevHead := scalar_ascii rfl
  have counter : Scalar Key.agentSeq := scalar_ascii rfl
  have version : Encodable (.str entryV) := .str (scalar_ascii rfl)
  have optional : ∀ (key : Str) (value : Json), Scalar key → ((∀ item ∈ if value.isNull then [] else [(key, value)],
      Scalar item.1 ∧ Encodable item.2) ↔ Encodable value) := by
    intro key value scalar
    cases null : value.isNull with
    | true =>
        rw [Json.isNull_iff.mp null]
        exact ⟨fun _ => .null, fun _ => List.forall_mem_nil _⟩
    | false =>
        rw [if_neg Bool.false_ne_true, List.forall_mem_singleton]
        exact and_iff_right scalar
  rw [encodable_dict_iff, preimageItems, List.forall_mem_append, List.forall_mem_append, optional _ _ prev,
    optional _ _ counter]
  simp only [List.forall_mem_cons, List.not_mem_nil, false_implies, implies_true, v, agent, counted, ref, version,
    true_and, and_true, and_assoc]

theorem depth_of_isHex64 {value : Json} (shape : isHex64 value = true) : value.depth = 0 := by
  obtain ⟨s, rfl⟩ := isHex64_str shape
  rfl

theorem atLeastOne_int {value : Json} (positive : atLeastOne value = true) : ∃ n, value = .int n ∧ 1 ≤ n := by
  cases value with
  | int n => exact ⟨n, rfl, by simpa [atLeastOne, Json.properInt?] using positive⟩
  | null | bool | float | str | list | dict => simp [atLeastOne, Json.properInt?] at positive

/-- Under an agent id of few levels, the preimage is not nested too deep. -/
theorem shallow_preimage [Interpreter] {agentId seq actionRef prevHead agentSeq : Json} (flat : agentId.depth ≤ 2)
    (fits : Fits seq actionRef prevHead agentSeq) :
    Shallow (.dict (preimageItems agentId seq actionRef prevHead agentSeq)) := by
  have seqDepth : seq.depth = 0 := by
    obtain ⟨n, rfl, _⟩ := atLeastOne_int fits.positive
    rfl
  have prevDepth : prevHead.depth = 0 := by
    rcases fits.prevShape with rfl | hex
    · rfl
    · exact depth_of_isHex64 hex
  have counterDepth : agentSeq.depth = 0 := by
    rcases fits.counter with rfl | positive
    · rfl
    · obtain ⟨n, rfl, _⟩ := atLeastOne_int positive
      rfl
  refine shallow_of_depth (depth_dict_le_iff.mpr fun item member => ?_)
  simp only [preimageItems, List.mem_append, List.mem_cons, List.not_mem_nil, or_false] at member
  rcases member with ((rfl | rfl | rfl | rfl) | optional) | optional
  · exact Nat.zero_le 2
  · exact flat
  · exact seqDepth.le.trans (Nat.zero_le 2)
  · exact (depth_of_isHex64 fits.refShape).le.trans (Nat.zero_le 2)
  · split at optional
    · cases optional
    · rw [List.mem_singleton.mp optional]
      exact prevDepth.le.trans (Nat.zero_le 2)
  · split at optional
    · cases optional
    · rw [List.mem_singleton.mp optional]
      exact counterDepth.le.trans (Nat.zero_le 2)

theorem str_of_canonical {value : Json} {s : Str} (same : canonical value = canonical (.str s)) :
    value = .str s := canonical_eq_str.mp same

/-- Accepted arguments whose preimages have the same bytes are the same. -/
theorem preimage_injective [Interpreter] {agentId seq actionRef prevHead agentSeq : Json}
    {agentId' seq' actionRef' prevHead' agentSeq' : Json} {bytes : Bytes}
    (fits : Fits seq actionRef prevHead agentSeq) (fits' : Fits seq' actionRef' prevHead' agentSeq')
    (first : jcsBytes (.dict (preimageItems agentId seq actionRef prevHead agentSeq)) = .ok bytes)
    (second : jcsBytes (.dict (preimageItems agentId' seq' actionRef' prevHead' agentSeq')) = .ok bytes) :
    seq = seq' ∧ actionRef = actionRef' ∧ prevHead = prevHead' ∧ agentSeq = agentSeq' := by
  have same := canonical_lookup (canonical_of_jcsBytes first second)
  obtain ⟨seqFound, refFound, prevFound, counterFound⟩ :=
    @lookup_preimageItems agentId seq actionRef prevHead agentSeq
  obtain ⟨seqFound', refFound', prevFound', counterFound'⟩ :=
    @lookup_preimageItems agentId' seq' actionRef' prevHead' agentSeq'
  refine ⟨?_, ?_, ?_, ?_⟩
  · have seqs := same Key.seq
    rw [seqFound, seqFound'] at seqs
    obtain ⟨n, rfl, _⟩ := atLeastOne_int fits.positive
    obtain ⟨n', rfl, _⟩ := atLeastOne_int fits'.positive
    rw [canonical_int (Option.some.inj seqs)]
  · have refs := same Key.actionRef
    rw [refFound, refFound'] at refs
    obtain ⟨s, rfl⟩ := isHex64_str fits'.refShape
    exact str_of_canonical (Option.some.inj refs)
  · have prevs := same Key.prevHead
    rw [prevFound, prevFound'] at prevs
    rcases fits.prevShape with rfl | shape <;> rcases fits'.prevShape with rfl | shape'
    · rfl
    · obtain ⟨s, rfl⟩ := isHex64_str shape'
      simp [Json.isNull] at prevs
    · obtain ⟨s, rfl⟩ := isHex64_str shape
      simp [Json.isNull] at prevs
    · obtain ⟨s, rfl⟩ := isHex64_str shape
      obtain ⟨s', rfl⟩ := isHex64_str shape'
      exact str_of_canonical (Option.some.inj prevs)
  · have counters := same Key.agentSeq
    rw [counterFound, counterFound'] at counters
    rcases fits.counter with rfl | positive <;> rcases fits'.counter with rfl | positive'
    · rfl
    · obtain ⟨n, rfl, _⟩ := atLeastOne_int positive'
      simp [Json.isNull] at counters
    · obtain ⟨n, rfl, _⟩ := atLeastOne_int positive
      simp [Json.isNull] at counters
    · obtain ⟨n, rfl, _⟩ := atLeastOne_int positive
      obtain ⟨n', rfl, _⟩ := atLeastOne_int positive'
      rw [canonical_int (Option.some.inj counters)]

/-- An entry `append_entry` makes: its preimage was accepted and hashed. -/
theorem makeEntry_ok [Interpreter] {agentId seq actionRef prevHead agentSeq entry : Json}
    (made : makeEntry agentId seq actionRef prevHead agentSeq = .ok entry) :
    Fits seq actionRef prevHead agentSeq ∧ ∃ bytes,
      jcsBytes (.dict (preimageItems agentId seq actionRef prevHead agentSeq)) = .ok bytes ∧
      entry = entryOf (preimageItems agentId seq actionRef prevHead agentSeq) (hexOf (sha256 bytes)) := by
  obtain ⟨pre, accepted, made⟩ := bind_ok made
  obtain ⟨digest, hashed, made⟩ := bind_ok made
  obtain ⟨fits, rfl⟩ := entryPreimage_eq_ok_iff.mp accepted
  obtain ⟨bytes, encoded, rfl⟩ := sha256Jcs_eq_ok_iff.mp hashed
  exact ⟨fits, bytes, encoded, (Except.ok.inj made).symm⟩

/-- The head the entry at index `i` commits to: null at the start. -/
def headBefore (log : List Json) : Nat → Json
  | 0 => .null
  | i + 1 => (log[i]?.map fun entry => entry.get Key.head).getD .null

/-- Every entry was made from its call, after the entry before it. -/
structure Chained [Interpreter] (agentId : Json) (calls : List (Json × Json)) (log : List Json) : Prop where
  length : log.length = calls.length
  made : ∀ (i : Nat) (entry : Json), log[i]? = some entry →
    ∃ actionRef agentSeq, calls[i]? = some (actionRef, agentSeq) ∧
    makeEntry agentId (.int (i + 1)) actionRef (headBefore log i) agentSeq = .ok entry

theorem headBefore_append {log later : List Json} {i : Nat} (inside : i ≤ log.length) :
    headBefore (log ++ later) i = headBefore log i := by
  cases i with
  | zero => rfl
  | succ i => rw [headBefore, headBefore, List.getElem?_append_left (by omega)]

/-- `log[-1]["head"] if log else None` of a chained log. -/
theorem Chained.lastHead [Interpreter] {agentId : Json} {calls : List (Json × Json)} {log : List Json}
    (chained : Chained agentId calls log) : lastHead log = .ok (headBefore log log.length) := by
  cases last : log.getLast? with
  | none =>
      obtain rfl := List.getLast?_eq_none_iff.mp last
      rfl
  | some latest =>
      obtain ⟨i, counted⟩ : ∃ i, log.length = i + 1 := by
        cases log with
        | nil => contradiction
        | cons first rest => exact ⟨rest.length, rfl⟩
      have found := last
      rw [List.getLast?_eq_getElem?, counted, Nat.add_sub_cancel] at found
      obtain ⟨ref, counter, _, made⟩ := chained.made i latest found
      obtain ⟨_, bytes, _, entry⟩ := makeEntry_ok made
      rw [Trail.lastHead, last, counted, headBefore, found, Option.map_some, Option.getD_some,
        (get_entryOf entry).2.2.2.2.2.2]
      exact (has_entryOf entry).2.2.2

theorem appendEntry_chained [Interpreter] {agentId actionRef agentSeq : Json} {calls : List (Json × Json)}
    {log next : List Json} (chained : Chained agentId calls log)
    (appended : appendEntry log agentId actionRef agentSeq = .ok next) :
    Chained agentId (calls ++ [(actionRef, agentSeq)]) next := by
  obtain ⟨prev, previous, appended⟩ := bind_ok appended
  obtain ⟨entry, made, appended⟩ := bind_ok appended
  obtain rfl := Except.ok.inj appended
  obtain rfl := Except.ok.inj (chained.lastHead.symm.trans previous)
  refine ⟨by simp [chained.length], ?_⟩
  intro i found stored
  rcases Nat.lt_trichotomy i log.length with inside | rfl | outside
  · rw [List.getElem?_append_left inside] at stored
    obtain ⟨ref, counter, call, madeBefore⟩ := chained.made i found stored
    refine ⟨ref, counter, ?_, by rwa [headBefore_append inside.le]⟩
    rwa [List.getElem?_append_left (by rwa [← chained.length])]
  · rw [List.getElem?_concat_length, Option.some.injEq] at stored
    subst stored
    refine ⟨actionRef, agentSeq, by rw [chained.length, List.getElem?_concat_length], ?_⟩
    rwa [headBefore_append le_rfl]
  · rw [List.getElem?_eq_none (by simp; omega)] at stored
    contradiction

/-- Every log built by `append_entry` is chained. -/
theorem appendAll_chained [Interpreter] {agentId : Json} {calls done : List (Json × Json)} {log built : List Json}
    (chained : Chained agentId done log) (appended : appendAll agentId log calls = .ok built) :
    Chained agentId (done ++ calls) built := by
  induction calls generalizing done log with
  | nil =>
      cases appended
      rwa [List.append_nil]
  | cons call rest ih =>
      obtain ⟨next, first, appended⟩ := bind_ok appended
      rw [List.append_cons]
      exact ih (appendEntry_chained chained first) appended

theorem chained_nil [Interpreter] (agentId : Json) : Chained agentId [] [] := ⟨rfl, by simp⟩

/-- Arguments of `append_entry` that fit at any place of a log. -/
structure ValidCall (call : Json × Json) : Prop where
  refShape : isHex64 call.1 = true
  counter : call.2 = .null ∨ atLeastOne call.2 = true
  encodable : Encodable call.2

/-- What an entry links to: nothing at the first place, a head at the others. -/
def LinkAt (i : Nat) (prevHead : Json) : Prop := (i = 0 ∧ prevHead = .null) ∨ (i ≠ 0 ∧ isHex64 prevHead = true)

section
variable {agentId actionRef prevHead agentSeq : Json} {calls : List (Json × Json)} {log : List Json} {i : Nat}

theorem headBefore_succ {value : Json} (found : log[i]? = some value) :
    headBefore log (i + 1) = value.get Key.head := by
  rw [headBefore, found]
  rfl

theorem linkAt_headBefore (heads : ∀ value ∈ log, isHex64 (value.get Key.head) = true) (inside : i ≤ log.length) :
    LinkAt i (headBefore log i) := by
  cases i with
  | zero => exact Or.inl ⟨rfl, rfl⟩
  | succ i =>
      rw [headBefore_succ (List.getElem?_eq_getElem inside)]
      exact Or.inr ⟨Nat.succ_ne_zero i, heads _ (List.getElem_mem inside)⟩

theorem LinkAt.fits (link : LinkAt i prevHead) (ref : isHex64 actionRef = true)
    (counter : agentSeq = .null ∨ atLeastOne agentSeq = true) : Fits (.int (i + 1)) actionRef prevHead agentSeq := by
  refine ⟨by simp [atLeastOne, Json.properInt?], ref, ?_, link.imp And.right And.right, counter⟩
  rcases link with ⟨rfl, null⟩ | ⟨later, hex⟩
  · simp [Json.properInt?, null]
  · have notNull : prevHead ≠ .null := fun null => by
      rw [null] at hex
      cases hex
    simp [Json.properInt?, notNull, later]

theorem LinkAt.encodable (link : LinkAt i prevHead) : Encodable prevHead := by
  rcases link with ⟨_, null⟩ | ⟨_, hex⟩
  · rw [null]
    exact .null
  · exact encodable_of_isHex64 hex

theorem Chained.head_isHex64 [Interpreter] (chained : Chained agentId calls log) :
    ∀ value ∈ log, isHex64 (value.get Key.head) = true := by
  intro value member
  obtain ⟨i, found⟩ := List.mem_iff_getElem?.mp member
  obtain ⟨_, _, _, made⟩ := chained.made i _ found
  obtain ⟨_, bytes, _, entry⟩ := makeEntry_ok made
  rw [(get_entryOf entry).2.2.2.2.2.2]
  exact isHex64_hexOf (length_sha256 bytes)

theorem appendEntry_isOk [Interpreter] (chained : Chained agentId calls log) (agent : Encodable agentId)
    (flat : agentId.depth ≤ 2)
    (valid : ValidCall (actionRef, agentSeq)) (short : (log.length : Int) + 1 ≤ 2 ^ 53 - 1) :
    ∃ next, appendEntry log agentId actionRef agentSeq = .ok next := by
  have link := linkAt_headBefore chained.head_isHex64 le_rfl
  have fits := link.fits valid.refShape valid.counter
  obtain ⟨bytes, encoded⟩ := jcsBytes_isOk_iff.mpr ⟨shallow_preimage flat fits, encodable_preimage_iff.mpr
    ⟨agent, .int ⟨by omega, short⟩, encodable_of_isHex64 valid.refShape, link.encodable, valid.encodable⟩⟩
  have hashed : sha256Jcs (.dict (preimageItems agentId (.int (log.length + 1)) actionRef (headBefore log log.length)
      agentSeq)) = .ok (hexOf (sha256 bytes)) := bind_ok_iff.mpr ⟨bytes, encoded, rfl⟩
  obtain ⟨entry, made⟩ : ∃ entry, makeEntry agentId (.int (log.length + 1)) actionRef (headBefore log log.length)
      agentSeq = .ok entry := by
    rw [makeEntry, entryPreimage_eq_ok_iff.mpr ⟨fits, rfl⟩]
    exact ⟨_, bind_ok_iff.mpr ⟨_, rfl, bind_ok_iff.mpr ⟨_, hashed, rfl⟩⟩⟩
  exact ⟨log ++ [entry], bind_ok_iff.mpr ⟨_, chained.lastHead, bind_ok_iff.mpr ⟨entry, made, rfl⟩⟩⟩

end

/-- Valid calls make a log. -/
theorem appendAll_isOk [Interpreter] {agentId : Json} {calls done : List (Json × Json)} {log : List Json}
    (chained : Chained agentId done log) (agent : Encodable agentId) (flat : agentId.depth ≤ 2)
    (valid : ∀ call ∈ calls, ValidCall call)
    (short : (done.length : Int) + calls.length ≤ 2 ^ 53 - 1) : ∃ built, appendAll agentId log calls = .ok built := by
  induction calls generalizing done log with
  | nil => exact ⟨log, rfl⟩
  | cons call rest ih =>
      rw [List.length_cons] at short
      obtain ⟨next, first⟩ := appendEntry_isOk chained agent flat (valid call List.mem_cons_self) (by
        rw [chained.length]
        push_cast at short
        omega)
      obtain ⟨built, later⟩ := ih (appendEntry_chained chained first)
        (fun call member => valid call (List.mem_cons_of_mem _ member)) (by
          rw [List.length_append, List.length_singleton]
          push_cast at short ⊢
          omega)
      exact ⟨built, bind_ok_iff.mpr ⟨next, first, later⟩⟩

/-- A checkpoint repeats the seq and the head of the log's last entry. -/
theorem makeCheckpoint_ok {fromisoformat : FromIsoFormat} {agentId periodEnd cp : Json} {log : List Json}
    (made : makeCheckpoint fromisoformat agentId periodEnd log = .ok cp) :
    (∃ time, parseTs fromisoformat periodEnd = .ok time) ∧ ∃ last seq head, log.getLast? = some last ∧
      last.item Key.seq = .ok seq ∧ last.item Key.head = .ok head ∧
      cp = .dict [(Key.v, .str checkpointV), (Key.agentId, agentId), (Key.periodEnd, periodEnd),
        (Key.seq, seq), (Key.head, head)] := by
  unfold makeCheckpoint at made
  split at made
  · contradiction
  rename_i last final
  obtain ⟨time, parsed, made⟩ := bind_ok made
  obtain ⟨seq, seqFound, made⟩ := bind_ok made
  obtain ⟨head, headFound, made⟩ := bind_ok made
  exact ⟨⟨time, parsed⟩, last, seq, head, final, seqFound, headFound, (Except.ok.inj made).symm⟩

/-- The checkpoint of the first `m` entries has seq `m` and the head of entry `m`. -/
theorem Chained.checkpoint [Interpreter] {fromisoformat : FromIsoFormat} {agentId periodEnd cp : Json}
    {calls : List (Json × Json)} {log : List Json} {m : Nat} (chained : Chained agentId calls log)
    (within : 1 ≤ m ∧ m ≤ log.length)
    (made : makeCheckpoint fromisoformat agentId periodEnd (log.take m) = .ok cp) :
    ∃ own head, log[m - 1]? = some own ∧ own.get Key.head = .str head ∧
      cp = .dict [(Key.v, .str checkpointV), (Key.agentId, agentId), (Key.periodEnd, periodEnd),
        (Key.seq, .int m), (Key.head, .str head)] := by
  obtain ⟨_, own, seq, head, final, seqFound, headFound, rfl⟩ := makeCheckpoint_ok made
  have found : log[m - 1]? = some own := by
    rw [List.getLast?_eq_getElem?, List.length_take, min_eq_left within.2,
      List.getElem?_take_of_lt (by omega)] at final
    exact final
  obtain ⟨_, _, _, entryMade⟩ := chained.made _ _ found
  obtain ⟨_, bytes, _, entry⟩ := makeEntry_ok entryMade
  obtain ⟨_, _, seqRead, headRead⟩ := has_entryOf entry
  obtain rfl := Except.ok.inj (seqRead.symm.trans seqFound)
  obtain rfl := Except.ok.inj (headRead.symm.trans headFound)
  refine ⟨own, _, found, (get_entryOf entry).2.2.2.2.2.2, ?_⟩
  rw [show ((m - 1 : Nat) : Int) + 1 = m by omega]

end Argentum.Trail
