import Argentum.Trail.Soundness
import Mathlib.Tactic.Ring

/-! Honest logs verify. A window of a log passes every check of the verifier up to
the checkpoint, at every start and length, and the answer then depends only on
where the window ends and which entries the checkpoint seals. -/
namespace Argentum.Trail
open Text Sha256 Jcs

/-- The calls of an agent that counts its entries, or of one that does not. -/
def countedCalls (counted : Bool) (actionRefs : List Json) : List (Json × Json) :=
  actionRefs.mapIdx fun i actionRef => (actionRef, if counted then .int (i + 1) else .null)

/-- `L[k-1:j]`. -/
def windowOf (log : List Json) (k j : Nat) : List Json := (log.take j).drop (k - 1)

theorem getElem?_windowOf {log : List Json} {k j i : Nat} : (windowOf log k j)[i]? =
    if k - 1 + i < j then log[k - 1 + i]? else none := by
  rw [windowOf, List.getElem?_drop, List.getElem?_take]

section
variable [Interpreter] {agentId : Str} {counted : Bool} {actionRefs : List Json} {log : List Json}

/-- An entry `append_entry` made, as the verifier reads it. -/
theorem Chained.read {calls : List (Json × Json)} (chained : Chained (.str agentId) calls log)
    {i : Nat} {value : Json} (found : log[i]? = some value) :
    ∃ (e : Entry) (actionRef agentSeq : Json), calls[i]? = some (actionRef, agentSeq) ∧ e.value = value ∧
      e.seq = i + 1 ∧ Checks (.str agentId) e ∧ value.get Key.agentId = .str agentId ∧
      value.get Key.prevHead = headBefore log i ∧ value.get Key.agentSeq = agentSeq ∧
      value.has Key.agentSeq = !agentSeq.isNull ∧
      (headBefore log i ≠ .null → value.item Key.prevHead = .ok (headBefore log i)) := by
  obtain ⟨actionRef, agentSeq, call, made⟩ := chained.made i value found
  obtain ⟨fits, bytes, encoded, entry⟩ := makeEntry_ok made
  obtain ⟨_, agentGot, seqGot, refGot, prevGot, counterGot, headGot⟩ := get_entryOf entry
  obtain ⟨hasCounter, prevItem, _, _⟩ := has_entryOf entry
  have headShape : isHex64 (value.get Key.head) = true := by
    rw [headGot]
    exact isHex64_hexOf (length_sha256 bytes)
  have refShape : isHex64 (value.get Key.actionRef) = true := by
    rw [refGot]
    exact fits.refShape
  refine ⟨⟨value, i + 1, seqGot, headShape, refShape⟩, actionRef, agentSeq, call, rfl, rfl, ?_, agentGot, prevGot,
    counterGot, hasCounter, ?_⟩
  · simp only [Checks, refGot, prevGot, counterGot]
    exact ⟨fits, bytes, encoded, headGot⟩
  · intro linked
    apply prevItem
    exact Json.isNull_false_iff.mpr linked

/-- An entry of an honest log with its place in the agent's own count. -/
theorem Chained.entry (chained : Chained (.str agentId) (countedCalls counted actionRefs) log)
    {i : Nat} {value : Json} (found : log[i]? = some value) :
    ∃ e : Entry, e.value = value ∧ e.seq = i + 1 ∧ Checks (.str agentId) e ∧
      value.get Key.agentId = .str agentId ∧ value.get Key.prevHead = headBefore log i ∧
      value.get Key.agentSeq = (if counted then .int (i + 1) else .null) ∧
      value.has Key.agentSeq = counted ∧
      (headBefore log i ≠ .null → value.item Key.prevHead = .ok (headBefore log i)) := by
  obtain ⟨e, _, agentSeq, call, shown, seq, checks, agent, prev, counterGot, has, prevItem⟩ := chained.read found
  have counter : agentSeq = if counted then .int (i + 1) else .null := by
    rw [countedCalls, List.getElem?_mapIdx, Option.map_eq_some_iff] at call
    obtain ⟨_, _, call⟩ := call
    exact (Prod.mk.inj call).2.symm
  refine ⟨e, shown, seq, checks, agent, prev, counterGot.trans counter, ?_, prevItem⟩
  rw [has, counter]
  cases counted <;> rfl

end

/-- The entries of a window, each with its place in the log. -/
structure Window (log : List Json) (k : Nat) (entries : List Entry) : Prop where
  place : ∀ (i : Nat) (e : Entry), entries[i]? = some e → log[k - 1 + i]? = some e.value ∧ e.seq = k + i

section
variable [Interpreter] {agentId : Str} {counted : Bool} {actionRefs : List Json} {log : List Json} {k j : Nat}
  {entries : List Entry}

theorem Chained.window {calls : List (Json × Json)} (chained : Chained (.str agentId) calls log) (start : 1 ≤ k) :
    ∃ entries, entries.map Entry.value = windowOf log k j ∧ Window log k entries := by
  have each : ∀ values : List Json, ∀ at_ : Nat,
      (∀ (i : Nat) (value : Json), values[i]? = some value → log[at_ + i]? = some value) →
      ∃ entries : List Entry, entries.map Entry.value = values ∧
        ∀ (i : Nat) (e : Entry), entries[i]? = some e →
          log[at_ + i]? = some e.value ∧ e.seq = (at_ + i : Nat) + 1 := by
    intro values
    induction values with
    | nil => exact fun _ _ => ⟨[], rfl, by simp⟩
    | cons value rest ih =>
        intro at_ placed
        obtain ⟨e, _, _, _, rfl, seq, _⟩ := chained.read (placed 0 value rfl)
        obtain ⟨entries, shown, later⟩ := ih (at_ + 1) (fun i value found => by
          rw [Nat.add_assoc, Nat.add_comm 1 i]
          exact placed (i + 1) value found)
        refine ⟨e :: entries, by rw [List.map_cons, shown], fun i other found => ?_⟩
        cases i with
        | zero =>
            obtain rfl := Option.some.inj found
            exact ⟨placed 0 _ rfl, seq⟩
        | succ i =>
            obtain ⟨placedLater, seqLater⟩ := later i other found
            rw [Nat.add_assoc, Nat.add_comm 1 i] at placedLater seqLater
            exact ⟨placedLater, seqLater⟩
  obtain ⟨entries, shown, placed⟩ := each (windowOf log k j) (k - 1) (fun i value found => by
    rw [getElem?_windowOf] at found
    split at found
    · exact found
    · contradiction)
  refine ⟨entries, shown, ⟨fun i e found => ?_⟩⟩
  obtain ⟨value, seq⟩ := placed i e found
  exact ⟨value, by omega⟩

/-- An entry of a window passes its own check, and states the head before it. -/
theorem Window.read {calls : List (Json × Json)} (window : Window log k entries)
    (chained : Chained (.str agentId) calls log) (start : 1 ≤ k) {i : Nat} {e : Entry} (found : entries[i]? = some e) :
    e.seq = k + i ∧ Checks (.str agentId) e ∧ e.value.get Key.agentId = .str agentId ∧
      e.value.get Key.prevHead = headBefore log (k - 1 + i) := by
  obtain ⟨stored, seq⟩ := window.place i e found
  obtain ⟨e', _, _, _, same, seq', checks, agent, prev, _⟩ := chained.read stored
  refine ⟨seq, ?_, agent, prev⟩
  rw [show ((k - 1 + i : Nat) : Int) + 1 = k + i by omega] at seq'
  unfold Checks at checks ⊢
  rwa [same, seq', ← seq] at checks

/-- What the checks read from the entry at one place of a window. -/
structure EntryAt (agentId : Str) (counted : Bool) (log : List Json) (k i : Nat) (e : Entry) : Prop where
  seq : e.seq = k + i
  checks : Checks (.str agentId) e
  agent : e.value.get Key.agentId = .str agentId
  prev : e.value.get Key.prevHead = headBefore log (k - 1 + i)
  counter : e.value.get Key.agentSeq = if counted then .int (k + i) else .null
  hasCounter : e.value.has Key.agentSeq = counted
  prevItem : headBefore log (k - 1 + i) ≠ .null → e.value.item Key.prevHead = .ok (headBefore log (k - 1 + i))

theorem Window.entryAt (window : Window log k entries)
    (chained : Chained (.str agentId) (countedCalls counted actionRefs) log) (start : 1 ≤ k)
    {i : Nat} {e : Entry} (found : entries[i]? = some e) : EntryAt agentId counted log k i e := by
  obtain ⟨seq, checks, agent, prev⟩ := window.read chained start found
  obtain ⟨_, _, _, _, _, _, counter, hasCounter, prevItem⟩ := chained.entry (window.place i e found).1
  rw [show ((k - 1 + i : Nat) : Int) + 1 = k + i by omega] at counter
  exact ⟨seq, checks, agent, prev, counter, hasCounter, prevItem⟩

omit [Interpreter] in
theorem Window.checkOrder (window : Window log k entries) : checkOrder k entries = .ok () := by
  have sorted : (entries.map Entry.seq).Pairwise (· ≤ ·) := by
    rw [List.pairwise_iff_getElem]
    intro i i' inside inside' before
    rw [List.length_map] at inside inside'
    rw [List.getElem_map, List.getElem_map,
      (window.place i _ (List.getElem?_eq_getElem inside)).2,
      (window.place i' _ (List.getElem?_eq_getElem inside')).2]
    omega
  simp [Trail.checkOrder, sorted.insertionSort_eq]

theorem Window.walk {calls : List (Json × Json)} (window : Window log k entries)
    (chained : Chained (.str agentId) calls log) (start : 1 ≤ k) :
    walk (.str agentId) k (k - 1) .null entries = .ok () := by
  rw [walk_eq_ok_iff]
  intro i e found
  obtain ⟨seq, checks, _, prev⟩ := window.read chained start found
  refine ⟨by rw [seq]; omega, checks, fun later => ?_⟩
  rw [seq] at later
  cases i with
  | zero => omega
  | succ i =>
      obtain ⟨before, foundBefore⟩ : ∃ before, entries[i]? = some before := by
        have bound := (List.getElem?_eq_some_iff.mp found).1
        exact ⟨_, List.getElem?_eq_getElem (show i < entries.length by omega)⟩
      obtain ⟨s, text⟩ := isHex64_str before.headShape
      have stored := (window.place i before foundBefore).1
      rw [prev, ← Nat.add_assoc, headBefore_succ stored, statedBefore, foundBefore,
        Option.map_some, Option.getD_some, text]
      exact Json.eq_str.mpr rfl

omit [Interpreter] in
theorem checkContiguous_ok {entries : List Entry} {count : Int}
    (counter : ∀ (i : Nat) (e : Entry), entries[i]? = some e →
      e.value.get Key.agentSeq = .int (count + i)) : checkContiguous entries = .ok () := by
  induction entries generalizing count with
  | nil => rfl
  | cons a rest ih =>
      cases rest with
      | nil => rfl
      | cons b rest =>
          have first := counter 0 a rfl
          have second := counter 1 b rfl
          have later := @ih (count + 1) fun i e found => by
            rw [counter (i + 1) e found]
            congr 1
            push_cast
            ring
          unfold checkContiguous
          rw [first, second]
          have next : Json.eq (.int (count + (1 : Nat))) (.int (count + (0 : Nat) + 1)) = true := by
            simp [Json.eq, Json.same, Json.number?]
          simp only [nextCount, Json.int?, raising, Except.mapError, bind, Except.bind, next,
            Bool.not_true, Bool.false_eq_true, if_false]
          exact later

theorem Window.checkCounter {first : Entry} {others : List Entry} (window : Window log k (first :: others))
    (chained : Chained (.str agentId) (countedCalls counted actionRefs) log) (start : 1 ≤ k) :
    checkCounter k first (first :: others) = .ok () := by
  have each : ∀ e ∈ first :: others, e.value.has Key.agentSeq = counted := by
    intro e member
    obtain ⟨i, found⟩ := List.mem_iff_getElem?.mp member
    exact (window.entryAt chained start found).hasCounter
  cases counted with
  | false =>
      have none : (first :: others).filter (fun e => e.value.has Key.agentSeq) = [] := by
        rw [List.filter_eq_nil_iff]
        exact fun e member => by simp [each e member]
      simp [Trail.checkCounter, none]
  | true =>
      have all : (first :: others).filter (fun e => e.value.has Key.agentSeq) = first :: others := by
        rw [List.filter_eq_self]
        exact each
      have counter : ∀ (i : Nat) (e : Entry), (first :: others)[i]? = some e →
          e.value.get Key.agentSeq = .int (k + i) := fun i e found =>
        (window.entryAt chained start found).counter
      have contiguous := checkContiguous_ok counter
      have opening : ((k : Int) = 1 && !Json.eq (first.value.get Key.agentSeq) (.int 1)) = false := by
        by_cases full : (k : Int) = 1
        · rw [counter 0 first rfl]
          simp [full, Json.eq, Json.same]
        · simp [full]
      unfold Trail.checkCounter
      simp only [all, opening]
      simpa using contiguous

end

/-- A sealed checkpoint is proven under the root with the proof `get_proof` gives. -/
theorem provenIn_getProof [Interpreter] {checkpoints : List Json} {period : Sealed} {cp : Json}
    (sealing : sealPeriod checkpoints = .ok period) (member : cp ∈ checkpoints) :
    ∃ digest proof, checkpointDigest cp = .ok digest ∧ getProof digest period.tree = .ok proof ∧
      provenIn cp (.list (proof.map .str)) (.str period.root) = .ok true := by
  obtain ⟨ordered, seals⟩ := sealPeriod_eq_ok_iff.mp sealing
  obtain ⟨agentId, stored⟩ := seals.mem.1 cp member
  obtain ⟨digest, leaf, hashed⟩ := seals.leaf.1 _ stored
  obtain ⟨proof, found, verified⟩ := verifyInclusion_getProof seals.tree leaf
  refine ⟨digest, proof, hashed, found, ?_⟩
  rw [← seals.root] at verified
  simp only [provenIn, Json.isNull, Bool.or_self, Bool.false_eq_true, if_false]
  rw [hashed]
  exact verified

/-- What a window's first link is certified by: nothing, or the sealed checkpoint
of the entries before the window. -/
inductive AnchorOf [Interpreter] (fromisoformat : FromIsoFormat) (agentId : Str) (log : List Json) (k : Nat) :
    Json → Json → Json → WindowAnchor → Prop where
  | absent : AnchorOf fromisoformat agentId log k .null .null .null
      (if k = 1 then .genesis else .uncertified)
  | sealed (periodEnd anchor : Json) (checkpoints : List Json) (period : Sealed) (digest : Str)
      (proof : List Str) : 1 < k →
      makeCheckpoint fromisoformat (.str agentId) periodEnd (log.take (k - 1)) = .ok anchor →
      anchor ∈ checkpoints → sealPeriod checkpoints = .ok period →
      checkpointDigest anchor = .ok digest → getProof digest period.tree = .ok proof →
      AnchorOf fromisoformat agentId log k anchor (.list (proof.map .str)) (.str period.root) .certified

section
variable [Interpreter] {fromisoformat : FromIsoFormat} {agentId : Str} {counted : Bool} {actionRefs : List Json}
  {log : List Json} {k m j : Nat} {entries : List Entry} {anchor anchorProof anchorRoot : Json}
  {windowAnchor : WindowAnchor}

/-- The checkpoint of the first `m` entries, as the verifier reads it. -/
theorem Chained.checkpoint_shape {periodEnd cp : Json}
    (chained : Chained (.str agentId) (countedCalls counted actionRefs) log)
    (within : 1 ≤ m ∧ m ≤ log.length)
    (made : makeCheckpoint fromisoformat (.str agentId) periodEnd (log.take m) = .ok cp) :
    cp.isDict = true ∧ cp.get Key.v = .str checkpointV ∧ cp.get Key.agentId = .str agentId ∧
      cp.get Key.seq = .int m ∧ cp.get Key.head = headBefore log m ∧
      isHex64 (cp.get Key.head) = true ∧ cp.item Key.periodEnd = .ok periodEnd := by
  obtain ⟨own, head, found, ownHead, rfl⟩ := chained.checkpoint within made
  obtain ⟨e, rfl, _⟩ := chained.entry found
  have before : headBefore log m = .str head := by
    rw [show m = m - 1 + 1 by omega, headBefore_succ found, ownHead]
  have shape := e.headShape
  rw [ownHead] at shape
  rw [before]
  exact ⟨rfl, rfl, rfl, rfl, rfl, shape, rfl⟩

theorem AnchorOf.check {first : Entry}
    (anchored : AnchorOf fromisoformat agentId log k anchor anchorProof anchorRoot windowAnchor)
    (chained : Chained (.str agentId) (countedCalls counted actionRefs) log)
    (start : 1 ≤ k ∧ k ≤ log.length) (at_ : EntryAt agentId counted log k 0 first) :
    checkAnchor anchor anchorProof anchorRoot (.str agentId) k first = .ok windowAnchor := by
  cases anchored with
  | absent =>
      by_cases full : k = 1
      · simp [checkAnchor, Json.isNull, full]
      · simp [checkAnchor, Json.isNull, full]
  | sealed periodEnd anchor checkpoints period digest proof window made member sealing hashed found =>
      obtain ⟨dict, v, agent, seq, head, shape, _⟩ :=
        chained.checkpoint_shape ⟨by omega, by omega⟩ made
      obtain ⟨digest', proof', hashed', found', proven⟩ := provenIn_getProof sealing member
      obtain rfl := Except.ok.inj (hashed.symm.trans hashed')
      obtain rfl := Except.ok.inj (found.symm.trans found')
      obtain ⟨s, text⟩ := isHex64_str shape
      rw [text] at head shape
      have notNull : anchor.isNull = false := by
        cases anchor <;> first | rfl | contradiction
      have link := at_.prevItem (by rw [Nat.add_zero, ← head]; simp)
      rw [Nat.add_zero, ← head] at link
      have adjacent : Json.eq (.int ((k - 1 : Nat) : Int)) (.int ((k : Int) - 1)) = true := by
        rw [show ((k - 1 : Nat) : Int) = (k : Int) - 1 by omega]
        simp [Json.eq, Json.same]
      have later : ¬ (k : Int) = 1 := by omega
      have strings : ∀ t : Str, Json.eq (.str t) (.str t) = true := fun t => Json.eq_str.mpr rfl
      simp [checkAnchor, notNull, dict, v, agent, equals_str, seq, text, shape, strings, proven, link, adjacent,
        later, Json.properInt?, raising, Except.mapError, bind, Except.bind, pure, Except.pure]

/-- A window of an honest log passes every check before the checkpoint. -/
theorem runTrail_window {request : Request}
    (chained : Chained (.str agentId) (countedCalls counted actionRefs) log)
    (given : request.entries = .list (windowOf log k j)) (begun : request.fromSeq = .int k)
    (start : 1 ≤ k) (inside : k ≤ j) (bound : j ≤ log.length)
    (anchored : AnchorOf fromisoformat agentId log k request.anchor request.anchorProof request.anchorRoot
      windowAnchor) :
    ∃ entries, Window log k entries ∧ entries.length = j + 1 - k ∧
      runTrail fromisoformat request =
        checkComplete fromisoformat request (.str agentId) k j windowAnchor entries := by
  obtain ⟨entries, shown, window⟩ := chained.window (j := j) start
  have length : entries.length = j + 1 - k := by
    rw [← List.length_map (f := Entry.value), shown, windowOf, List.length_drop, List.length_take]
    omega
  refine ⟨entries, window, length, ?_⟩
  cases entries with
  | nil => simp at length; omega
  | cons first others =>
      have at_ : ∀ (i : Nat) (e : Entry), (first :: others)[i]? = some e →
          EntryAt agentId counted log k i e := fun i e found => window.entryAt chained start found
      have agent : first.value.get Key.agentId = .str agentId := (at_ 0 first rfl).agent
      have read : readLog first.value (others.map Entry.value) = .ok (first, others) := by
        rw [readLog_eq_ok_iff, agent]
        refine ⟨rfl, rfl, Json.eq_str.mpr rfl, fun e member => ?_⟩
        obtain ⟨i, found⟩ := List.mem_iff_getElem?.mp (List.mem_cons_of_mem first member)
        rw [equals_str, (at_ i e found).agent]
        exact congrArg _ (Json.eq_str.mpr rfl)
      have last : ((first :: others).getLast (by simp)).seq = j := by
        have final : (first :: others)[others.length]? = some ((first :: others).getLast (by simp)) := by
          rw [← List.getLast?_eq_some_getLast, List.getLast?_eq_getElem?]
          rfl
        rw [(at_ _ _ final).seq]
        rw [List.length_cons] at length
        omega
      have listed : windowOf log k j = first.value :: others.map Entry.value := shown.symm
      have positive : ¬ (k : Int) < 1 := by omega
      rw [runTrail, given, listed]
      simp only [agent, read, bind, Except.bind, checkTrail, begun, Json.properInt?, positive,
        if_false, window.checkOrder, window.walk chained start,
        anchored.check chained ⟨start, by omega⟩ (at_ 0 first rfl), window.checkCounter chained start, last]

theorem checkCheckpoint_made {periodEnd cp : Json} {proof root : Json}
    (chained : Chained (.str agentId) (countedCalls counted actionRefs) log)
    (within : 1 ≤ m ∧ m ≤ log.length)
    (made : makeCheckpoint fromisoformat (.str agentId) periodEnd (log.take m) = .ok cp)
    (proven : provenIn cp proof root = .ok true) :
    cp.isNull = false ∧ checkCheckpoint cp proof root (.str agentId) = .ok (m : Int) := by
  obtain ⟨dict, v, agent, seq, head, shape, _⟩ := chained.checkpoint_shape within made
  have notNull : cp.isNull = false := by
    cases cp <;> first | rfl | contradiction
  have strings : ∀ t : Str, Json.eq (.str t) (.str t) = true := fun t => Json.eq_str.mpr rfl
  refine ⟨notNull, ?_⟩
  simp [checkCheckpoint, dict, v, agent, equals_str, seq, shape, strings, proven, Json.int?, raising,
    Except.mapError, bind, Except.bind, pure, Except.pure]

/-- Entries from `k` to `j`, all after the checkpoint at `m`. -/
def beforeWindow (k m j : Nat) (windowAnchor : WindowAnchor) : Result :=
  { verdict := .continuityOnly, completeness := .notEvaluated, reason := some .checkpointBeforeWindow
    lastSeq := some j, checkpointSeq := some m, fromSeq := some k, windowAnchor := some windowAnchor }

/-- Entries that stop at `j`, before the checkpoint at `m`. -/
def truncatedAt (m j : Nat) : Result :=
  { verdict := .truncated, completeness := .failed, atSeq := some (j + 1)
    reason := some .logShorterThanCheckpoint, lastSeq := some j, checkpointSeq := some m }

/-- Entries from `k` to the checkpoint at `j`. -/
def wholeAnswer (k j : Nat) (periodEnd : Json) (windowAnchor : WindowAnchor) : Result :=
  { verdict := if k = 1 then .complete else .windowComplete
    completeness := if k = 1 then .proven else .provenFromSeq
    lastSeq := some j, asOf := some periodEnd, fromSeq := some k, windowAnchor := some windowAnchor }

/-- Entries from `k` to `j`, of which those after `m` are not sealed. -/
def unsealedTail (k m j : Nat) (periodEnd : Json) (windowAnchor : WindowAnchor) : Result :=
  { verdict := if k = 1 then .completeUnsealedTail else .windowCompleteUnsealedTail
    completeness := if k = 1 then .provenThroughCheckpoint else .provenFromSeqThroughCheckpoint
    lastSeq := some j, checkpointSeq := some m, unsealedEntries := some (j - m)
    asOf := some periodEnd, fromSeq := some k, windowAnchor := some windowAnchor }

/-- Entries from `k` to `j` without a checkpoint. -/
def continuityOnly (k j : Nat) (windowAnchor : WindowAnchor) : Result :=
  { verdict := .continuityOnly, completeness := .notEvaluated, reason := some .noCheckpoint
    lastSeq := some j, fromSeq := some k, windowAnchor := some windowAnchor }

def answer (k m j : Nat) (periodEnd : Json) (windowAnchor : WindowAnchor) : Result :=
  if m < k then beforeWindow k m j windowAnchor
  else if j < m then truncatedAt m j
  else if j = m then wholeAnswer k j periodEnd windowAnchor
  else unsealedTail k m j periodEnd windowAnchor

theorem Window.conclude {periodEnd cp : Json} (window : Window log k entries) (length : entries.length = j + 1 - k)
    (chained : Chained (.str agentId) (countedCalls counted actionRefs) log)
    (start : 1 ≤ k) (inside : k ≤ j) (within : 1 ≤ m ∧ m ≤ log.length)
    (made : makeCheckpoint fromisoformat (.str agentId) periodEnd (log.take m) = .ok cp) :
    conclude entries cp m k j windowAnchor = .ok (answer k m j periodEnd windowAnchor) := by
  obtain ⟨_, _, _, _, head, shape, asOf⟩ := chained.checkpoint_shape within made
  unfold Trail.conclude answer wholeAnswer unsealedTail
  by_cases before : m < k
  · rw [if_pos (by omega), if_pos before]
    rfl
  rw [if_neg (by omega), if_neg before]
  by_cases short : j < m
  · rw [if_pos (by omega), if_pos short]
    rfl
  rw [if_neg (by omega), if_neg short]
  have index : ((m : Int) - k).toNat = m - k := by omega
  obtain ⟨e, found⟩ : ∃ e, entries[m - k]? = some e :=
    ⟨_, List.getElem?_eq_getElem (show m - k < entries.length by omega)⟩
  have stored := (window.place _ _ found).1
  rw [show k - 1 + (m - k) = m - 1 by omega] at stored
  have sealedHead : e.value.get Key.head = cp.get Key.head := by
    rw [head, show m = m - 1 + 1 by omega, headBefore_succ stored]
  obtain ⟨s, text⟩ := isHex64_str shape
  have matching : Json.eq (e.value.get Key.head) (cp.get Key.head) = true := by
    rw [sealedHead, text]
    exact Json.eq_str.mpr rfl
  have opening : (1 : Int) < k ↔ ¬ k = 1 := by omega
  rw [index, found]
  simp only [matching, Bool.not_true, Bool.false_eq_true, if_false, asOf, raising, Except.mapError,
    bind, Except.bind, pure, Except.pure, opening, ite_not]
  by_cases last : j = m
  · rw [if_pos (by omega), if_pos last]
  · rw [if_neg (by omega), if_neg last]

/-- The checkpoints of one period that can be sealed: one an agent, each hashable. -/
structure Sealable [Interpreter] (periodEnd : Json) (checkpoints : List Json) : Prop where
  agents : ∃ ids : List Str, ids.Nodup ∧
    mapOk (fun c => c.item Key.agentId) checkpoints = .ok (ids.map .str)
  ends : ∀ c ∈ checkpoints, c.item Key.periodEnd = .ok periodEnd
  digests : ∀ c ∈ checkpoints, ∃ digest, checkpointDigest c = .ok digest

omit [Interpreter] in
theorem keyed_of_agents {checkpoints : List Json} {ids : List Str}
    (named : mapOk (fun c => c.item Key.agentId) checkpoints = .ok (ids.map .str)) :
    mapOk sealKey checkpoints = .ok (ids.zip checkpoints) ∧ (ids.zip checkpoints).map Prod.fst = ids := by
  induction checkpoints generalizing ids with
  | nil =>
      have none : ids.map Json.str = [] := (Except.ok.inj named).symm
      obtain rfl := List.map_eq_nil_iff.mp none
      exact ⟨rfl, rfl⟩
  | cons cp rest ih =>
      obtain ⟨agent, others, first, later, same⟩ := List.forall₂_cons_left_iff.mp (mapOk_eq_ok_iff.mp named)
      cases ids with
      | nil => contradiction
      | cons id ids =>
          obtain ⟨rfl, rfl⟩ := List.cons.inj same
          obtain ⟨keyed, firsts⟩ := ih (mapOk_eq_ok_iff.mpr later)
          refine ⟨mapOk_eq_ok_iff.mpr (.cons ?_ (mapOk_eq_ok_iff.mp keyed)), by simp [firsts]⟩
          rw [sealKey, first]
          rfl

omit [Interpreter] in
/-- Where one period end is a string, all of them are that string. -/
theorem onePeriod_eq_ok_iff {text : Str} {ends : List Json} (member : .str text ∈ ends) :
    onePeriod ends = .ok () ↔ ∀ e ∈ ends, e = .str text := by
  have same_str : ∀ e : Json, e.same (.str text) = true → e = .str text := by
    intro e same
    refine Json.eq_str.mp ?_
    cases e with
    | float x => cases x <;> exact same
    | null | bool | int | str | list | dict => exact same
  cases ends with
  | nil => cases member
  | cons first rest =>
      constructor
      · intro one
        rw [onePeriod] at one
        split at one
        · cases one
        split at one
        · cases one
        rename_i all
        rw [Bool.not_eq_true, Bool.not_eq_false', List.all_eq_true] at all
        obtain rfl : first = .str text := by
          rcases List.mem_cons.mp member with here | later
          · exact here.symm
          · exact same_str first (all _ later)
        rintro e (_ | ⟨_, later⟩)
        · rfl
        · exact Json.str_eq.mp (all e later)
      · intro each
        obtain rfl := each first List.mem_cons_self
        have hashes : (Json.str text :: rest).all Json.hashable = true := by
          rw [List.all_eq_true]
          intro e inside
          rw [each e inside]
          rfl
        have one : rest.all (fun other => (Json.str text).same other) = true := by
          rw [List.all_eq_true]
          intro e inside
          rw [each e (List.mem_cons_of_mem _ inside)]
          exact Json.str_eq.mpr rfl
        simp [onePeriod, hashes, one]

/-- Such checkpoints are sealed. -/
theorem Sealable.seals {text : Str} {checkpoints : List Json} (sealable : Sealable (.str text) checkpoints)
    (full : checkpoints ≠ []) : ∃ period, sealPeriod checkpoints = .ok period := by
  obtain ⟨ids, distinct, named⟩ := sealable.agents
  obtain ⟨keyed, firsts⟩ := keyed_of_agents named
  have perm := List.perm_insertionSort byAgent (ids.zip checkpoints)
  have within : ∀ item ∈ (ids.zip checkpoints).insertionSort byAgent, item.2 ∈ checkpoints :=
    fun item member => (List.of_mem_zip (perm.mem_iff.mp member)).2
  have length : ((ids.zip checkpoints).insertionSort byAgent).length = checkpoints.length := by
    rw [perm.length_eq, (mapOk_eq_ok_iff.mp keyed).length_eq]
  have fullOrdered : (ids.zip checkpoints).insertionSort byAgent ≠ [] := by
    rw [← List.length_pos_iff, length]
    exact List.length_pos_iff.mpr full
  obtain ⟨ends, found⟩ := mapOk_isOk (f := fun c : Str × Json => c.2.item Key.periodEnd)
    fun item member => ⟨_, sealable.ends _ (within item member)⟩
  obtain ⟨digests, hashed⟩ := mapOk_isOk (f := fun c : Str × Json => checkpointDigest c.2)
    fun item member => sealable.digests _ (within item member)
  have nonempty : ∀ {β : Type} {f : Str × Json → Except PyError β} {ys : List β},
      mapOk f ((ids.zip checkpoints).insertionSort byAgent) = .ok ys → ys ≠ [] := by
    intro β f ys mapped
    rw [← List.length_pos_iff, ← (mapOk_eq_ok_iff.mp mapped).length_eq]
    exact List.length_pos_iff.mpr fullOrdered
  obtain ⟨tree, built⟩ := buildMerkleTree_isOk (nonempty hashed) fun digest member => by
    obtain ⟨item, _, hash⟩ := (mapOk_mem hashed).2 digest member
    obtain ⟨bytes, _, rfl⟩ := sha256Jcs_eq_ok_iff.mp hash
    exact ⟨_, length_sha256 bytes, rfl⟩
  have same : ∀ e ∈ ends, e = .str text := fun e member => by
    obtain ⟨item, inside, read⟩ := (mapOk_mem found).2 e member
    rw [sealable.ends _ (within item inside)] at read
    exact (Except.ok.inj read).symm
  have one : onePeriod ends = .ok () := by
    obtain ⟨e, member⟩ := List.exists_mem_of_ne_nil ends (nonempty found)
    exact (onePeriod_eq_ok_iff (same e member ▸ member)).mpr same
  refine ⟨⟨tree.root, tree, digests⟩, sealPeriod_eq_ok_iff.mpr ⟨_, ⟨_, keyed, rfl⟩, ?_,
    ⟨ends, found, one⟩, hashed, built, rfl⟩⟩
  rw [(perm.map Prod.fst).nodup_iff, firsts]
  exact distinct

/-- Only such checkpoints are. -/
theorem sealable_of_sealPeriod {text : Str} {checkpoints : List Json} {period : Sealed} {cp : Json}
    (sealing : sealPeriod checkpoints = .ok period) (member : cp ∈ checkpoints)
    (ended : cp.item Key.periodEnd = .ok (.str text)) : Sealable (.str text) checkpoints := by
  obtain ⟨ordered, seals⟩ := sealPeriod_eq_ok_iff.mp sealing
  obtain ⟨keyed, keys, sorted⟩ := seals.keyed
  obtain ⟨ends, found, one⟩ := seals.onePeriod
  have stored : ∀ c ∈ checkpoints, ∃ agentId, (agentId, c) ∈ ordered := seals.mem.1
  have endIn : .str text ∈ ends := by
    obtain ⟨_, place⟩ := stored cp member
    obtain ⟨e, inside, read⟩ := (mapOk_mem found).1 _ place
    obtain rfl := Except.ok.inj (ended.symm.trans read)
    exact inside
  refine ⟨⟨keyed.map Prod.fst, ?_, ?_⟩, fun c given => ?_, fun c given => ?_⟩
  · rw [← ((List.perm_insertionSort byAgent keyed).map Prod.fst).nodup_iff, sorted]
    exact seals.distinct
  · rw [mapOk_eq_ok_iff, List.forall₂_map_right_iff, List.forall₂_map_right_iff]
    exact (mapOk_eq_ok_iff.mp keys).imp fun c key named => by
      obtain ⟨rfl, read⟩ := sealKey_ok named
      exact read
  · obtain ⟨_, place⟩ := stored c given
    obtain ⟨e, inside, read⟩ := (mapOk_mem found).1 _ place
    rw [read, (onePeriod_eq_ok_iff endIn).mp one e inside]
  · obtain ⟨_, place⟩ := stored c given
    obtain ⟨digest, _, hashed⟩ := seals.leaf.1 _ place
    exact ⟨digest, hashed⟩

/-- The request for a window under a sealed checkpoint. -/
def windowRequest (log : List Json) (k j : Nat) (checkpoint proof root anchor anchorProof anchorRoot : Json) :
    Request :=
  { entries := .list (windowOf log k j), checkpoint, proof, root, anchor, anchorProof, anchorRoot
    fromSeq := .int k }

theorem verify_window {periodEnd cp proof root : Json}
    (chained : Chained (.str agentId) (countedCalls counted actionRefs) log)
    (start : 1 ≤ k) (inside : k ≤ j) (bound : j ≤ log.length) (within : 1 ≤ m ∧ m ≤ log.length)
    (made : makeCheckpoint fromisoformat (.str agentId) periodEnd (log.take m) = .ok cp)
    (proven : provenIn cp proof root = .ok true)
    (anchored : AnchorOf fromisoformat agentId log k anchor anchorProof anchorRoot windowAnchor) :
    verifyTrail fromisoformat (windowRequest log k j cp proof root anchor anchorProof anchorRoot) =
      .ok (answer k m j periodEnd windowAnchor) := by
  obtain ⟨entries, window, length, ran⟩ :=
    @runTrail_window _ fromisoformat _ _ _ _ _ _ windowAnchor
      (windowRequest log k j cp proof root anchor anchorProof anchorRoot)
      chained rfl rfl start inside bound anchored
  obtain ⟨notNull, checked⟩ := checkCheckpoint_made chained within made proven
  have concluded : conclude entries cp m k j windowAnchor = .ok (answer k m j periodEnd windowAnchor) :=
    window.conclude length chained start inside within made
  have fresh : checkAge fromisoformat .null .null cp = .ok () := rfl
  rw [verifyTrail, ran]
  simp [checkComplete, windowRequest, notNull, checked, fresh, concluded, bind, Except.bind]

theorem verify_unsealed
    (chained : Chained (.str agentId) (countedCalls counted actionRefs) log)
    (start : 1 ≤ k) (inside : k ≤ j) (bound : j ≤ log.length)
    (anchored : AnchorOf fromisoformat agentId log k anchor anchorProof anchorRoot windowAnchor) :
    verifyTrail fromisoformat (windowRequest log k j .null .null .null anchor anchorProof anchorRoot) =
      .ok (continuityOnly k j windowAnchor) := by
  obtain ⟨entries, window, length, ran⟩ :=
    @runTrail_window _ fromisoformat _ _ _ _ _ _ windowAnchor
      (windowRequest log k j .null .null .null anchor anchorProof anchorRoot) chained rfl rfl
      start inside bound anchored
  rw [verifyTrail, ran]
  rfl

end

/-- Every window of an honest log gets the answer its place relative to the sealed
checkpoint calls for, and an anchor shows in `window_anchor` alone. -/
theorem honest_verifies [Interpreter] {fromisoformat : FromIsoFormat} {agentId : Str} {counted : Bool}
    {actionRefs log checkpoints : List Json} {m : Nat} {periodEnd cp : Json}
    (built : appendAll (.str agentId) [] (countedCalls counted actionRefs) = .ok log)
    (within : 1 ≤ m ∧ m ≤ log.length)
    (made : makeCheckpoint fromisoformat (.str agentId) periodEnd (log.take m) = .ok cp)
    (member : cp ∈ checkpoints) (sealable : Sealable periodEnd checkpoints) :
    ∃ period digest proof,
      (∀ given : List Json, given.Perm checkpoints → sealPeriod given = .ok period) ∧
      checkpointDigest cp = .ok digest ∧ getProof digest period.tree = .ok proof ∧
      ∀ k, 1 ≤ k → k ≤ log.length → ∀ anchor anchorProof anchorRoot windowAnchor,
        AnchorOf fromisoformat agentId log k anchor anchorProof anchorRoot windowAnchor →
        let verify := fun j => verifyTrail fromisoformat (windowRequest log k j cp
          (.list (proof.map .str)) (.str period.root) anchor anchorProof anchorRoot)
        (m < k → verify log.length = .ok (beforeWindow k m log.length windowAnchor)) ∧
        (k ≤ m → m = log.length → verify log.length = .ok (wholeAnswer k m periodEnd windowAnchor)) ∧
        (k ≤ m → m < log.length →
          verify log.length = .ok (unsealedTail k m log.length periodEnd windowAnchor)) ∧
        (∀ j, k ≤ j → j < m → verify j = .ok (truncatedAt m j)) ∧
        verifyTrail fromisoformat (windowRequest log k log.length .null .null .null anchor anchorProof
          anchorRoot) = .ok (continuityOnly k log.length windowAnchor) := by
  have chained : Chained (.str agentId) (countedCalls counted actionRefs) log :=
    appendAll_chained (chained_nil _) built
  obtain ⟨text, rfl⟩ : ∃ text, periodEnd = .str text := by
    obtain ⟨⟨_, parsed⟩, _⟩ := makeCheckpoint_ok made
    cases periodEnd with
    | str text => exact ⟨text, rfl⟩
    | null | bool | int | float | list | dict => contradiction
  obtain ⟨period, sealing⟩ := sealable.seals (List.ne_nil_of_mem member)
  obtain ⟨digest, proof, hashed, found, proven⟩ := provenIn_getProof sealing member
  refine ⟨period, digest, proof, fun given perm => sealPeriod_perm sealing perm, hashed, found, ?_⟩
  intro k start inLog anchor anchorProof anchorRoot windowAnchor anchored verify
  have answered : ∀ j, k ≤ j → j ≤ log.length → verify j = .ok (answer k m j (.str text) windowAnchor) :=
    fun j inside bound => verify_window chained start inside bound within made proven anchored
  refine ⟨fun before => ?_, fun inside last => ?_, fun inside short => ?_, fun j inside short => ?_,
    verify_unsealed chained start inLog le_rfl anchored⟩
  · rw [answered _ inLog le_rfl, answer, if_pos before]
  · rw [answered _ inLog le_rfl, answer, if_neg (by omega), if_neg (by omega), if_pos last.symm, last]
  · rw [answered _ inLog le_rfl, answer, if_neg (by omega), if_neg (by omega), if_neg (by omega)]
  · rw [answered j inside (by omega), answer, if_neg (by omega), if_pos short]

section
open Cpython

/-- A log of three entries with a counter, its first two sealed. -/
def sealedTail : Except PyError (List Json × Json × Sealed) := do
  let agent := .str (ofString "agent")
  let refs := [97, 98, 99].map fun c => .str (List.replicate 64 c)
  let log ← appendAll agent [] (countedCalls true refs)
  let cp ← makeCheckpoint newYear agent periodEnd (log.take 2)
  return (log, cp, ← sealPeriod [cp])

/-- Its windows: from the first entry, from the second, after the sealed ones, and a truncated one. -/
theorem honest_verifies_sealedTail : ∃ log cp period digest proof, sealedTail = .ok (log, cp, period) ∧
    checkpointDigest cp = .ok digest ∧ getProof digest period.tree = .ok proof ∧
    let verify := fun k j => verifyTrail newYear (windowRequest log k j cp (.list (proof.map .str))
      (.str period.root) .null .null .null)
    verify 1 3 = .ok (unsealedTail 1 2 3 periodEnd .genesis) ∧
      verify 2 3 = .ok (unsealedTail 2 2 3 periodEnd .uncertified) ∧
      verify 3 3 = .ok (beforeWindow 3 2 3 .uncertified) ∧ verify 1 1 = .ok (truncatedAt 2 1) := by
  have computed : sealedTail.isOk = true := by decide +kernel
  cases ran : sealedTail with
  | error raised => rw [ran] at computed; cases computed
  | ok run =>
      obtain ⟨log, built, rest⟩ := bind_ok ran
      obtain ⟨cp, made, rest⟩ := bind_ok rest
      obtain ⟨period, sealing, rest⟩ := bind_ok rest
      obtain rfl := Except.ok.inj rest
      have long : log.length = 3 := (appendAll_chained (chained_nil _) built).length
      have member : cp ∈ [cp] := List.mem_singleton_self cp
      have ended : cp.item Key.periodEnd = .ok periodEnd := by
        obtain ⟨_, _, _, _, _, _, _, rfl⟩ := makeCheckpoint_ok made
        rfl
      obtain ⟨sealedAs, digest, proof, same, hashed, found, verifies⟩ :=
        honest_verifies built ⟨one_le_two, by omega⟩ made member (sealable_of_sealPeriod sealing member ended)
      obtain rfl := Except.ok.inj (sealing.symm.trans (same _ (.refl _)))
      refine ⟨log, cp, period, digest, proof, rfl, hashed, found, ?_⟩
      rw [long] at verifies
      obtain ⟨_, _, tail, short, _⟩ := verifies 1 le_rfl (by decide) _ _ _ _ .absent
      obtain ⟨_, _, window, _⟩ := verifies 2 one_le_two (by decide) _ _ _ _ .absent
      obtain ⟨before, _⟩ := verifies 3 (by decide) le_rfl _ _ _ _ .absent
      exact ⟨tail one_le_two (by decide), window le_rfl (by decide), before (by decide), short 1 le_rfl one_lt_two⟩

end

end Argentum.Trail
