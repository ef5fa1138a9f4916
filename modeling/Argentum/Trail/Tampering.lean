import Argentum.Trail.Completeness
import Argentum.Trail.Encodable
import Argentum.Trail.Loads
import Mathlib.Data.List.Perm.Basic

/-! Tampering with an honest log is told apart by its verdict. A reordered log, a log with
entries taken out, a log with another action under an entry and a log chained anew over
what was left each fail a check of their own, and pass the checks before it. -/
namespace Argentum.Trail
open Text Sha256 Jcs

/-- The first entry that does not stand where counting from 1 puts it. -/
structure Displaced (presented : List Json) (i : Nat) (seq : Int) : Prop where
  there : ∃ value, presented[i]? = some value ∧ value.get Key.seq = .int seq
  apart : seq ≠ i + 1
  before : ∀ j < i, ∃ value, presented[j]? = some value ∧ value.get Key.seq = .int (j + 1)

/-- `dict(entry, action_ref=action_ref)` -/
def withActionRef (entry actionRef : Json) : Json :=
  match entry with
  | .dict items => .dict (Loads.setItem items Key.actionRef actionRef)
  | value => value

/-- The kept entries under new seqs, each hashed anew over the head before it. -/
structure Rechained [Interpreter] (agentId : Str) (kept forged : List Json) : Prop where
  length : forged.length = kept.length
  entry : ∀ (i : Nat) (own shown : Json), kept[i]? = some own → forged[i]? = some shown →
    shown.get Key.agentId = .str agentId ∧ shown.get Key.seq = .int (i + 1) ∧
    shown.get Key.actionRef = own.get Key.actionRef ∧ shown.get Key.agentSeq = own.get Key.agentSeq ∧
    shown.get Key.prevHead = headBefore forged i ∧ ∃ digest,
      sha256Jcs (.dict (preimageItems (.str agentId) (.int (i + 1)) (own.get Key.actionRef) (headBefore forged i)
        (own.get Key.agentSeq))) = .ok digest ∧ shown.get Key.head = .str digest

/-- Where counting up from `start` puts `n` entries. -/
def countFrom (start : Int) (n : Nat) : List Int := (List.range n).map fun i : Nat => start + (i : Int)

/-- `_result("broken", FAILED, at_seq=seq, reason=reason)` -/
def brokenAt (reason : Reason) (seq : Int) : Result :=
  { verdict := .broken, completeness := .failed, atSeq := some seq, reason := some reason }

section
variable [Interpreter] {fromisoformat : FromIsoFormat} {request : Request} {agentId : Str} {presented : List Json}
  {entries before rest : List Entry} {e : Entry} {fromSeq prevSeq : Int} {prevHead : Json}

omit [Interpreter] in
theorem firstBad_eq_some_iff {expected : Int} {seqs : List Int} {seq : Int} :
    firstBad expected seqs = some seq ↔ ∃ i : Nat, seqs[i]? = some seq ∧ seq ≠ expected + i ∧
      ∀ j < i, seqs[j]? = some (expected + j) := by
  induction seqs generalizing expected with
  | nil => simp [firstBad]
  | cons first others ih =>
      rw [firstBad]
      split
      · rename_i apart
        constructor
        · rintro ⟨⟩
          exact ⟨0, rfl, by simpa using apart, fun j before => absurd before (Nat.not_lt_zero j)⟩
        · rintro ⟨i, there, _, before⟩
          cases i with
          | zero => exact there
          | succ i =>
              have placed := before 0 (Nat.succ_pos i)
              simp only [List.getElem?_cons_zero, Option.some.injEq, Nat.cast_zero, add_zero] at placed
              exact absurd placed apart
      · rename_i placed
        rw [ne_eq, not_not] at placed
        rw [ih]
        constructor
        · rintro ⟨i, there, apart, before⟩
          refine ⟨i + 1, there, by push_cast; omega, fun j less => ?_⟩
          cases j with
          | zero => simp [placed]
          | succ j =>
              rw [List.getElem?_cons_succ, before j (by omega)]
              congr 1
              push_cast
              omega
        · rintro ⟨i, there, apart, before⟩
          cases i with
          | zero =>
              simp only [List.getElem?_cons_zero, Option.some.injEq] at there
              simp only [Nat.cast_zero, add_zero] at apart
              exact absurd (there.symm.trans placed) apart
          | succ i =>
              refine ⟨i, there, by push_cast at apart; omega, fun j less => ?_⟩
              have later := before (j + 1) (by omega)
              rw [List.getElem?_cons_succ] at later
              rw [later]
              congr 1
              push_cast
              omega

omit [Interpreter] in
theorem countFrom_succ (start : Int) (n : Nat) : countFrom start (n + 1) = start :: countFrom (start + 1) n := by
  rw [countFrom, List.range_succ_eq_map, List.map_cons, List.map_map, countFrom, Nat.cast_zero, add_zero]
  refine congrArg _ (List.map_congr_left fun i _ => ?_)
  simp only [Function.comp_apply, Nat.succ_eq_add_one]
  push_cast
  omega

omit [Interpreter] in
/-- Seqs that are not counted up from `expected` have a first one that is not. -/
theorem firstBad_isSome {expected : Int} {seqs : List Int} (apart : seqs ≠ countFrom expected seqs.length) :
    ∃ seq, firstBad expected seqs = some seq := by
  induction seqs generalizing expected with
  | nil => exact absurd rfl apart
  | cons first others ih =>
      rw [firstBad]
      split
      · exact ⟨first, rfl⟩
      · rename_i placed
        rw [ne_eq, not_not] at placed
        refine ih fun counted => apart ?_
        rw [List.length_cons, countFrom_succ, ← counted, placed]

/-- Continuity goes on from the entries that pass it. -/
theorem walk_append {agentId : Json} (good : walk agentId fromSeq prevSeq prevHead before = .ok ()) :
    walk agentId fromSeq prevSeq prevHead (before ++ rest) =
      walk agentId fromSeq (prevSeq + before.length) (statedBefore prevHead before before.length) rest := by
  induction before generalizing prevSeq prevHead with
  | nil => simp [statedBefore]
  | cons first before ih =>
      obtain ⟨next, ⟨fits, bytes, encoded, head⟩, link, later⟩ := walk_cons_ok.mp good
      have hashed : sha256Jcs (.dict (preimageItems agentId (.int first.seq) (first.value.get Key.actionRef)
          (first.value.get Key.prevHead) (first.value.get Key.agentSeq))) = .ok (hexOf (sha256 bytes)) := by
        rw [sha256Jcs, encoded]
        rfl
      have matching : Json.eq (.str (hexOf (sha256 bytes))) (first.value.get Key.head) = true := Json.str_eq.mpr head
      have linked : (fromSeq < first.seq && !Json.eq (first.value.get Key.prevHead) prevHead) = false := by
        by_cases later : fromSeq < first.seq
        · simp [later, link later]
        · simp [later]
      rw [List.cons_append, walk, if_neg (by simpa using next), entryPreimage_eq_ok_iff.mpr ⟨fits, rfl⟩]
      simp only [hashed, raising, Except.mapError, bind, Except.bind, matching, linked, Bool.not_true,
        Bool.false_eq_true, if_false]
      rw [ih later, List.length_cons]
      congr 1
      · push_cast
        omega
      · cases before <;> rfl

omit [Interpreter] in
theorem pairwise_countFrom (start : Int) (n : Nat) : (countFrom start n).Pairwise (· < ·) := by
  refine List.pairwise_map.mpr (List.pairwise_lt_range.imp fun before => ?_)
  omega

omit [Interpreter] in
/-- A log in another order than the one its seqs count in. -/
theorem checkOrder_reordered (counted : (entries.map Entry.seq).Perm (countFrom fromSeq entries.length))
    (apart : entries.map Entry.seq ≠ countFrom fromSeq entries.length) :
    checkOrder fromSeq entries = fail .broken .seqOrder (firstBad fromSeq (entries.map Entry.seq)) := by
  have sorted : (entries.map Entry.seq).insertionSort (· ≤ ·) = countFrom fromSeq entries.length :=
    ((List.perm_insertionSort _ _).trans counted).eq_of_pairwise (fun a b _ _ => le_antisymm)
      (List.pairwise_insertionSort _ _) ((pairwise_countFrom _ _).imp le_of_lt)
  have range : (List.range (entries.map Entry.seq).length).map Nat.cast = (do
      let i ← List.range (entries.map Entry.seq).length
      pure (i : Int)) := by
    rw [List.map_eq_flatMap]
    rfl
  unfold checkOrder
  dsimp only
  rw [sorted, ← range, List.map_map, List.length_map]
  exact if_pos ⟨rfl, apart⟩

omit [Interpreter] in
/-- A log whose seqs ascend is in order, however many are missing. -/
theorem checkOrder_ascending (ascending : (entries.map Entry.seq).Pairwise (· < ·)) :
    checkOrder fromSeq entries = .ok () := by
  have sorted := (ascending.imp le_of_lt).insertionSort_eq
  unfold checkOrder
  dsimp only
  rw [sorted]
  exact if_neg fun reordered => reordered.2 rfl

/-- The run on entries of one agent that come without an anchor of a window. -/
theorem runTrail_eq {first : Entry} {others : List Entry}
    (given : request.entries = .list ((first :: others).map Entry.value))
    (agents : ∀ e ∈ first :: others, e.value.get Key.agentId = .str agentId) :
    runTrail fromisoformat request = checkTrail fromisoformat request (.str agentId) first (first :: others)
      ((first :: others).getLast (by simp)) := by
  have named := agents first List.mem_cons_self
  have read : readLog first.value (others.map Entry.value) = .ok (first, others) := by
    rw [readLog_eq_ok_iff, named]
    refine ⟨rfl, rfl, Json.eq_str.mpr rfl, fun e member => ?_⟩
    rw [equals_str, agents e (List.mem_cons_of_mem first member)]
    exact congrArg _ (Json.eq_str.mpr rfl)
  rw [runTrail, given, List.map_cons]
  dsimp only
  rw [read, named]
  rfl

/-- A check of the order or of the continuity that fails decides the answer. -/
theorem verifyTrail_broken {reason : Reason} {seq : Int} (full : request.fromSeq = .int 1)
    (given : request.entries = .list (entries.map Entry.value))
    (agents : ∀ e ∈ entries, e.value.get Key.agentId = .str agentId)
    (failed : (do checkOrder 1 entries; walk (.str agentId) 1 0 .null entries) = fail .broken reason (some seq)) :
    verifyTrail fromisoformat request = .ok (brokenAt reason seq) := by
  cases entries with
  | nil => cases failed
  | cons first others =>
      have ran : runTrail fromisoformat request = .error (.returned (brokenAt reason seq) rfl) := by
        rw [runTrail_eq given agents, checkTrail, full]
        simp only [Json.properInt?, bind, Except.bind] at failed ⊢
        rw [if_neg (by decide)]
        cases ordered : checkOrder 1 (first :: others) with
        | error exit =>
            rw [ordered] at failed
            obtain rfl := Except.error.inj failed
            rfl
        | ok =>
            rw [ordered] at failed
            simp only at failed ⊢
            rw [show (1 : Int) - 1 = 0 by decide, failed]
            rfl
      rw [verifyTrail, ran]

/-- The entries of a log, in order. -/
structure LogEntries (agentId : Str) (log : List Json) (entries : List Entry) : Prop where
  shown : entries.map Entry.value = log
  seqs : entries.map Entry.seq = countFrom 1 entries.length
  agents : ∀ e ∈ entries, e.value.get Key.agentId = .str agentId
  walked : walk (.str agentId) 1 0 .null entries = .ok ()

theorem Chained.logEntries {calls : List (Json × Json)} {log : List Json} (chained : Chained (.str agentId) calls log) :
    ∃ entries, LogEntries agentId log entries := by
  obtain ⟨entries, shown, window⟩ := @Chained.window _ agentId log 1 log.length calls chained le_rfl
  refine ⟨entries, by rw [shown, windowOf, List.take_length, Nat.sub_self, List.drop_zero], ?_, ?_, ?_⟩
  · refine List.ext_getElem (by simp [countFrom]) fun i here there => ?_
    rw [List.length_map] at here
    rw [List.getElem_map, (window.place i _ (List.getElem?_eq_getElem here)).2]
    simp [countFrom]
  · intro e member
    obtain ⟨i, found⟩ := List.mem_iff_getElem?.mp member
    exact (window.read chained le_rfl found).2.2.1
  · have walked := window.walk chained le_rfl
    exact walked

variable {log : List Json} {shown : List Entry}

theorem LogEntries.seq_getElem (own : LogEntries agentId log entries) {i : Nat} (found : entries[i]? = some e) :
    e.seq = 1 + i := by
  have counted : (entries.map Entry.seq)[i]? = some e.seq := by rw [List.getElem?_map, found, Option.map_some]
  have bound := (List.getElem?_eq_some_iff.mp found).1
  rw [own.seqs, countFrom, List.getElem?_map, List.getElem?_range bound, Option.map_some] at counted
  exact (Option.some.inj counted).symm

/-- Entries of a log that count up from 1 are its first ones. -/
theorem LogEntries.eq_take (own : LogEntries agentId log entries) (within : ∀ e ∈ shown, e ∈ entries)
    (counted : ∀ (i : Nat) (e : Entry), shown[i]? = some e → e.seq = 1 + i) : shown = entries.take shown.length := by
  refine List.ext_getElem? fun i => ?_
  by_cases inside : i < shown.length
  · have there := List.getElem?_eq_getElem inside
    obtain ⟨j, found⟩ := List.mem_iff_getElem?.mp (within _ (List.getElem_mem inside))
    have seq := counted i _ there
    rw [own.seq_getElem found] at seq
    obtain rfl : j = i := by omega
    rw [there, List.getElem?_take_of_lt inside, found]
  · rw [List.getElem?_eq_none (by omega), List.getElem?_eq_none (by rw [List.length_take]; omega)]

theorem LogEntries.eq_take_of_seqs (own : LogEntries agentId log entries) (within : ∀ e ∈ shown, e ∈ entries)
    (counted : shown.map Entry.seq = countFrom 1 shown.length) : shown = entries.take shown.length := by
  refine own.eq_take within fun i e found => ?_
  have placed : (shown.map Entry.seq)[i]? = some e.seq := by rw [List.getElem?_map, found, Option.map_some]
  rw [counted, countFrom, List.getElem?_map, List.getElem?_range (List.getElem?_eq_some_iff.mp found).1] at placed
  exact (Option.some.inj placed).symm

theorem LogEntries.seqs_apart (own : LogEntries agentId log entries) (kept : shown.Sublist entries)
    (inner : ¬ shown.map Entry.value <+: entries.map Entry.value) : shown.map Entry.seq ≠ countFrom 1 shown.length := by
  intro same
  apply inner
  rw [own.eq_take_of_seqs (fun e member => kept.subset member) same, List.map_take]
  exact List.take_prefix _ _

/-- The first entries of a log pass continuity, and it goes on after them. -/
theorem LogEntries.walk_take (own : LogEntries agentId log entries) {i : Nat} (inside : i ≤ entries.length)
    (rest : List Entry) : walk (.str agentId) 1 0 .null (entries.take i ++ rest) =
      walk (.str agentId) 1 i (statedBefore .null entries i) rest := by
  have whole := walk_eq_ok_iff.mp own.walked
  have stated : ∀ j ≤ i, statedBefore .null (entries.take i) j = statedBefore .null entries j := by
    intro j less
    cases j with
    | zero => rfl
    | succ j => rw [statedBefore, statedBefore, List.getElem?_take_of_lt (by omega)]
  have good : walk (.str agentId) 1 0 .null (entries.take i) = .ok () := by
    refine walk_eq_ok_iff.mpr fun j e found => ?_
    rw [List.getElem?_take] at found
    split at found
    · rename_i less
      rw [stated j less.le]
      exact whole j e found
    · contradiction
  rw [walk_append good, List.length_take, min_eq_left inside, stated i le_rfl, Int.zero_add]

omit [Interpreter] in
/-- What `firstBad` finds is the first displaced entry. -/
theorem displaced_of_firstBad {seq : Int} (bad : firstBad 1 (shown.map Entry.seq) = some seq) :
    ∃ (i : Nat) (e : Entry), shown[i]? = some e ∧ e.seq = seq ∧ Displaced (shown.map Entry.value) i seq ∧
      ∀ (j : Nat) (other : Entry), j < i → shown[j]? = some other → other.seq = 1 + j := by
  obtain ⟨i, there, apart, before⟩ := firstBad_eq_some_iff.mp bad
  rw [List.getElem?_map] at there
  obtain ⟨e, found, rfl⟩ := Option.map_eq_some_iff.mp there
  refine ⟨i, e, found, rfl, ⟨⟨e.value, ?_, e.seqShape⟩, by omega, fun j less => ?_⟩, fun j other less found => ?_⟩
  · rw [List.getElem?_map, found, Option.map_some]
  · have placed := before j less
    rw [List.getElem?_map] at placed
    obtain ⟨other, found, seq⟩ := Option.map_eq_some_iff.mp placed
    refine ⟨other.value, by rw [List.getElem?_map, found, Option.map_some], ?_⟩
    rw [other.seqShape, seq, Int.add_comm]
  · have placed := before j less
    rw [List.getElem?_map, found] at placed
    exact Option.some.inj placed

/-- A permutation of a log other than the log is `seq_order`. -/
theorem reordered_verdict (own : LogEntries agentId log entries) (full : request.fromSeq = .int 1)
    (given : request.entries = .list presented) (permuted : presented.Perm log) (moved : presented ≠ log) :
    ∃ i seq, Displaced presented i seq ∧ verifyTrail fromisoformat request = .ok (brokenAt .seqOrder seq) := by
  obtain ⟨shown, rfl, perm⟩ : ∃ shown : List Entry, presented = shown.map Entry.value ∧ shown.Perm entries := by
    rw [← own.shown] at permuted
    have composed := congrFun (congrFun (List.eq_map_comp_perm Entry.value) presented) entries
    exact composed.mpr permuted
  have within : ∀ e ∈ shown, e ∈ entries := fun e => perm.mem_iff.mp
  have counted : (shown.map Entry.seq).Perm (countFrom 1 shown.length) := by
    rw [perm.length_eq, ← own.seqs]
    exact perm.map _
  have apart : shown.map Entry.seq ≠ countFrom 1 shown.length := by
    intro same
    apply moved
    rw [own.eq_take_of_seqs within same, perm.length_eq, List.take_length, own.shown]
  obtain ⟨seq, bad⟩ : ∃ seq, firstBad 1 (shown.map Entry.seq) = some seq :=
    firstBad_isSome (by rwa [List.length_map])
  obtain ⟨i, e, _, _, displaced, _⟩ := displaced_of_firstBad bad
  refine ⟨i, seq, displaced, verifyTrail_broken full given (fun e member => own.agents e (within e member)) ?_⟩
  rw [checkOrder_reordered counted apart, bad]
  rfl

/-- A log with entries taken out before its end is `seq_gap`. -/
theorem removed_verdict (own : LogEntries agentId log entries) (full : request.fromSeq = .int 1)
    (given : request.entries = .list presented) (part : presented.Sublist log) (inner : ¬ presented <+: log) :
    ∃ i seq, Displaced presented i seq ∧ verifyTrail fromisoformat request = .ok (brokenAt .seqGap seq) := by
  rw [← own.shown] at part inner
  obtain ⟨shown, kept, rfl⟩ := List.sublist_map_iff.mp part
  have within : ∀ e ∈ shown, e ∈ entries := fun e member => kept.subset member
  have ascending : (shown.map Entry.seq).Pairwise (· < ·) := by
    refine List.Pairwise.sublist (kept.map Entry.seq) ?_
    rw [own.seqs]
    exact pairwise_countFrom _ _
  have apart := own.seqs_apart kept inner
  obtain ⟨seq, bad⟩ : ∃ seq, firstBad 1 (shown.map Entry.seq) = some seq :=
    firstBad_isSome (by rwa [List.length_map])
  obtain ⟨i, e, found, rfl, displaced, placed⟩ := displaced_of_firstBad bad
  refine ⟨i, e.seq, displaced, verifyTrail_broken full given (fun e member => own.agents e (within e member)) ?_⟩
  obtain ⟨inside, here⟩ := List.getElem?_eq_some_iff.mp found
  -- the entries before the gap are the first ones of the log
  have start : shown.take i = entries.take i := by
    have prefixed : shown.take i = entries.take (shown.take i).length := by
      refine own.eq_take (fun e member => within e (List.mem_of_mem_take member)) fun j e there => ?_
      rw [List.getElem?_take] at there
      split at there
      · rename_i less
        exact placed j e less there
      · contradiction
    rwa [List.length_take, min_eq_left inside.le] at prefixed
  have cut : shown = entries.take i ++ e :: shown.drop (i + 1) := by
    rw [← start, ← here, List.getElem_cons_drop, List.take_append_drop]
  have gap : e.seq ≠ i + 1 := displaced.apart
  rw [checkOrder_ascending ascending, cut, own.walk_take (inside.le.trans kept.length_le), walk]
  exact if_pos gap

omit [Interpreter] in
/-- Another action under an entry shows in that field alone. -/
theorem get_withActionRef {items : List (Str × Json)} {actionRef : Json} (key : Str) :
    (withActionRef (.dict items) actionRef).get key =
      if key = Key.actionRef then actionRef else (Json.dict items).get key := by
  rw [withActionRef, Json.get, Json.get, Loads.lookup_setItem]
  split
  · rfl
  · rfl

theorem entryHashed_eq {value agentId seq actionRef prevHead agentSeq : Json} {bytes : Bytes}
    (fields : value.get Key.agentId = agentId ∧ value.get Key.seq = seq ∧ value.get Key.actionRef = actionRef ∧
      value.get Key.prevHead = prevHead ∧ value.get Key.agentSeq = agentSeq)
    (encoded : jcsBytes (.dict (preimageItems agentId seq actionRef prevHead agentSeq)) = .ok bytes) :
    entryHashed value = [bytes] := by
  obtain ⟨rfl, rfl, rfl, rfl, rfl⟩ := fields
  exact hashedOf_eq encoded

/-- Continuity stops at an entry whose fields do not hash to its head. -/
theorem walk_headMismatch {agentId : Json} {bytes : Bytes} (next : e.seq = prevSeq + 1)
    (fits : Fits (.int e.seq) (e.value.get Key.actionRef) (e.value.get Key.prevHead) (e.value.get Key.agentSeq))
    (encoded : jcsBytes (.dict (preimageItems agentId (.int e.seq) (e.value.get Key.actionRef)
      (e.value.get Key.prevHead) (e.value.get Key.agentSeq))) = .ok bytes)
    (differ : e.value.get Key.head ≠ .str (hexOf (sha256 bytes))) :
    walk agentId fromSeq prevSeq prevHead (e :: rest) = fail .broken .headMismatch (some e.seq) := by
  have hashed : sha256Jcs (.dict (preimageItems agentId (.int e.seq) (e.value.get Key.actionRef)
      (e.value.get Key.prevHead) (e.value.get Key.agentSeq))) = .ok (hexOf (sha256 bytes)) := by
    rw [sha256Jcs, encoded]
    rfl
  have unequal : Json.eq (.str (hexOf (sha256 bytes))) (e.value.get Key.head) = false := by
    rw [← Bool.not_eq_true, Json.str_eq]
    exact differ
  rw [walk, if_neg (by simpa using next), entryPreimage_eq_ok_iff.mpr ⟨fits, rfl⟩]
  simp only [hashed, raising, Except.mapError, bind, Except.bind, unequal, Bool.not_false, if_true]

/-- An entry with another action keeps its other fields, and its old head is no longer
its own, or a collision. -/
theorem Checks.rewrite {items : List (Str × Json)} {actionRef : Json} (checks : Checks (.str agentId) e)
    (shown : e.value = .dict items) (named : e.value.get Key.agentId = .str agentId) (valid : isHex64 actionRef = true)
    (other : actionRef ≠ e.value.get Key.actionRef) : ∃ e' : Entry, e'.value = withActionRef e.value actionRef ∧
      e'.seq = e.seq ∧ e'.value.get Key.agentId = .str agentId ∧
      Fits (.int e'.seq) (e'.value.get Key.actionRef) (e'.value.get Key.prevHead) (e'.value.get Key.agentSeq) ∧
      ∃ bytes, jcsBytes (.dict (preimageItems (.str agentId) (.int e'.seq) (e'.value.get Key.actionRef)
        (e'.value.get Key.prevHead) (e'.value.get Key.agentSeq))) = .ok bytes ∧
      (e'.value.get Key.head = .str (hexOf (sha256 bytes)) →
        Collides (entryHashed e.value ++ entryHashed e'.value)) := by
  obtain ⟨fits, bytes, encoded, head⟩ := checks
  have changed : (withActionRef e.value actionRef).get Key.actionRef = actionRef := by
    rw [shown, get_withActionRef, if_pos rfl]
  have kept : ∀ key, key ≠ Key.actionRef → (withActionRef e.value actionRef).get key = e.value.get key :=
    fun key apart => by rw [shown, get_withActionRef, if_neg apart]
  have agentGot := (kept Key.agentId (by decide)).trans named
  have seqGot := (kept Key.seq (by decide)).trans e.seqShape
  have prevGot := kept Key.prevHead (by decide)
  have counterGot := kept Key.agentSeq (by decide)
  have headGot := kept Key.head (by decide)
  have fits' : Fits (.int e.seq) actionRef (e.value.get Key.prevHead) (e.value.get Key.agentSeq) :=
    { fits with refShape := valid }
  obtain ⟨bytes', encoded'⟩ : ∃ bytes', jcsBytes (.dict (preimageItems (.str agentId) (.int e.seq) actionRef
      (e.value.get Key.prevHead) (e.value.get Key.agentSeq))) = .ok bytes' := by
    obtain ⟨_, hashable⟩ := jcsBytes_isOk_iff.mp ⟨bytes, encoded⟩
    obtain ⟨agent, count, _, prev, counter⟩ := encodable_preimage_iff.mp hashable
    exact jcsBytes_isOk_iff.mpr ⟨shallow_preimage (Nat.zero_le 2) fits',
      encodable_preimage_iff.mpr ⟨agent, count, encodable_of_isHex64 valid, prev, counter⟩⟩
  have headShape : isHex64 ((withActionRef e.value actionRef).get Key.head) = true := by rw [headGot, e.headShape]
  refine ⟨⟨withActionRef e.value actionRef, e.seq, seqGot, headShape, by rw [changed, valid]⟩, rfl, rfl, agentGot, ?_,
    bytes', ?_, fun same => ?_⟩
  · dsimp only
    rwa [changed, prevGot, counterGot]
  · dsimp only
    rwa [changed, prevGot, counterGot]
  · have hashed : entryHashed e.value = [bytes] := entryHashed_eq ⟨named, e.seqShape, rfl, rfl, rfl⟩ encoded
    have hashed' : entryHashed (withActionRef e.value actionRef) = [bytes'] :=
      entryHashed_eq ⟨agentGot, seqGot, changed, prevGot, counterGot⟩ encoded'
    refine ⟨bytes, by simp [hashed], bytes', by simp [hashed'], ?_, ?_⟩
    · rintro rfl
      exact other (preimage_injective fits' fits encoded' encoded).2.1
    · rw [headGot, head, Json.str.injEq] at same
      exact hexOf_injective same

/-- Another action under an entry is `head_mismatch` there. -/
theorem rewritten_verdict {i : Nat} {items : List (Str × Json)} {actionRef : Json}
    (own : LogEntries agentId log entries) (full : request.fromSeq = .int 1)
    (found : log[i]? = some (.dict items)) (valid : isHex64 actionRef = true)
    (other : actionRef ≠ (Json.dict items).get Key.actionRef)
    (given : request.entries = .list (log.set i (withActionRef (.dict items) actionRef))) :
    verifyTrail fromisoformat request = .ok (brokenAt .headMismatch (i + 1)) ∨
      Collides (entryHashed (.dict items) ++ entryHashed (withActionRef (.dict items) actionRef)) := by
  rw [← own.shown, List.getElem?_map] at found
  obtain ⟨e, there, shown⟩ := Option.map_eq_some_iff.mp found
  obtain ⟨seq, checks, _⟩ := walk_eq_ok_iff.mp own.walked i e there
  rw [← shown] at other given ⊢
  obtain ⟨e', value, seq', named, fits, bytes, encoded, collides⟩ :=
    checks.rewrite shown (own.agents e (List.mem_of_getElem? there)) valid other
  rw [← value] at given ⊢
  by_cases same : e'.value.get Key.head = .str (hexOf (sha256 bytes))
  · exact Or.inr (collides same)
  refine Or.inl ?_
  obtain ⟨inside, here⟩ := List.getElem?_eq_some_iff.mp there
  have seqs : (entries.set i e').map Entry.seq = countFrom 1 entries.length := by
    have bound : i < (entries.map Entry.seq).length := by rwa [List.length_map]
    have counted : (entries.map Entry.seq)[i] = e.seq := by rw [List.getElem_map, here]
    rw [List.map_set, seq', ← counted, List.set_getElem_self, own.seqs]
  have ordered : checkOrder 1 (entries.set i e') = .ok () := by
    refine checkOrder_ascending ?_
    rw [seqs]
    exact pairwise_countFrom _ _
  have walked := own.walk_take inside.le (e' :: entries.drop (i + 1))
  rw [walk_headMismatch (by omega) fits encoded same, seq', seq] at walked
  have presentedAs : request.entries = .list ((entries.set i e').map Entry.value) := by
    rw [given, ← own.shown, List.map_set]
  have agents : ∀ other ∈ entries.set i e', other.value.get Key.agentId = .str agentId := by
    intro other member
    rcases List.mem_or_eq_of_mem_set member with member | rfl
    · exact own.agents other member
    · exact named
  refine verifyTrail_broken full presentedAs agents ?_
  rw [ordered, List.set_eq_take_append_cons_drop, if_pos inside]
  refine walked.trans ?_
  rw [show (0 : Int) + 1 + i = i + 1 by omega]

omit [Interpreter] in
theorem exists_entries {values : List Json} (each : ∀ value ∈ values, ∃ e : Entry, e.value = value) :
    ∃ entries : List Entry, entries.map Entry.value = values := by
  induction values with
  | nil => exact ⟨[], rfl⟩
  | cons value rest ih =>
      obtain ⟨e, rfl⟩ := each value List.mem_cons_self
      obtain ⟨others, later⟩ := ih fun value member => each value (List.mem_cons_of_mem _ member)
      exact ⟨e :: others, by rw [List.map_cons, later]⟩

omit [Interpreter] in
/-- An agent counter that skips is found. -/
theorem checkContiguous_gap {counts : List Int}
    (counter : entries.map (fun e => e.value.get Key.agentSeq) = counts.map .int)
    (gap : counts ≠ countFrom (counts.headD 1) counts.length) :
    ∃ seq, checkContiguous entries = fail .agentGap .agentSeqNotContiguous (some seq) := by
  induction entries generalizing counts with
  | nil =>
      obtain rfl := List.map_eq_nil_iff.mp counter.symm
      exact absurd rfl gap
  | cons a rest ih =>
      cases counts with
      | nil => cases counter
      | cons c counts =>
          have first : a.value.get Key.agentSeq = .int c := List.head_eq_of_cons_eq counter
          have later := List.tail_eq_of_cons_eq counter
          rw [List.length_cons, List.headD_cons, countFrom_succ, ne_eq, List.cons.injEq, eq_self, true_and] at gap
          cases rest with
          | nil =>
              obtain rfl := List.map_eq_nil_iff.mp later.symm
              exact absurd rfl gap
          | cons b rest =>
              cases counts with
              | nil => cases later
              | cons d counts =>
                  have second : b.value.get Key.agentSeq = .int d := List.head_eq_of_cons_eq later
                  unfold checkContiguous
                  rw [first, second]
                  simp only [nextCount, Json.int?, raising, Except.mapError, bind, Except.bind]
                  by_cases follows : d = c + 1
                  · rw [Json.int_eq_int.mpr follows]
                    subst follows
                    exact ih later gap
                  · rw [Bool.not_eq_true _ |>.mp (fun same => follows (Json.int_eq_int.mp same))]
                    exact ⟨b.seq, rfl⟩

omit [Interpreter] in
/-- In a full log the agent's counter starts at 1 and does not skip. -/
theorem checkCounter_gap {first : Entry} {others : List Entry} {counts : List Int}
    (counter : (first :: others).map (fun e => e.value.get Key.agentSeq) = counts.map .int)
    (has : ∀ e ∈ first :: others, e.value.has Key.agentSeq = true) (gap : counts ≠ countFrom 1 counts.length) :
    ∃ seq, checkCounter 1 first (first :: others) = fail .agentGap .agentSeqNotContiguous (some seq) := by
  have all : (first :: others).filter (fun e => e.value.has Key.agentSeq) = first :: others :=
    List.filter_eq_self.mpr has
  cases counts with
  | nil => cases counter
  | cons c counts =>
      have start : first.value.get Key.agentSeq = .int c := List.head_eq_of_cons_eq counter
      unfold checkCounter
      simp only [all, start, List.isEmpty_cons, Bool.false_eq_true, if_false, ne_eq, not_true_eq_false]
      by_cases one : c = 1
      · rw [Json.int_eq_int.mpr one]
        subst one
        exact checkContiguous_gap counter gap
      · rw [Bool.not_eq_true _ |>.mp (fun same => one (Json.int_eq_int.mp same))]
        exact ⟨1, rfl⟩

section
variable {kept forged : List Json} {shown : List Entry} {i : Nat}

/-- What the entry at `i` of a chain made anew is. -/
theorem Rechained.at (rechained : Rechained agentId kept forged) {value : Json} (found : forged[i]? = some value) :
    ∃ own, kept[i]? = some own ∧ value.get Key.agentId = .str agentId ∧ value.get Key.seq = .int (i + 1) ∧
      value.get Key.actionRef = own.get Key.actionRef ∧ value.get Key.agentSeq = own.get Key.agentSeq ∧
      value.get Key.prevHead = headBefore forged i ∧ ∃ bytes,
        jcsBytes (.dict (preimageItems (.str agentId) (.int (i + 1)) (own.get Key.actionRef) (headBefore forged i)
          (own.get Key.agentSeq))) = .ok bytes ∧ value.get Key.head = .str (hexOf (sha256 bytes)) := by
  have bound := (List.getElem?_eq_some_iff.mp found).1
  have there := List.getElem?_eq_getElem (rechained.length ▸ bound)
  obtain ⟨agent, seq, ref, counter, prev, digest, hashed, head⟩ := rechained.entry i _ value there found
  obtain ⟨bytes, encoded, rfl⟩ := sha256Jcs_eq_ok_iff.mp hashed
  exact ⟨_, there, agent, seq, ref, counter, prev, bytes, encoded, head⟩

theorem Rechained.exists_entries (rechained : Rechained agentId kept forged)
    (valid : ∀ own ∈ kept, isHex64 (own.get Key.actionRef) = true ∧ atLeastOne (own.get Key.agentSeq) = true) :
    ∃ shown : List Entry, shown.map Entry.value = forged := by
  refine Trail.exists_entries fun value member => ?_
  obtain ⟨i, found⟩ := List.mem_iff_getElem?.mp member
  obtain ⟨own, there, _, seq, ref, _, _, bytes, _, head⟩ := rechained.at found
  have headShape : isHex64 (value.get Key.head) = true := head ▸ isHex64_hexOf (length_sha256 bytes)
  have refShape := (valid own (List.mem_of_getElem? there)).1
  exact ⟨⟨value, i + 1, seq, headShape, ref ▸ refShape⟩, rfl⟩

omit [Interpreter] in
theorem getElem?_value (found : shown[i]? = some e) : (shown.map Entry.value)[i]? = some e.value := by
  rw [List.getElem?_map, found, Option.map_some]

omit [Interpreter] in
theorem headBefore_map_value (shown : List Entry) (i : Nat) :
    headBefore (shown.map Entry.value) i = statedBefore .null shown i := by
  cases i with
  | zero => rfl
  | succ i =>
      rw [headBefore, statedBefore, List.getElem?_map, Option.map_map]
      rfl

theorem Rechained.seq (rechained : Rechained agentId kept (shown.map Entry.value)) (found : shown[i]? = some e) :
    e.seq = i + 1 := by
  obtain ⟨_, _, _, seq, _⟩ := rechained.at (getElem?_value found)
  exact Json.int.inj (e.seqShape.symm.trans seq)

/-- Every entry of a chain made anew hashes to its head and links to the one before. -/
theorem Rechained.walked (rechained : Rechained agentId kept (shown.map Entry.value))
    (valid : ∀ own ∈ kept, isHex64 (own.get Key.actionRef) = true ∧ atLeastOne (own.get Key.agentSeq) = true) :
    walk (.str agentId) 1 0 .null shown = .ok () := by
  refine walk_eq_ok_iff.mpr fun i e found => ?_
  obtain ⟨own, there, _, _, ref, counter, prev, bytes, encoded, head⟩ := rechained.at (getElem?_value found)
  obtain ⟨refShape, counted⟩ := valid own (List.mem_of_getElem? there)
  have place := rechained.seq found
  have inside := (List.getElem?_eq_some_iff.mp (getElem?_value found)).1.le
  have link : LinkAt i (headBefore (shown.map Entry.value) i) := by
    refine linkAt_headBefore (fun value member => ?_) inside
    obtain ⟨other, _, rfl⟩ := List.mem_map.mp member
    exact other.headShape
  refine ⟨by rw [place]; omega, ?_, fun _ => ?_⟩
  · rw [Checks, place, ref, prev, counter]
    exact ⟨link.fits refShape (Or.inr counted), bytes, encoded, head⟩
  · rw [prev, ← headBefore_map_value]
    rcases link with ⟨_, null⟩ | ⟨_, hex⟩
    · rw [null]
      rfl
    · obtain ⟨text, same⟩ := isHex64_str hex
      rw [same]
      exact Json.eq_str.mpr rfl

/-- The entries of a chain that was made anew pass order and continuity. -/
theorem Rechained.logEntries (rechained : Rechained agentId kept forged)
    (valid : ∀ own ∈ kept, isHex64 (own.get Key.actionRef) = true ∧ atLeastOne (own.get Key.agentSeq) = true) :
    ∃ shown, LogEntries agentId forged shown := by
  obtain ⟨shown, rfl⟩ := rechained.exists_entries valid
  refine ⟨shown, rfl, ?_, fun e member => ?_, rechained.walked valid⟩
  · refine List.ext_getElem (by simp [countFrom]) fun i here _ => ?_
    rw [List.length_map] at here
    rw [List.getElem_map, rechained.seq (List.getElem?_eq_getElem here), Int.add_comm]
    simp [countFrom]
  · obtain ⟨i, found⟩ := List.mem_iff_getElem?.mp member
    obtain ⟨_, _, agent, _⟩ := rechained.at (getElem?_value found)
    exact agent

end

/-- The agent's own counter is the seq on every entry. -/
def Counted (log : List Json) : Prop :=
  ∀ (i : Nat) (entry : Json), log[i]? = some entry → entry.get Key.agentSeq = .int (i + 1)

/-- A chain made anew keeps the counters of the entries it was made from. -/
theorem Rechained.counters {left : List Entry}
    (rechained : Rechained agentId (left.map Entry.value) (shown.map Entry.value))
    (counter : ∀ e ∈ left, e.value.get Key.agentSeq = .int e.seq) :
    shown.map (fun e => e.value.get Key.agentSeq) = (left.map Entry.seq).map .int := by
  have length := rechained.length
  rw [List.length_map, List.length_map] at length
  refine List.ext_getElem (by simp [length]) fun i here there => ?_
  rw [List.length_map] at here
  have inLeft : i < left.length := length ▸ here
  obtain ⟨_, kept, _, _, _, same, _⟩ := rechained.at (getElem?_value (List.getElem?_eq_getElem here))
  rw [getElem?_value (List.getElem?_eq_getElem inLeft)] at kept
  obtain rfl := Option.some.inj kept
  simp only [List.getElem_map]
  rw [same, counter _ (List.getElem_mem inLeft)]

/-- A failing counter decides the answer on a log in order. -/
theorem verifyTrail_agentGap {first : Entry} {others : List Entry} {seq : Int}
    (own : LogEntries agentId log (first :: others)) (full : request.fromSeq = .int 1)
    (unanchored : request.anchor = .null) (given : request.entries = .list log)
    (failed : checkCounter 1 first (first :: others) = fail .agentGap .agentSeqNotContiguous (some seq)) :
    ∃ result, verifyTrail fromisoformat request = .ok result ∧ result.verdict = .agentGap ∧
      result.reason = some .agentSeqNotContiguous := by
  have ordered : checkOrder 1 (first :: others) = .ok () := by
    refine checkOrder_ascending ?_
    rw [own.seqs]
    exact pairwise_countFrom _ _
  have presentedAs : request.entries = .list ((first :: others).map Entry.value) := by rw [given, own.shown]
  have ran : runTrail fromisoformat request = fail .agentGap .agentSeqNotContiguous (some seq) := by
    rw [runTrail_eq presentedAs own.agents, checkTrail, full, unanchored]
    simp only [Json.properInt?, bind, Except.bind]
    rw [if_neg (by decide), ordered]
    simp only [checkAnchor, Json.isNull, if_true]
    rw [show (1 : Int) - 1 = 0 by decide, own.walked, failed]
    rfl
  exact ⟨_, by rw [verifyTrail, ran]; rfl, rfl, rfl⟩

/-- A chain made anew over a counted log with entries taken out is `agent_gap`. -/
theorem rechained_verdict {kept forged : List Json} (own : LogEntries agentId log entries) (counted : Counted log)
    (full : request.fromSeq = .int 1) (unanchored : request.anchor = .null) (part : kept.Sublist log)
    (inner : ¬ kept <+: log) (rechained : Rechained agentId kept forged) (given : request.entries = .list forged) :
    ∃ result, verifyTrail fromisoformat request = .ok result ∧ result.verdict = .agentGap ∧
      result.reason = some .agentSeqNotContiguous := by
  rw [← own.shown] at part inner
  obtain ⟨left, keptPart, rfl⟩ := List.sublist_map_iff.mp part
  have placed : ∀ e ∈ left, ∃ i : Nat, e.seq = i + 1 ∧ e.value.get Key.agentSeq = .int (i + 1) := by
    intro e member
    obtain ⟨i, found⟩ := List.mem_iff_getElem?.mp (keptPart.subset member)
    refine ⟨i, by rw [own.seq_getElem found, Int.add_comm], counted i e.value ?_⟩
    rw [← own.shown, getElem?_value found]
  have counter : ∀ e ∈ left, e.value.get Key.agentSeq = .int e.seq := by
    intro e member
    obtain ⟨i, seq, count⟩ := placed e member
    rw [count, seq]
  have valid : ∀ own ∈ left.map Entry.value, isHex64 (own.get Key.actionRef) = true ∧
      atLeastOne (own.get Key.agentSeq) = true := by
    intro value member
    obtain ⟨e, inside, rfl⟩ := List.mem_map.mp member
    obtain ⟨i, _, count⟩ := placed e inside
    rw [count]
    exact ⟨e.refShape, by simp [atLeastOne, Json.properInt?]⟩
  obtain ⟨shown, forgedOwn⟩ := rechained.logEntries valid
  obtain rfl := forgedOwn.shown
  have counts := rechained.counters counter
  have gap : left.map Entry.seq ≠ countFrom 1 (left.map Entry.seq).length := by
    rw [List.length_map]
    exact own.seqs_apart keptPart inner
  cases shown with
  | nil =>
      obtain rfl := List.map_eq_nil_iff.mp (List.map_eq_nil_iff.mp counts.symm)
      exact absurd (List.nil_prefix) inner
  | cons first others =>
      have has : ∀ e ∈ first :: others, e.value.has Key.agentSeq = true := by
        intro e member
        have there := List.mem_map_of_mem (f := fun e : Entry => e.value.get Key.agentSeq) member
        rw [counts] at there
        obtain ⟨count, _, got⟩ := List.mem_map.mp there
        exact Json.has_of_get (got ▸ Json.noConfusion)
      obtain ⟨seq, failed⟩ := checkCounter_gap counts has gap
      exact verifyTrail_agentGap forgedOwn full unanchored given failed

end

/-- Each way to tamper with an honest log has a verdict of its own. -/
theorem tampering_classified [Interpreter] {fromisoformat : FromIsoFormat} {agentId : Str} {calls : List (Json × Json)}
    {log : List Json} {request : Request} (honest : appendAll (.str agentId) [] calls = .ok log)
    (full : request.fromSeq = .int 1) :
    let verify := fun presented => verifyTrail fromisoformat { request with entries := .list presented }
    (∀ presented, presented.Perm log → presented ≠ log → ∃ i seq, Displaced presented i seq ∧
      verify presented = .ok (brokenAt .seqOrder seq)) ∧
    (∀ presented, presented.Sublist log → ¬ presented <+: log → ∃ i seq, Displaced presented i seq ∧
      verify presented = .ok (brokenAt .seqGap seq)) ∧
    (∀ (i : Nat) (entry actionRef : Json), log[i]? = some entry → isHex64 actionRef = true →
      actionRef ≠ entry.get Key.actionRef → entry.get Key.seq = .int (i + 1) ∧
      (verify (log.set i (withActionRef entry actionRef)) = .ok (brokenAt .headMismatch (i + 1)) ∨
        Collides (entryHashed entry ++ entryHashed (withActionRef entry actionRef)))) ∧
    (Counted log → request.anchor = .null → ∀ kept forged, kept.Sublist log → ¬ kept <+: log →
      Rechained agentId kept forged → ∃ result, verify forged = .ok result ∧ result.verdict = .agentGap ∧
        result.reason = some .agentSeqNotContiguous) := by
  have chained : Chained (.str agentId) calls log := appendAll_chained (chained_nil _) honest
  obtain ⟨entries, own⟩ := chained.logEntries
  refine ⟨fun presented permuted moved => reordered_verdict own full rfl permuted moved,
    fun presented part inner => removed_verdict own full rfl part inner,
    fun i entry actionRef found valid other => ?_,
    fun counted unanchored kept forged part inner rechained =>
      rechained_verdict own counted full unanchored part inner rechained rfl⟩
  obtain ⟨_, _, _, made⟩ := chained.made i entry found
  obtain ⟨_, _, _, same⟩ := makeEntry_ok made
  refine ⟨(get_entryOf same).2.2.1, ?_⟩
  rw [entryOf] at same
  subst same
  exact rewritten_verdict own full found valid other rfl

section
open Cpython

/-- A log of two entries, with the agent's own counter. -/
theorem tampering_classified_twoEntries : ∃ log, appendAll (.str (ofString "agent")) []
      (countedCalls true [.str (List.replicate 64 97), .str (List.replicate 64 98)]) = .ok log ∧
    let verify := fun presented => verifyTrail newYear { entries := .list presented }
    (∀ presented, presented.Perm log → presented ≠ log → ∃ i seq, Displaced presented i seq ∧
      verify presented = .ok (brokenAt .seqOrder seq)) ∧
    (∀ presented, presented.Sublist log → ¬ presented <+: log → ∃ i seq, Displaced presented i seq ∧
      verify presented = .ok (brokenAt .seqGap seq)) ∧
    (∀ (i : Nat) (entry actionRef : Json), log[i]? = some entry → isHex64 actionRef = true →
      actionRef ≠ entry.get Key.actionRef → entry.get Key.seq = .int (i + 1) ∧
      (verify (log.set i (withActionRef entry actionRef)) = .ok (brokenAt .headMismatch (i + 1)) ∨
        Collides (entryHashed entry ++ entryHashed (withActionRef entry actionRef)))) ∧
    ∀ kept forged, kept.Sublist log → ¬ kept <+: log → Rechained (ofString "agent") kept forged →
      ∃ result, verify forged = .ok result ∧ result.verdict = .agentGap ∧
        result.reason = some .agentSeqNotContiguous := by
  have agent : Encodable (.str (ofString "agent")) := .str (scalar_ascii rfl)
  have valid : ∀ call ∈ countedCalls true [.str (List.replicate 64 97), .str (List.replicate 64 98)],
      ValidCall call := by
    refine List.forall_mem_cons.mpr ⟨⟨by decide, Or.inr rfl, .int (by decide)⟩, ?_⟩
    exact List.forall_mem_singleton.mpr ⟨by decide, Or.inr rfl, .int (by decide)⟩
  obtain ⟨log, honest⟩ := appendAll_isOk (chained_nil _) agent (Nat.zero_le 2) valid (by decide)
  have chained : Chained (.str (ofString "agent")) _ log := appendAll_chained (chained_nil _) honest
  have counted : Counted log := by
    intro i entry found
    obtain ⟨e, rfl, _, _, _, _, counter, _⟩ := chained.entry found
    exact counter
  have verdicts := @tampering_classified _ newYear _ _ _ { entries := .null } honest rfl
  exact ⟨log, honest, verdicts.1, verdicts.2.1, verdicts.2.2.1, verdicts.2.2.2 counted rfl⟩

end

end Argentum.Trail
