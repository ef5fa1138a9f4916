import Argentum.Trail.Verify

/-! What each check of the verifier asks, and what a positive answer has passed. -/
namespace Argentum.Trail
open Text Sha256 Jcs

section
variable [Interpreter] {α : Type} {agentId : Json} {values : List Json} {entries rest : List Entry} {e : Entry}
  {fromSeq prevSeq : Int} {prevHead : Json}

omit [Interpreter] in
theorem fail_ne_ok {verdict : Verdict} {reason : Reason} {atSeq : Option Int}
    {negative : verdict.positive = false} {x : α} : fail verdict reason atSeq negative ≠ .ok x := by
  simp [fail]

omit [Interpreter] in
theorem raising_eq_ok_iff {action : Except PyError α} {x : α} : raising action = .ok x ↔ action = .ok x := by
  cases action <;> simp [raising, Except.mapError]

omit [Interpreter] in
theorem readEntry_ok {value : Json} (read : readEntry value = some e) : e.value = value := by
  unfold readEntry at read
  split at read
  · split at read
    · cases read
      rfl
    · contradiction
  · contradiction

omit [Interpreter] in
theorem readEntry_value (e : Entry) : readEntry e.value = some e := by
  obtain ⟨value, seq, seqShape, headShape, refShape⟩ := e
  unfold readEntry
  split
  · rename_i seq' found
    obtain rfl := Json.int.inj (seqShape.symm.trans found)
    rw [dif_pos ⟨headShape, refShape⟩]
  · rename_i other
    exact absurd seqShape (other seq)

/-- The presented values pass the shape check as these entries. -/
theorem readEntries_eq_ok_iff : readEntries agentId values = .ok entries ↔
    entries.map Entry.value = values ∧ ∀ e ∈ entries, equals (e.value.get Key.agentId) agentId = .ok true := by
  induction values generalizing entries with
  | nil => cases entries <;> simp [readEntries]
  | cons value rest ih =>
      constructor
      · intro read
        unfold readEntries at read
        split at read
        · exact absurd read fail_ne_ok
        rename_i e found
        obtain rfl := readEntry_ok found
        obtain ⟨own, compared, read⟩ := bind_ok read
        split at read
        · exact absurd read fail_ne_ok
        rename_i named
        obtain rfl : own = true := by simpa using named
        obtain ⟨others, later, read⟩ := bind_ok read
        obtain rfl := Except.ok.inj read
        obtain ⟨shown, agents⟩ := ih.mp later
        exact ⟨by rw [List.map_cons, shown], List.forall_mem_cons.mpr ⟨raising_eq_ok_iff.mp compared, agents⟩⟩
      · rintro ⟨shown, agents⟩
        cases entries with
        | nil => contradiction
        | cons e others =>
            obtain ⟨rfl, rest⟩ := List.cons.inj shown
            have later := ih.mpr ⟨rest, fun e member => agents e (List.mem_cons_of_mem _ member)⟩
            have named := agents e List.mem_cons_self
            simp only [readEntries, readEntry_value, named, later]
            rfl

/-- The presented log passes the shape check as these entries, the first of which names the agent. -/
theorem readLog_eq_ok_iff {value : Json} : readLog value values = .ok (e, rest) ↔
    e.value = value ∧ rest.map Entry.value = values ∧ Json.eq (value.get Key.agentId) (value.get Key.agentId) = true ∧
      ∀ other ∈ rest, equals (other.value.get Key.agentId) (value.get Key.agentId) = .ok true := by
  constructor
  · intro read
    unfold readLog at read
    split at read
    · exact absurd read fail_ne_ok
    rename_i first found
    split at read
    · exact absurd read fail_ne_ok
    rename_i named
    obtain ⟨others, later, read⟩ := bind_ok read
    obtain ⟨rfl, rfl⟩ := Prod.mk.inj (Except.ok.inj read)
    obtain ⟨shown, agents⟩ := readEntries_eq_ok_iff.mp later
    exact ⟨readEntry_ok found, shown, by simpa using named, agents⟩
  · rintro ⟨rfl, shown, named, agents⟩
    have later := readEntries_eq_ok_iff.mpr ⟨shown, agents⟩
    simp only [readLog, readEntry_value, named, later]
    rfl

/-- The fields of an entry hash to its head. -/
def Checks (agentId : Json) (e : Entry) : Prop :=
  Fits (.int e.seq) (e.value.get Key.actionRef) (e.value.get Key.prevHead) (e.value.get Key.agentSeq) ∧
    ∃ bytes, jcsBytes (.dict (preimageItems agentId (.int e.seq) (e.value.get Key.actionRef)
      (e.value.get Key.prevHead) (e.value.get Key.agentSeq))) = .ok bytes ∧
    e.value.get Key.head = .str (hexOf (sha256 bytes))

/-- What continuity asks of one entry and the entries after it. -/
theorem walk_cons_ok : walk agentId fromSeq prevSeq prevHead (e :: rest) = .ok () ↔
    e.seq = prevSeq + 1 ∧ Checks agentId e ∧
      (fromSeq < e.seq → Json.eq (e.value.get Key.prevHead) prevHead = true) ∧
      walk agentId fromSeq e.seq (e.value.get Key.head) rest = .ok () := by
  constructor
  · intro walked
    unfold walk at walked
    split at walked
    · exact absurd walked fail_ne_ok
    rename_i next
    split at walked
    · exact absurd walked fail_ne_ok
    · contradiction
    rename_i pre accepted
    obtain ⟨digest, hashed, walked⟩ := bind_ok walked
    obtain ⟨fits, rfl⟩ := entryPreimage_eq_ok_iff.mp accepted
    obtain ⟨bytes, encoded, rfl⟩ := sha256Jcs_eq_ok_iff.mp (raising_eq_ok_iff.mp hashed)
    split at walked
    · exact absurd walked fail_ne_ok
    rename_i head
    split at walked
    · exact absurd walked fail_ne_ok
    rename_i link
    refine ⟨by simpa using next, ⟨fits, bytes, encoded, by simpa using head⟩, ?_, walked⟩
    intro later
    simpa [later] using link
  · rintro ⟨next, ⟨fits, bytes, encoded, head⟩, link, walked⟩
    have hashed : sha256Jcs (.dict (preimageItems agentId (.int e.seq) (e.value.get Key.actionRef)
        (e.value.get Key.prevHead) (e.value.get Key.agentSeq))) = .ok (hexOf (sha256 bytes)) := by
      rw [sha256Jcs, encoded]
      rfl
    have matching : Json.eq (.str (hexOf (sha256 bytes))) (e.value.get Key.head) = true :=
      Json.str_eq.mpr head
    have linked : (fromSeq < e.seq && !Json.eq (e.value.get Key.prevHead) prevHead) = false := by
      by_cases later : fromSeq < e.seq
      · simp [later, link later]
      · simp [later]
    unfold walk
    rw [if_neg (by simpa using next), entryPreimage_eq_ok_iff.mpr ⟨fits, rfl⟩]
    simp only [hashed, raising, Except.mapError, bind, Except.bind, matching, linked, Bool.not_true,
      Bool.false_eq_true, if_false]
    exact walked

/-- The head before index `i` of the entries, `prevHead` before the first. -/
def statedBefore (prevHead : Json) (entries : List Entry) : Nat → Json
  | 0 => prevHead
  | i + 1 => (entries[i]?.map fun e => e.value.get Key.head).getD .null

/-- Continuity: consecutive seqs, every head its entry's hash, every link to the head before. -/
theorem walk_eq_ok_iff : walk agentId fromSeq prevSeq prevHead entries = .ok () ↔
    ∀ (i : Nat) (e : Entry), entries[i]? = some e → e.seq = prevSeq + 1 + i ∧ Checks agentId e ∧
      (fromSeq < e.seq → Json.eq (e.value.get Key.prevHead) (statedBefore prevHead entries i) = true) := by
  induction entries generalizing prevSeq prevHead with
  | nil => simp [walk]
  | cons first rest ih =>
      have shift : ∀ i, statedBefore (first.value.get Key.head) rest i =
          statedBefore prevHead (first :: rest) (i + 1) := by
        intro i
        cases i <;> rfl
      rw [walk_cons_ok, ih]
      constructor
      · rintro ⟨next, checks, link, later⟩ i e found
        cases i with
        | zero =>
            obtain rfl := Option.some.inj found
            exact ⟨by simpa using next, checks, link⟩
        | succ i =>
            obtain ⟨seq, checksToo, linkToo⟩ := later i e found
            rw [shift] at linkToo
            exact ⟨by push_cast; omega, checksToo, linkToo⟩
      · intro each
        obtain ⟨next, checks, link⟩ := each 0 first rfl
        refine ⟨by simpa using next, checks, link, fun i e found => ?_⟩
        obtain ⟨seq, checksToo, linkToo⟩ := each (i + 1) e found
        rw [shift]
        simp only [Nat.cast_zero, add_zero] at next
        exact ⟨by push_cast at seq; omega, checksToo, linkToo⟩

end

section
variable [Interpreter]

theorem provenIn_ok {cp proof root : Json} (proven : provenIn cp proof root = .ok true) :
    ∃ digest, sha256Jcs cp = .ok digest ∧ verifyInclusion digest proof root = .ok true := by
  unfold provenIn at proven
  split at proven
  · cases proven
  · exact bind_ok proven

theorem checkCheckpoint_ok {checkpoint proof root agentId : Json} {cpSeq : Int}
    (checked : checkCheckpoint checkpoint proof root agentId = .ok cpSeq) :
    (checkpoint.get Key.seq).int? = some cpSeq ∧
      Json.eq (checkpoint.get Key.agentId) agentId = true ∧
      isHex64 (checkpoint.get Key.head) = true ∧ provenIn checkpoint proof root = .ok true := by
  unfold checkCheckpoint at checked
  split at checked
  · exact absurd checked fail_ne_ok
  rename_i seq found
  split at checked
  · exact absurd checked fail_ne_ok
  rename_i shape
  obtain ⟨own, compared, checked⟩ := bind_ok checked
  split at checked
  · exact absurd checked fail_ne_ok
  rename_i named
  obtain rfl : own = true := by simpa using named
  obtain ⟨proven, verified, checked⟩ := bind_ok checked
  split at checked
  · exact absurd checked fail_ne_ok
  rename_i included
  obtain rfl := Except.ok.inj checked
  obtain rfl : proven = true := by simpa using included
  simp only [Bool.or_eq_true, not_or, Bool.not_eq_true', Bool.not_eq_false] at shape
  exact ⟨found, (equals_eq_ok_iff.mp (raising_eq_ok_iff.mp compared)).2, shape.2, raising_eq_ok_iff.mp verified⟩

omit [Interpreter] in
/-- A positive answer names the sealed entry inside the presented ones. -/
theorem conclude_positive {entries : List Entry} {checkpoint : Json} {cpSeq fromSeq lastSeq : Int}
    {windowAnchor : WindowAnchor} {result : Result}
    (concluded : conclude entries checkpoint cpSeq fromSeq lastSeq windowAnchor = .ok result)
    (positive : result.verdict.positive = true) :
    fromSeq ≤ cpSeq ∧ cpSeq ≤ lastSeq ∧
      (∃ e, entries[(cpSeq - fromSeq).toNat]? = some e ∧
        Json.eq (e.value.get Key.head) (checkpoint.get Key.head) = true) ∧
      (result.verdict = .complete ∨ result.verdict = .windowComplete → lastSeq = cpSeq) := by
  unfold conclude at concluded
  split at concluded
  · obtain rfl := Except.ok.inj concluded
    contradiction
  rename_i inWindow
  split at concluded
  · obtain rfl := Except.ok.inj concluded
    contradiction
  rename_i reached
  split at concluded
  · contradiction
  rename_i e found
  split at concluded
  · exact absurd concluded fail_ne_ok
  rename_i head
  obtain ⟨asOf, _, concluded⟩ := bind_ok concluded
  refine ⟨by omega, by omega, ⟨e, found, by simpa using head⟩, ?_⟩
  split at concluded
  · rename_i last
    exact fun _ => last
  · obtain rfl := Except.ok.inj concluded
    by_cases window : 1 < fromSeq <;> simp [window]

/-- What the checks of a positive answer establish. -/
structure Passed (request : Request) (result : Result) (agentId : Json) (entries : List Entry)
    (fromSeq cpSeq : Int) : Prop where
  given : request.entries = .list (entries.map Entry.value)
  agents : ∀ e ∈ entries, Json.eq (e.value.get Key.agentId) agentId = true
  start : request.fromSeq = .int fromSeq
  positive : 1 ≤ fromSeq
  walked : walk agentId fromSeq (fromSeq - 1) .null entries = .ok ()
  cpShape : (request.checkpoint.get Key.seq).int? = some cpSeq
  cpAgent : Json.eq (request.checkpoint.get Key.agentId) agentId = true
  cpHead : isHex64 (request.checkpoint.get Key.head) = true
  proven : provenIn request.checkpoint request.proof request.root = .ok true
  inWindow : fromSeq ≤ cpSeq
  reached : cpSeq < fromSeq + entries.length
  sealedHead : ∃ e, entries[(cpSeq - fromSeq).toNat]? = some e ∧
    Json.eq (e.value.get Key.head) (request.checkpoint.get Key.head) = true
  whole : result.verdict = .complete ∨ result.verdict = .windowComplete →
    fromSeq + entries.length = cpSeq + 1

theorem runTrail_positive {fromisoformat : FromIsoFormat} {request : Request} {result : Result}
    (ran : runTrail fromisoformat request = .ok result) (positive : result.verdict.positive = true) :
    ∃ agentId entries fromSeq cpSeq, Passed request result agentId entries fromSeq cpSeq := by
  unfold runTrail at ran
  split at ran
  on_goal 2 => exact absurd ran fail_ne_ok
  rename_i value rest given
  obtain ⟨⟨first, others⟩, read, ran⟩ := bind_ok ran
  obtain ⟨own, shown, named, agents⟩ := readLog_eq_ok_iff.mp read
  dsimp only at ran
  unfold checkTrail at ran
  split at ran
  · contradiction
  rename_i fromSeq start
  split at ran
  · contradiction
  rename_i small
  obtain ⟨_, _, ran⟩ := bind_ok ran
  obtain ⟨_, walked, ran⟩ := bind_ok ran
  obtain ⟨windowAnchor, _, ran⟩ := bind_ok ran
  obtain ⟨_, _, ran⟩ := bind_ok ran
  unfold checkComplete at ran
  split at ran
  · obtain rfl := Except.ok.inj ran
    contradiction
  obtain ⟨cpSeq, checked, ran⟩ := bind_ok ran
  obtain ⟨_, _, ran⟩ := bind_ok ran
  obtain ⟨cpShape, cpAgent, cpHead, proven⟩ := checkCheckpoint_ok checked
  obtain ⟨inWindow, reached, sealedHead, whole⟩ := conclude_positive ran positive
  have lastSeq : ((first :: others).getLast (by simp)).seq = fromSeq + others.length := by
    have final : (first :: others)[others.length]? = some ((first :: others).getLast (by simp)) := by
      rw [← List.getLast?_eq_some_getLast, List.getLast?_eq_getElem?]
      rfl
    rw [(walk_eq_ok_iff.mp walked _ _ final).1]
    omega
  rw [lastSeq] at reached whole
  refine ⟨value.get Key.agentId, first :: others, fromSeq, cpSeq, ?_⟩
  exact {
    given := by rw [given, List.map_cons, own, shown]
    agents := List.forall_mem_cons.mpr ⟨own ▸ named, fun e member => (equals_eq_ok_iff.mp (agents e member)).2⟩
    walked, cpShape, cpAgent, cpHead, proven, inWindow, sealedHead
    start := by
      cases shape : request.fromSeq <;> simp_all [Json.properInt?]
    positive := by omega
    reached := by
      rw [List.length_cons]
      push_cast
      omega
    whole := fun verdict => by
      have last := whole verdict
      rw [List.length_cons]
      push_cast
      omega }

theorem verifyTrail_positive {fromisoformat : FromIsoFormat} {request : Request} {result : Result}
    (verified : verifyTrail fromisoformat request = .ok result) (positive : result.verdict.positive = true) :
    ∃ agentId entries fromSeq cpSeq, Passed request result agentId entries fromSeq cpSeq := by
  unfold verifyTrail at verified
  split at verified
  · rename_i ran
    cases verified
    exact runTrail_positive ran positive
  · rename_i negative _
    cases verified
    rw [positive] at negative
    contradiction
  · contradiction

end

end Argentum.Trail
