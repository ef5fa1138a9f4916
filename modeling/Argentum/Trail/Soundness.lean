import Argentum.Trail.Seal
import Argentum.Trail.Checks
import Mathlib.Tactic.Tauto

/-! Soundness of trail completeness. A positive answer on entries that name the
agent of a sealed log ties them to that log: the sealed checkpoint fixes the head
of its last entry, and heads fix entries back to the start of the window. The
only other outcome is a collision among the strings that the producer and the
verifier hashed. -/
namespace Argentum.Trail
open Text Sha256 Jcs

section
variable [Interpreter]

/-- The string `_sha256_jcs` hashes. -/
def hashedOf (value : Json) : List Bytes :=
  match jcsBytes value with
  | .ok bytes => [bytes]
  | .error _ => []

/-- The string hashed for an entry, by the producer and by the verifier. -/
def entryHashed (entry : Json) : List Bytes :=
  hashedOf (.dict (preimageItems (entry.get Key.agentId) (entry.get Key.seq) (entry.get Key.actionRef)
    (entry.get Key.prevHead) (entry.get Key.agentSeq)))

/-- The strings hashed to prove a checkpoint under a root. -/
def provenHashed (cp proof : Json) : List Bytes :=
  if cp.isNull then []
  else hashedOf cp ++
    match checkpointDigest cp with
    | .ok digest => inclusionHashed digest proof
    | .error _ => []

/-- The strings `verify_trail` hashes in a run that reaches its last check. -/
def Request.hashed (request : Request) : List Bytes :=
  (match request.entries with
    | .list presented => presented.flatMap entryHashed
    | _ => []) ++
  provenHashed request.checkpoint request.proof ++ provenHashed request.anchor request.anchorProof

/-- The strings hashed to write the log, to seal the period and to verify the request. -/
def runHashed (log checkpoints : List Json) (period : Sealed) (request : Request) : List Bytes :=
  log.flatMap entryHashed ++ checkpoints.flatMap hashedOf ++ period.tree.hashed ++ request.hashed

section
variable {log checkpoints : List Json} {period : Sealed} {request : Request} {x : Bytes}

theorem mem_runHashed_of_log {own : Json} (inside : own ∈ log) (hashed : x ∈ entryHashed own) :
    x ∈ runHashed log checkpoints period request := by
  simp only [runHashed, List.mem_append]
  exact Or.inl (Or.inl (Or.inl (List.mem_flatMap.mpr ⟨own, inside, hashed⟩)))

theorem mem_runHashed_of_seal (hashed : x ∈ checkpoints.flatMap hashedOf ++ period.tree.hashed) :
    x ∈ runHashed log checkpoints period request := by
  simp only [runHashed, List.mem_append] at hashed ⊢
  tauto

theorem mem_runHashed_of_entry {presented : List Json} {shown : Json} (given : request.entries = .list presented)
    (inside : shown ∈ presented) (hashed : x ∈ entryHashed shown) :
    x ∈ runHashed log checkpoints period request := by
  have verified : x ∈ request.hashed := by
    rw [Request.hashed, given]
    exact List.mem_append_left _ (List.mem_append_left _ (List.mem_flatMap.mpr ⟨shown, inside, hashed⟩))
  exact List.mem_append_right _ verified

theorem mem_runHashed_of_proof (hashed : x ∈ provenHashed request.checkpoint request.proof) :
    x ∈ runHashed log checkpoints period request := by
  have verified : x ∈ request.hashed := by
    rw [Request.hashed]
    exact List.mem_append_left _ (List.mem_append_right _ hashed)
  exact List.mem_append_right _ verified

end

/-- The fields of an entry that its head commits to, and the head. -/
def SameEntry (shown own : Json) : Prop :=
  ∀ key ∈ [Key.seq, Key.actionRef, Key.prevHead, Key.agentSeq, Key.head], shown.get key = own.get key

/-- The presented entries from the window's start through the checkpoint are the
log's own, and a `complete` answer leaves no others. -/
structure Faithful (log : List Json) (m : Nat) (request : Request) (result : Result)
    (presented : List Json) (fromSeq : Nat) : Prop where
  given : request.entries = .list presented
  start : request.fromSeq = .int fromSeq
  cpSeq : request.checkpoint.get Key.seq = .int m
  inWindow : 1 ≤ fromSeq ∧ fromSeq ≤ m
  agree : ∀ j, fromSeq ≤ j → j ≤ m → ∃ shown own, presented[j - fromSeq]? = some shown ∧
    log[j - 1]? = some own ∧ shown.get Key.seq = .int j ∧ SameEntry shown own
  located : ∀ (i : Nat) (shown : Json), presented[i]? = some shown → shown.get Key.seq = .int (fromSeq + i)
  whole : result.verdict = .complete ∨ result.verdict = .windowComplete →
    presented.length = m + 1 - fromSeq

theorem hashedOf_eq {value : Json} {bytes : Bytes} (encoded : jcsBytes value = .ok bytes) :
    hashedOf value = [bytes] := by
  rw [hashedOf, encoded]

section
variable {agentId : Str} {e : Entry} {seq : Int} {actionRef prevHead agentSeq own : Json}
  {strings : List Bytes}

/-- An entry that verifies and one that was made have the same fields when they
have the same head. -/
theorem sameEntry_of_head (checks : Checks (.str agentId) e)
    (named : e.value.get Key.agentId = .str agentId)
    (made : makeEntry (.str agentId) (.int seq) actionRef prevHead agentSeq = .ok own)
    (shown : ∀ x ∈ entryHashed e.value, x ∈ strings) (written : ∀ x ∈ entryHashed own, x ∈ strings)
    (free : ¬ Collides strings) (head : e.value.get Key.head = own.get Key.head) :
    e.seq = seq ∧ SameEntry e.value own := by
  obtain ⟨fits, bytes, encoded, digest⟩ := checks
  obtain ⟨fits', bytes', encoded', entry⟩ := makeEntry_ok made
  obtain ⟨_, agentGot, seqGot, refGot, prevGot, counterGot, headGot⟩ := get_entryOf entry
  have shownBytes : bytes ∈ strings := by
    apply shown
    rw [entryHashed, named, e.seqShape, hashedOf_eq encoded]
    exact List.mem_singleton_self _
  have writtenBytes : bytes' ∈ strings := by
    apply written
    rw [entryHashed, agentGot, seqGot, refGot, prevGot, counterGot, hashedOf_eq encoded']
    exact List.mem_singleton_self _
  rw [digest, headGot, Json.str.injEq] at head
  obtain rfl := eq_of_not_collides free shownBytes writtenBytes (hexOf_injective head)
  obtain ⟨seqs, refs, prevs, counters⟩ := preimage_injective fits fits' encoded encoded'
  refine ⟨Json.int.inj seqs, ?_⟩
  simp only [SameEntry, List.forall_mem_cons, e.seqShape, seqGot, refGot, prevGot, counterGot,
    headGot, digest, refs, prevs, counters, seqs]
  simp

end

omit [Interpreter] in
theorem lookup_of_canonical {items others : List (Str × Json)} {key : Str} {x : Json}
    (same : canonical (.dict items) = canonical (.dict others)) (found : others.lookup key = some x) :
    ∃ y, items.lookup key = some y ∧ canonical y = canonical x := by
  have values := canonical_lookup same key
  rw [found, Option.map_some, Option.map_eq_some_iff] at values
  exact values

/-- A checkpoint that is proven under the root of a period for the agent of a
sealed checkpoint has the text of that checkpoint. -/
theorem canonical_of_provenIn {checkpoints : List Json} {period : Sealed} {agentId : Str}
    {cp shown proof : Json} {strings : List Bytes} (sealing : sealPeriod checkpoints = .ok period)
    (member : cp ∈ checkpoints) (owned : cp.item Key.agentId = .ok (.str agentId))
    (named : shown.get Key.agentId = .str agentId)
    (proven : provenIn shown proof (.str period.root) = .ok true)
    (sealedStrings : ∀ x ∈ checkpoints.flatMap hashedOf ++ period.tree.hashed, x ∈ strings)
    (shownStrings : ∀ x ∈ provenHashed shown proof, x ∈ strings) (free : ¬ Collides strings) :
    canonical shown = canonical cp := by
  obtain ⟨ordered, seals⟩ := sealPeriod_eq_ok_iff.mp sealing
  obtain ⟨digest, hashed, included⟩ := provenIn_ok proven
  obtain ⟨bytes, encoded, rfl⟩ := sha256Jcs_eq_ok_iff.mp hashed
  obtain ⟨items, rfl, agent⟩ := Json.get_eq_str named
  have strings' : ∀ x ∈ hashedOf (.dict items) ++ inclusionHashed (hexOf (sha256 bytes)) proof,
      x ∈ strings := by
    intro x inside
    apply shownStrings
    rwa [provenHashed, checkpointDigest, hashed]
  rw [seals.root] at included
  have freeTree : ¬ Collides (period.tree.hashed ++ inclusionHashed (hexOf (sha256 bytes)) proof) := by
    refine fun collides => free (collides.mono fun x inside => ?_)
    rcases List.mem_append.mp inside with tree | path
    · exact sealedStrings x (List.mem_append_right _ tree)
    · exact strings' x (List.mem_append_right _ path)
  obtain ⟨leaf, stored, sameHex⟩ := verifyInclusion_sound seals.tree included freeTree
  obtain ⟨item, sealedItem, leafHashed⟩ := seals.leaf.2 leaf stored
  obtain ⟨leafBytes, leafEncoded, rfl⟩ := sha256Jcs_eq_ok_iff.mp leafHashed
  rw [fromhex_hexOf, fromhex_hexOf, Option.some.injEq] at sameHex
  obtain ⟨given, itemNamed⟩ := seals.mem.2 item sealedItem
  have leafIn : leafBytes ∈ strings := by
    refine sealedStrings _ (List.mem_append_left _ (List.mem_flatMap.mpr ⟨item.2, given, ?_⟩))
    rw [hashedOf_eq leafEncoded]
    exact List.mem_singleton_self _
  have bytesIn : bytes ∈ strings := by
    refine strings' _ (List.mem_append_left _ ?_)
    rw [hashedOf_eq encoded]
    exact List.mem_singleton_self _
  obtain rfl := eq_of_not_collides free leafIn bytesIn sameHex
  have same := canonical_of_jcsBytes encoded leafEncoded
  -- the leaf's checkpoint names the same agent, and the seal holds one checkpoint of each agent
  obtain ⟨leafItems, leafDict, leafAgent⟩ := Json.item_ok itemNamed
  have agents : item.1 = agentId := by
    rw [leafDict] at same
    obtain ⟨y, found, sameId⟩ := lookup_of_canonical same leafAgent
    rw [agent] at found
    obtain rfl := Option.some.inj found
    exact (Json.str.inj (str_of_canonical sameId)).symm
  obtain ⟨agentId', stored'⟩ := seals.mem.1 cp member
  have agents' : agentId' = agentId := by
    have read := (seals.mem.2 _ stored').2
    rw [owned] at read
    exact (Json.str.inj (Except.ok.inj read)).symm
  have sealedToo : (item.1, cp) ∈ ordered := by
    rw [agents, ← agents']
    exact stored'
  have sameItem : item.2 = cp := seals.unique sealedItem sealedToo
  rw [same, sameItem]

/-- The presented entry of seq `j` and the log's own have one head. -/
def SameHead (entries : List Entry) (log : List Json) (fromSeq j : Nat) : Prop :=
  ∃ e own, entries[j - fromSeq]? = some e ∧ log[j - 1]? = some own ∧
    e.value.get Key.head = own.get Key.head

section
variable {agentId : Str} {calls : List (Json × Json)} {log : List Json} {entries : List Entry}
  {fromSeq m : Nat} {strings : List Bytes}

/-- One head fixes the entry it is the head of. -/
theorem sameEntry_at (chained : Chained (.str agentId) calls log)
    (walked : walk (.str agentId) fromSeq (fromSeq - 1) .null entries = .ok ())
    (named : ∀ e ∈ entries, e.value.get Key.agentId = .str agentId)
    (shown : ∀ e ∈ entries, ∀ x ∈ entryHashed e.value, x ∈ strings)
    (written : ∀ own ∈ log, ∀ x ∈ entryHashed own, x ∈ strings) (free : ¬ Collides strings)
    {j : Nat} {e : Entry} {own : Json} (first : 1 ≤ j) (foundShown : entries[j - fromSeq]? = some e)
    (foundOwn : log[j - 1]? = some own) (head : e.value.get Key.head = own.get Key.head) :
    e.seq = j ∧ SameEntry e.value own ∧ e.value.get Key.prevHead = headBefore log (j - 1) := by
  obtain ⟨actionRef, agentSeq, _, made⟩ := chained.made _ _ foundOwn
  obtain ⟨_, checks, _⟩ := walk_eq_ok_iff.mp walked _ _ foundShown
  have member := List.mem_of_getElem? foundShown
  obtain ⟨seqs, same⟩ := sameEntry_of_head checks (named e member) made (shown e member)
    (written own (List.mem_of_getElem? foundOwn)) free head
  obtain ⟨_, bytes, _, entry⟩ := makeEntry_ok made
  have prev := same Key.prevHead (by simp)
  rw [(get_entryOf entry).2.2.2.2.1] at prev
  exact ⟨by omega, same, prev⟩

/-- Heads that agree at `m` agree back to the start of the window. -/
theorem sameHead_back (chained : Chained (.str agentId) calls log)
    (walked : walk (.str agentId) fromSeq (fromSeq - 1) .null entries = .ok ())
    (named : ∀ e ∈ entries, e.value.get Key.agentId = .str agentId)
    (shown : ∀ e ∈ entries, ∀ x ∈ entryHashed e.value, x ∈ strings)
    (written : ∀ own ∈ log, ∀ x ∈ entryHashed own, x ∈ strings) (free : ¬ Collides strings)
    (positive : 1 ≤ fromSeq) (last : SameHead entries log fromSeq m) :
    ∀ j, fromSeq ≤ j → j ≤ m → SameHead entries log fromSeq j := by
  intro j start inside
  induction inside using Nat.decreasingInduction with
  | self => exact last
  | of_succ j _ ih =>
      obtain ⟨e, own, foundShown, foundOwn, head⟩ := ih (by omega)
      obtain ⟨seq, _, prev⟩ := sameEntry_at chained walked named shown written free (by omega)
        foundShown foundOwn head
      obtain ⟨_, _, link⟩ := walk_eq_ok_iff.mp walked _ _ foundShown
      replace link := link (by omega)
      obtain ⟨before, foundBefore⟩ : ∃ before, entries[j - fromSeq]? = some before := by
        have bound := (List.getElem?_eq_some_iff.mp foundShown).1
        exact ⟨_, List.getElem?_eq_getElem (show j - fromSeq < entries.length by omega)⟩
      obtain ⟨ownBefore, foundOwnBefore⟩ : ∃ own, log[j - 1]? = some own := by
        have bound := (List.getElem?_eq_some_iff.mp foundOwn).1
        exact ⟨_, List.getElem?_eq_getElem (show j - 1 < log.length by omega)⟩
      refine ⟨before, ownBefore, foundBefore, foundOwnBefore, ?_⟩
      have stated : statedBefore .null entries (j + 1 - fromSeq) = before.value.get Key.head := by
        rw [show j + 1 - fromSeq = j - fromSeq + 1 by omega, statedBefore, foundBefore]
        rfl
      have written : headBefore log (j + 1 - 1) = ownBefore.get Key.head := by
        rw [show j + 1 - 1 = j - 1 + 1 by omega, headBefore, foundOwnBefore]
        rfl
      obtain ⟨s, text⟩ := isHex64_str before.headShape
      rw [stated, prev, written, text, Json.eq_str] at link
      rw [text, link]

end

omit [Interpreter] in
/-- A shown checkpoint with the text of a made one has its seq and its head. -/
theorem fields_of_canonical {shown agentId periodEnd : Json} {n cpSeq : Int} {agent head : Str}
    (named : shown.get Key.agentId = .str agent)
    (same : canonical shown = canonical (.dict [(Key.v, .str checkpointV), (Key.agentId, agentId),
      (Key.periodEnd, periodEnd), (Key.seq, .int n), (Key.head, .str head)]))
    (shape : (shown.get Key.seq).int? = some cpSeq) :
    shown.get Key.seq = .int n ∧ cpSeq = n ∧ shown.get Key.head = .str head := by
  obtain ⟨items, rfl, _⟩ := Json.get_eq_str named
  obtain ⟨seq, seqFound, sameSeq⟩ := @lookup_of_canonical items _ Key.seq (.int n) same rfl
  obtain ⟨stated, headFound, sameHead⟩ := @lookup_of_canonical items _ Key.head (.str head) same rfl
  simp only [Json.get, seqFound, headFound, Option.getD_some] at shape ⊢
  obtain ⟨rfl, rfl⟩ := int_of_canonical shape sameSeq
  exact ⟨rfl, rfl, str_of_canonical sameHead⟩

/-- A positive answer on entries that name the agent of a sealed log is about that log. -/
theorem trail_sound {fromisoformat : FromIsoFormat} {agentId : Str} {calls : List (Json × Json)}
    {log checkpoints : List Json} {m : Nat} {periodEnd cp : Json} {period : Sealed}
    {request : Request} {result : Result} (built : appendAll (.str agentId) [] calls = .ok log)
    (within : 1 ≤ m ∧ m ≤ log.length)
    (made : makeCheckpoint fromisoformat (.str agentId) periodEnd (log.take m) = .ok cp)
    (member : cp ∈ checkpoints) (sealing : sealPeriod checkpoints = .ok period)
    (rooted : request.root = .str period.root)
    (named : ∀ presented, request.entries = .list presented →
      ∀ shown ∈ presented, shown.get Key.agentId = .str agentId)
    (verified : verifyTrail fromisoformat request = .ok result)
    (positive : result.verdict.positive = true) :
    Collides (runHashed log checkpoints period request) ∨
      ∃ presented fromSeq, Faithful log m request result presented fromSeq := by
  by_cases free : Collides (runHashed log checkpoints period request)
  · exact Or.inl free
  right
  obtain ⟨agent, entries, fromSeq, cpSeq, passed⟩ := verifyTrail_positive verified positive
  have chained : Chained (.str agentId) calls log := appendAll_chained (chained_nil _) built
  have agents : ∀ e ∈ entries, e.value.get Key.agentId = .str agentId := fun e shown =>
    named _ passed.given _ (List.mem_map_of_mem shown)
  have start := passed.positive
  obtain ⟨fromSeq, rfl⟩ : ∃ k : Nat, fromSeq = k := ⟨fromSeq.toNat, by omega⟩
  obtain ⟨sealedEntry, foundSealed, sealedHead⟩ := passed.sealedHead
  obtain rfl : agent = .str agentId := by
    have shown := List.mem_of_getElem? foundSealed
    have same := passed.agents _ shown
    rwa [agents _ shown, Json.str_eq] at same
  have shown : ∀ e ∈ entries, ∀ x ∈ entryHashed e.value, x ∈ runHashed log checkpoints period request :=
    fun e inside x hashed => mem_runHashed_of_entry passed.given (List.mem_map_of_mem inside) hashed
  have written : ∀ own ∈ log, ∀ x ∈ entryHashed own, x ∈ runHashed log checkpoints period request :=
    fun own inside x hashed => mem_runHashed_of_log inside hashed
  -- the checkpoint presented is the log's own, up to what its text does not say
  obtain ⟨own, head, ownFound, ownHead, rfl⟩ := chained.checkpoint within made
  have proven := passed.proven
  rw [rooted] at proven
  have same := canonical_of_provenIn sealing member rfl (Json.eq_str.mp passed.cpAgent) proven
    (fun x hashed => mem_runHashed_of_seal hashed) (fun x hashed => mem_runHashed_of_proof hashed) free
  obtain ⟨cpSeqIs, rfl, cpHeadIs⟩ :=
    fields_of_canonical (Json.eq_str.mp passed.cpAgent) same passed.cpShape
  have inWindow := passed.inWindow
  have reached := passed.reached
  have head : sealedEntry.value.get Key.head = own.get Key.head := by
    rw [cpHeadIs, Json.eq_str] at sealedHead
    rw [sealedHead, ownHead]
  have indices : ((m : Int) - fromSeq).toNat = m - fromSeq := by omega
  rw [indices] at foundSealed
  have back := sameHead_back chained passed.walked agents shown written free (by omega)
    ⟨sealedEntry, own, foundSealed, ownFound, head⟩
  refine ⟨entries.map Entry.value, fromSeq, ?_⟩
  exact {
    given := passed.given
    start := passed.start
    cpSeq := cpSeqIs
    inWindow := by omega
    agree := fun j start inside => by
      obtain ⟨e, ownAt, foundShown, foundOwn, sameHead⟩ := back j start inside
      obtain ⟨seqIs, sameEntry, _⟩ := sameEntry_at chained passed.walked agents shown written free
        (by omega) foundShown foundOwn sameHead
      refine ⟨e.value, ownAt, by rw [List.getElem?_map, foundShown]; rfl, foundOwn, ?_, sameEntry⟩
      rw [e.seqShape, seqIs]
    located := fun i value found => by
      rw [List.getElem?_map, Option.map_eq_some_iff] at found
      obtain ⟨e, foundShown, rfl⟩ := found
      rw [e.seqShape, (walk_eq_ok_iff.mp passed.walked _ _ foundShown).1]
      congr 1
      omega
    whole := fun verdict => by
      have last := passed.whole verdict
      rw [List.length_map]
      omega }

end

instance (strings : List Bytes) : Decidable (Collides strings) :=
  inferInstanceAs (Decidable (∃ x ∈ strings, ∃ y ∈ strings, x ≠ y ∧ sha256 x = sha256 y))

/-- `fromisoformat` on the one period end of the runs below. -/
def newYear : FromIsoFormat := fun text =>
  if text = ofString "2026-01-01T00:00:00+00:00" then some ⟨1767225600000000, true⟩ else none

def periodEnd : Json := .str (ofString "2026-01-01T00:00:00Z")

/-- The one call that writes the log of agent `a`, or of agent `b`. -/
def callsOf (a : Bool) : List (Json × Json) := [(.str (List.replicate 64 (if a then 97 else 98)), .null)]

def agentOf (a : Bool) : Str := if a then ofString "a" else ofString "b"

open Cpython

/-- The logs of two agents, sealed together; one of them is presented. -/
structure Presentation where
  log : Bool → List Json
  checkpoint : Bool → Json
  period : Sealed
  request : Request
  result : Result

def present (a : Bool) : Except PyError Presentation := do
  let logA ← appendAll (.str (agentOf true)) [] (callsOf true)
  let logB ← appendAll (.str (agentOf false)) [] (callsOf false)
  let cpA ← makeCheckpoint newYear (.str (agentOf true)) periodEnd (logA.take 1)
  let cpB ← makeCheckpoint newYear (.str (agentOf false)) periodEnd (logB.take 1)
  let log := fun a => if a then logA else logB
  let checkpoint := fun a => if a then cpA else cpB
  let period ← sealPeriod [cpA, cpB]
  let proof ← getProof (← checkpointDigest (checkpoint a)) period.tree
  let request : Request :=
    { entries := .list (log a), checkpoint := checkpoint a
      proof := .list (proof.map .str), root := .str period.root }
  let result ← verifyTrail newYear request
  return { log, checkpoint, period, request, result }

theorem present_ok {a : Bool} {run : Presentation} (ran : present a = .ok run) :
    (∀ b, appendAll (.str (agentOf b)) [] (callsOf b) = .ok (run.log b)) ∧
      (∀ b, makeCheckpoint newYear (.str (agentOf b)) periodEnd ((run.log b).take 1) =
        .ok (run.checkpoint b)) ∧
      sealPeriod [run.checkpoint true, run.checkpoint false] = .ok run.period ∧
      run.request.entries = .list (run.log a) ∧ run.request.root = .str run.period.root ∧
      verifyTrail newYear run.request = .ok run.result := by
  obtain ⟨logA, builtA, ran⟩ := bind_ok ran
  obtain ⟨logB, builtB, ran⟩ := bind_ok ran
  obtain ⟨cpA, madeA, ran⟩ := bind_ok ran
  obtain ⟨cpB, madeB, ran⟩ := bind_ok ran
  obtain ⟨period, sealing, ran⟩ := bind_ok ran
  obtain ⟨digest, _, ran⟩ := bind_ok ran
  obtain ⟨proof, _, ran⟩ := bind_ok ran
  obtain ⟨result, verified, ran⟩ := bind_ok ran
  obtain rfl := Except.ok.inj ran
  refine ⟨?_, ?_, sealing, rfl, rfl, verified⟩
  · rintro (_ | _)
    · exact builtB
    · exact builtA
  · rintro (_ | _)
    · exact madeB
    · exact madeA

/-- Either log is answered `complete` when it is presented, without a collision. -/
theorem present_complete : ∀ a, ∃ run, present a = .ok run ∧ run.result.verdict = .complete ∧
    ¬ Collides (runHashed (run.log true) [run.checkpoint true, run.checkpoint false] run.period run.request) := by
  have computed : ∀ a, (match present a with
      | .ok run => decide (run.result.verdict = .complete ∧ ¬ Collides (runHashed (run.log true)
          [run.checkpoint true, run.checkpoint false] run.period run.request))
      | .error _ => false) = true := by
    decide +kernel
  intro a
  have holds := computed a
  split at holds
  · rename_i run ran
    exact ⟨run, ran, of_decide_eq_true holds⟩
  · cases holds

/-- The log of agent `a`, sealed with the log of `b`, is tied to the one presented. -/
theorem trail_sound_ownLog : ∃ run, present true = .ok run ∧
    (Collides (runHashed (run.log true) [run.checkpoint true, run.checkpoint false] run.period run.request) ∨
      ∃ presented fromSeq, Faithful (run.log true) 1 run.request run.result presented fromSeq) := by
  obtain ⟨run, ran, complete, _⟩ := present_complete true
  obtain ⟨built, made, sealing, given, rooted, verified⟩ := present_ok ran
  have chained := appendAll_chained (chained_nil _) (built true)
  have named : ∀ presented, run.request.entries = .list presented →
      ∀ shown ∈ presented, shown.get Key.agentId = .str (agentOf true) := by
    intro presented same shown member
    rw [given, Json.list.injEq] at same
    obtain ⟨i, found⟩ := List.mem_iff_getElem?.mp (same ▸ member)
    obtain ⟨actionRef, agentSeq, _, entry⟩ := chained.made i shown found
    obtain ⟨_, bytes, _, entry⟩ := makeEntry_ok entry
    exact (get_entryOf entry).2.1
  exact ⟨run, ran, trail_sound (built true) ⟨le_rfl, by rw [chained.length]; decide⟩ (made true)
    (by simp) sealing rooted named verified (by rw [complete]; rfl)⟩

/-- The log of agent `b`, presented with its own sealed checkpoint, is answered
`complete` under the root that seals the log of `a`. -/
theorem not_trail_sound_otherLog : ∃ run, present false = .ok run ∧
    appendAll (.str (agentOf true)) [] (callsOf true) = .ok (run.log true) ∧
    makeCheckpoint newYear (.str (agentOf true)) periodEnd ((run.log true).take 1) =
      .ok (run.checkpoint true) ∧
    sealPeriod [run.checkpoint true, run.checkpoint false] = .ok run.period ∧
    run.request.root = .str run.period.root ∧
    verifyTrail newYear run.request = .ok run.result ∧ run.result.verdict = .complete ∧
    ¬ Collides (runHashed (run.log true) [run.checkpoint true, run.checkpoint false] run.period run.request) ∧
    ¬ ∃ presented fromSeq, Faithful (run.log true) 1 run.request run.result presented fromSeq := by
  obtain ⟨run, ran, complete, free⟩ := present_complete false
  obtain ⟨built, made, sealing, given, rooted, verified⟩ := present_ok ran
  refine ⟨run, ran, built true, made true, sealing, rooted, verified, complete, free, ?_⟩
  rintro ⟨presented, fromSeq, faithful⟩
  obtain ⟨shown, own, foundShown, foundOwn, _, same⟩ := faithful.agree 1 faithful.inWindow.2 le_rfl
  have first : fromSeq = 1 := le_antisymm faithful.inWindow.2 faithful.inWindow.1
  have listed := faithful.given
  rw [given, Json.list.injEq] at listed
  subst listed
  rw [first] at foundShown
  have refOf : ∀ a entry, (run.log a)[0]? = some entry →
      entry.get Key.actionRef = .str (List.replicate 64 (if a then 97 else 98)) := by
    intro a entry found
    obtain ⟨actionRef, agentSeq, call, entryMade⟩ :=
      (appendAll_chained (chained_nil _) (built a)).made 0 entry found
    obtain ⟨_, bytes, _, entryIs⟩ := makeEntry_ok entryMade
    rw [(get_entryOf entryIs).2.2.2.1]
    exact (Prod.mk.inj (Option.some.inj call)).1.symm
  have refs := same Key.actionRef (by simp)
  rw [refOf false shown foundShown, refOf true own foundOwn, Json.str.injEq] at refs
  exact absurd refs (by decide)

end Argentum.Trail
