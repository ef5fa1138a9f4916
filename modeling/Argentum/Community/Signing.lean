import Argentum.Community.Wisdom
import Argentum.Core.Transition
import Argentum.Trail.Jcs

/-! Signed requests and the nonces that make a signature single-use. A signature is
fresh while the clock is within a minute of its timestamp, to either side; a nonce is
aged from its arrival, and nonces are dropped when there are too many. A signature is
accepted once where no nonce is dropped that a fresh signature still has. -/
namespace Argentum.Signing
open Argentum Text Jcs Transition Community

def signatureTtlSeconds : Int := 60

def nonceCacheMax : Int := 10000

def buildPayload [Interpreter] (agentId : Str) (timestamp : Int) (nonce : Str) : Except PyError Bytes :=
  jcsBytes (.dict [(ofString "agent_id", .str agentId), (ofString "timestamp", .int timestamp),
    (ofString "nonce", .str nonce)])

/-- `NonceCache`: the arrival time of each key. -/
structure NonceCache where
  ttl : Int
  maxSize : Int
  store : List (Str × ℚ)
  distinct : (store.map Prod.fst).Nodup

namespace NonceCache

def keys (cache : NonceCache) : List Str := cache.store.map Prod.fst

def new (ttl : Int := signatureTtlSeconds) (maxSize : Int := nonceCacheMax) : NonceCache :=
  ⟨ttl, maxSize, [], List.nodup_nil⟩

def evictExpired (cache : NonceCache) (now : ℚ) : NonceCache :=
  { cache with
    store := cache.store.filter fun entry => decide (¬entry.2 < now - cache.ttl)
    distinct := cache.distinct.sublist (List.filter_sublist.map _) }

def clear (cache : NonceCache) : NonceCache := { cache with store := [], distinct := List.nodup_nil }

def overflows (cache : NonceCache) : Bool := decide (cache.maxSize < cache.store.length)

/-- What `check_and_store` drops before it looks the key up. -/
def trim (cache : NonceCache) (now : ℚ) : NonceCache :=
  if cache.overflows then
    if (cache.evictExpired now).overflows then (cache.evictExpired now).clear else cache.evictExpired now
  else cache

def checkAndStore (cache : NonceCache) (key : Str) (now : ℚ) : Bool × NonceCache :=
  if seen : key ∈ (cache.trim now).keys then (false, cache.trim now)
  else (true,
    { cache.trim now with
      store := (cache.trim now).store ++ [(key, now)]
      distinct := by
        rw [List.map_append]
        exact List.nodup_append.mpr ⟨(cache.trim now).distinct, List.nodup_singleton _,
          fun held member new only => by
            rintro rfl
            rw [List.mem_singleton.mp only] at member
            exact seen member⟩ })

section
variable {cache : NonceCache} {key : Str} {now : ℚ}

theorem keys_checkAndStore : (cache.checkAndStore key now).2.keys =
    if key ∈ (cache.trim now).keys then (cache.trim now).keys else (cache.trim now).keys ++ [key] := by
  by_cases seen : key ∈ (cache.trim now).keys
  · rw [if_pos seen, checkAndStore, dif_pos seen]
  · rw [if_neg seen, checkAndStore, dif_neg seen]
    exact List.map_append

theorem fst_checkAndStore : (cache.checkAndStore key now).1 = decide (key ∉ (cache.trim now).keys) := by
  by_cases seen : key ∈ (cache.trim now).keys
  · rw [checkAndStore, dif_pos seen, decide_eq_false (not_not_intro seen)]
  · rw [checkAndStore, dif_neg seen, decide_eq_true seen]

end

end NonceCache

/-- Where the key of an agent comes from: the loader a test injects, or the two lookups
of the registry, the key of that time before the current one. -/
inductive KeyLookup where
  | loader (answer : Option Str)
  | marks (atTimestamp current : Option Str)

/-- `pub_b64`, where it is not empty. -/
def KeyLookup.pubkey? : KeyLookup → Option Str
  | .loader answer => answer.filter (· ≠ [])
  | .marks atTimestamp current => (atTimestamp.filter (· ≠ [])).or (current.filter (· ≠ []))

/-- A call of `verify_request`, with the clock it reads for the window and the clock the
cache reads. -/
structure VerifyCall where
  agentId : Str
  signature : Str
  timestamp : Int
  nonce : Str
  lookup : KeyLookup
  current : ℚ
  stored : ℚ

abbrev Triple := Str × Int × Str

def VerifyCall.triple (call : VerifyCall) : Triple := (call.agentId, call.timestamp, call.nonce)

/-- `f"{agent_id}:{nonce}"` -/
def nonceKey (triple : Triple) : Str := triple.1 ++ ofChar ':' :: triple.2.2

/-- The timestamp is within the window of a clock. -/
def InWindow (timestamp : Int) (now : ℚ) : Prop := |trunc now - timestamp| ≤ signatureTtlSeconds

instance (timestamp : Int) (now : ℚ) : Decidable (InWindow timestamp now) :=
  inferInstanceAs (Decidable (_ ≤ _))

/-- What decodes a key and a signature and checks it over a payload: the key, the
payload, the signature. -/
abbrev Verifier := Str → Bytes → Str → Bool

section
variable [Interpreter] (verifies : Verifier)

/-- Every check of `verify_request` before the nonce. What `jcs_bytes` raises of a payload is a
`ValueError`. -/
def VerifyCall.passes (call : VerifyCall) : Bool :=
  if call.agentId = [] ∨ call.signature = [] ∨ call.nonce = [] then false
  else if ¬InWindow call.timestamp call.current then false
  else
    match call.lookup.pubkey? with
    | none => false
    | some pubkey =>
        match buildPayload call.agentId call.timestamp call.nonce with
        | .error _ => false
        | .ok payload => verifies pubkey payload call.signature

def verifyRequest (cache : NonceCache) (call : VerifyCall) : Bool × NonceCache :=
  if call.passes verifies then cache.checkAndStore (nonceKey call.triple) call.stored else (false, cache)

/-- The cache, the last clock that was read, and the triples that were accepted. -/
structure History where
  cache : NonceCache
  clock : ℚ
  accepted : List Triple

def History.step (s : History) (call : VerifyCall) : History :=
  { cache := (verifyRequest verifies s.cache call).2
    clock := call.stored
    accepted := s.accepted ++ if (verifyRequest verifies s.cache call).1 then [call.triple] else [] }

/-- The clock does not go back. -/
def InOrder (s : History) (call : VerifyCall) : Prop := s.clock ≤ call.current ∧ call.current ≤ call.stored

/-- A call that comes to the nonces drops none that an accepted triple still needs: not its
own, and none whose timestamp the clock has not left behind. -/
def KeepsFresh (s : History) (call : VerifyCall) : Prop :=
  call.passes verifies = true → ∀ used ∈ s.accepted,
    nonceKey used ∈ s.cache.keys → nonceKey used ∉ (s.cache.trim call.stored).keys →
    used ≠ call.triple ∧ used.2.1 + signatureTtlSeconds < trunc call.stored

instance (s : History) (call : VerifyCall) : Decidable (InOrder s call) :=
  inferInstanceAs (Decidable (_ ∧ _))

instance (s : History) (call : VerifyCall) : Decidable (KeepsFresh verifies s call) :=
  inferInstanceAs (Decidable (call.passes verifies = true → ∀ used ∈ s.accepted, _))

/-- No triple is accepted twice; and a call that fails before its nonce leaves the cache as
it was, so that the others are answered as they are without such calls. -/
def SingleUse (cache : NonceCache) (clock : ℚ) (calls : List VerifyCall) : Prop :=
  (run (History.step verifies) ⟨cache, clock, []⟩ calls).accepted.Nodup ∧
    (∀ before call after, calls = before ++ call :: after → call.passes verifies = false →
      (run (History.step verifies) ⟨cache, clock, []⟩ (before ++ [call])).cache =
        (run (History.step verifies) ⟨cache, clock, []⟩ before).cache) ∧
    Unseen (verifyRequest verifies) (fun answered => answered.1.passes verifies) cache calls

end

section
variable [Interpreter] {verifies : Verifier} {cache : NonceCache} {call : VerifyCall} {s : History} {clock : ℚ}

theorem verifyRequest_of_fails (fails : call.passes verifies = false) :
    verifyRequest verifies cache call = (false, cache) := by
  rw [verifyRequest, if_neg (by rw [fails]; exact Bool.false_ne_true)]

theorem verifyRequest_of_passes (passes : call.passes verifies = true) :
    verifyRequest verifies cache call = cache.checkAndStore (nonceKey call.triple) call.stored :=
  if_pos passes

/-- A call that passes is made within the window of its timestamp. -/
theorem inWindow_of_passes (passes : call.passes verifies = true) : InWindow call.timestamp call.current := by
  by_contra outside
  rw [VerifyCall.passes, if_pos outside, ite_self] at passes
  cases passes

/-- The clock has not left behind the timestamp of a call that passes. -/
theorem not_stale_of_passes (passes : call.passes verifies = true) :
    trunc call.current ≤ call.timestamp + signatureTtlSeconds := by
  have window := abs_le.mp (inWindow_of_passes passes)
  linarith [window.2]

/-- What a call does to the history: nothing but the clock where it fails before its nonce,
and else what the nonces it keeps say. -/
theorem History.step_cases (verifies : Verifier) (s : History) (call : VerifyCall) :
    (call.passes verifies = false ∧ History.step verifies s call = ⟨s.cache, call.stored, s.accepted⟩) ∨
    (call.passes verifies = true ∧ nonceKey call.triple ∈ (s.cache.trim call.stored).keys ∧
      (History.step verifies s call).cache.keys = (s.cache.trim call.stored).keys ∧
      (History.step verifies s call).accepted = s.accepted) ∨
    (call.passes verifies = true ∧ nonceKey call.triple ∉ (s.cache.trim call.stored).keys ∧
      (History.step verifies s call).cache.keys = (s.cache.trim call.stored).keys ++ [nonceKey call.triple] ∧
      (History.step verifies s call).accepted = s.accepted ++ [call.triple]) := by
  cases passes : call.passes verifies with
  | false =>
      refine Or.inl ⟨rfl, ?_⟩
      rw [History.step, verifyRequest_of_fails passes, if_neg Bool.false_ne_true, List.append_nil]
  | true =>
      refine Or.inr ?_
      simp only [History.step, verifyRequest_of_passes passes, NonceCache.keys_checkAndStore,
        NonceCache.fst_checkAndStore]
      by_cases seen : nonceKey call.triple ∈ (s.cache.trim call.stored).keys
      · exact Or.inl ⟨trivial, seen, if_pos seen, by simp [seen]⟩
      · exact Or.inr ⟨trivial, seen, if_neg seen, by simp [seen]⟩

/-- Every accepted triple has its key in the cache, or the clock has left it behind. -/
structure History.Remembers (s : History) : Prop where
  nodup : s.accepted.Nodup
  kept : ∀ used ∈ s.accepted, nonceKey used ∈ s.cache.keys ∨ used.2.1 + signatureTtlSeconds < trunc s.clock

omit [Interpreter] in
/-- What is left behind stays left behind. -/
theorem stale_mono {timestamp : Int} {later : ℚ} (ordered : clock ≤ later)
    (stale : timestamp + signatureTtlSeconds < trunc clock) : timestamp + signatureTtlSeconds < trunc later :=
  stale.trans_le (trunc_mono ordered)

/-- An accepted triple is found again, or is stale, after what a call drops. -/
theorem History.Remembers.kept_trim (remembers : s.Remembers) (ordered : InOrder s call)
    (fresh : KeepsFresh verifies s call) (passes : call.passes verifies = true) {used : Triple}
    (member : used ∈ s.accepted) :
    nonceKey used ∈ (s.cache.trim call.stored).keys ∨
      used ≠ call.triple ∧ used.2.1 + signatureTtlSeconds < trunc call.stored := by
  by_cases held : nonceKey used ∈ (s.cache.trim call.stored).keys
  · exact Or.inl held
  · refine Or.inr ?_
    rcases remembers.kept used member with stored | stale
    · exact fresh passes used member stored held
    · refine ⟨?_, stale_mono (ordered.1.trans ordered.2) stale⟩
      rintro rfl
      exact absurd (stale_mono ordered.1 stale) (not_stale_of_passes passes).not_gt

theorem History.Remembers.step (remembers : s.Remembers) (ordered : InOrder s call)
    (fresh : KeepsFresh verifies s call) : (History.step verifies s call).Remembers := by
  rcases History.step_cases verifies s call with
    ⟨_, same⟩ | ⟨passes, _, keys, accepted⟩ | ⟨passes, unseen, keys, accepted⟩
  · rw [same]
    refine ⟨remembers.nodup, fun used member => ?_⟩
    exact (remembers.kept used member).imp_right (stale_mono (ordered.1.trans ordered.2))
  · constructor
    · rw [accepted]
      exact remembers.nodup
    · intro used member
      rw [accepted] at member
      rw [keys]
      exact (remembers.kept_trim ordered fresh passes member).imp_right And.right
  · constructor
    · rw [accepted]
      apply List.nodup_append.mpr ⟨remembers.nodup, List.nodup_singleton _, ?_⟩
      intro used member new only same
      rcases remembers.kept_trim ordered fresh passes member with held | ⟨other, _⟩
      · rw [same, List.mem_singleton.mp only] at held
        exact unseen held
      · exact other (same.trans (List.mem_singleton.mp only))
    · intro used member
      rw [accepted] at member
      rw [keys]
      rcases List.mem_append.mp member with earlier | own
      · rcases remembers.kept_trim ordered fresh passes earlier with held | ⟨_, stale⟩
        · exact Or.inl (List.mem_append_left _ held)
        · exact Or.inr stale
      · rw [List.mem_singleton.mp own]
        exact Or.inl (List.mem_append_right _ (List.mem_singleton_self _))

end

/-- In every run of calls with non-decreasing clocks that drop no nonce a fresh signature
still has, a signature is used once, whatever the size of the cache and its traffic. -/
theorem singleUse_of_keepsFresh [Interpreter] (verifies : Verifier) (cache : NonceCache) (clock : ℚ) (calls : List VerifyCall)
    (admitted : Admits (History.step verifies)
      (fun s call => InOrder s call ∧ KeepsFresh verifies s call) ⟨cache, clock, []⟩ calls) :
    SingleUse verifies cache clock calls := by
  refine ⟨?_, ?_, unseen_of_idle ?_ cache calls⟩
  · have remembers : (run (History.step verifies) ⟨cache, clock, []⟩ calls).Remembers :=
      admitted.invariant (fun s call kept guarded => kept.step guarded.1 guarded.2)
        ⟨List.nodup_nil, fun used member => absurd member List.not_mem_nil⟩
    exact remembers.nodup
  · intro before call after _ fails
    rw [run_concat, History.step, verifyRequest_of_fails fails]
  · intro cache call fails
    rw [verifyRequest_of_fails fails]

/-- A registered key, and the signatures its holder makes of the payloads. -/
def signedBy (pubkey : Str) (signatures : List (Bytes × Str)) : Verifier := fun key payload signature =>
  decide (key = pubkey) && signatures.any fun made => decide (made = (payload, signature))

def holder : Str := ofString "A6EHv/POEL4dcN0Y50vAmWfk1jCbpQ1fHdyGZBJVMbg="

/-- A call of the agent at a time of both clocks. -/
def signedCall (timestamp : Int) (nonce signature : String) (now : ℚ) : VerifyCall :=
  { agentId := ofString "agent"
    signature := ofString signature
    timestamp
    nonce := ofString nonce
    lookup := .loader (some holder)
    current := now
    stored := now }

def ahead : ℚ → VerifyCall := signedCall 100 "n1"
  "yCX04V99VWC7yPxEAIiuWa/eQO0sKexOVPzwf8iXqKBITeBHvb9wLCG/iwRyg5c9rOsoj994WbfsJIVgkmGEDw=="

def second : VerifyCall := signedCall 70 "n2"
  "i74+QlFriXNTwKccEr1EfOaepmM7R5qZKCsxqvSqWU0kSN4abcc2b4QJMIH/wTdUS6oWZ5hBDPmkVAkqKyL9Cw==" 70

def third : VerifyCall := signedCall 125 "n3"
  "0y0QLQZCaDYyypiUzi+TaJ6Y0LADwIlZp1XaDc3bHsam0YdTpL625Ku62hn6uvtcWCjfWSWKq65eUq0q7S7YAA==" 125

section
open Cpython

def signatures : List (Bytes × Str) := [ahead 60, second, third].filterMap fun call =>
  match buildPayload call.agentId call.timestamp call.nonce with
  | .ok payload => some (payload, call.signature)
  | .error _ => none

theorem singleUse_two : SingleUse (signedBy holder signatures) .new 0 [ahead 60, ahead 60, second] :=
  singleUse_of_keepsFresh _ _ _ _ (by decide +kernel)

/-- With a cache of one, the third nonce drops the first while its signature is fresh. -/
theorem not_singleUse_ahead : ¬ SingleUse (signedBy holder signatures) (.new 60 1) 0
    [ahead 60, second, third, ahead 126] :=
  fun single => absurd single.1 (by decide +kernel)

end

end Argentum.Signing
