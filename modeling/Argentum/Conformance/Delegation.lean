import Argentum.Trail.Dumps
import Argentum.Core.Sha256

/-! The verifier of delegation chains. It hashes the artifact, compares what the hops say
of each other, checks the signatures that are there and asks a registry of what was
accepted before. The fields of a vector are JSON values of any kind, and a field that is
missing or of the wrong kind raises. -/
namespace Argentum

namespace Json

/-- `len(value)` -/
def len : Json → Except PyError Nat
  | .list items => .ok items.length
  | .dict items => .ok items.length
  | .str s => .ok s.length
  | _ => .error .typeError

/-- `value[i]` for a number: the keys of a dictionary are strings. -/
def index : Json → Nat → Except PyError Json
  | .list items, i => (items[i]?.map .ok).getD (.error .indexError)
  | .str s, i => (s[i]?.map fun c => .ok (.str [c])).getD (.error .indexError)
  | .dict _, _ => .error .keyError
  | _, _ => .error .typeError

/-- `value[-1]` -/
def last : Json → Except PyError Json
  | .list items => (items.getLast?.map .ok).getD (.error .indexError)
  | .str s => (s.getLast?.map fun c => .ok (.str [c])).getD (.error .indexError)
  | .dict _ => .error .keyError
  | _ => .error .typeError

/-- What a loop over the value takes in turn. -/
def elements : Json → Except PyError (List Json)
  | .list items => .ok items
  | .dict items => .ok (items.map fun item => .str item.1)
  | .str s => .ok (s.map fun c => .str [c])
  | _ => .error .typeError

theorem index_list {items : List Json} {i : Nat} {found : Json} :
    (Json.list items).index i = .ok found ↔ items[i]? = some found := by
  rw [index]
  cases items[i]? <;> simp

theorem last_list {items : List Json} {found : Json} :
    (Json.list items).last = .ok found ↔ items.getLast? = some found := by
  rw [last]
  cases items.getLast? <;> simp

/-- What has a first element with a field is a list. -/
theorem list_of_index {value first found : Json} {i : Nat} {key : Str} (read : value.index i = .ok first)
    (field : first.item key = .ok found) : ∃ items, value = .list items := by
  cases value with
  | list items => exact ⟨items, rfl⟩
  | str s =>
      -- an element of a string is a string, which has no fields
      rw [index] at read
      cases there : s[i]? with
      | none =>
          rw [there] at read
          cases read
      | some c =>
          rw [there] at read
          cases read
          cases field
  | null | bool | int | float | dict => cases read

end Json

namespace Delegation
open Text Dumps Sha256

/-- `jcs` of the verifier. -/
def jcs (value : Json) : Str := dumps (sortKeys value)

/-- `jcs`, as far as the stack lasts. -/
def jcsWithin [Interpreter] (value : Json) : Except PyError Str :=
  if Interpreter.dumps.Admits value then .ok (jcs value) else .error .recursionError

def sha256hex (text : Str) : Except PyError Str := do return hexOf (sha256 (← encodeUtf8 text))

def computeActionRef (preimage : Json) : Except PyError Str := do
  let agentId ← preimage.item (ofString "agent_id")
  let actionType ← preimage.item (ofString "action_type")
  let scope ← preimage.item (ofString "scope")
  let timestamp ← preimage.item (ofString "timestamp")
  sha256hex (jcs (.dict [(ofString "agent_id", agentId), (ofString "action_type", actionType),
    (ofString "scope", scope), (ofString "timestamp", timestamp)]))

/-- The methods of a string; another value has none of them. -/
def asStr : Json → Except PyError Str
  | .str s => .ok s
  | _ => .error .attributeError

def scopeIsNarrowerOrEqual (parentScope childScope : Json) : Except PyError Bool := do
  if parentScope.eq childScope then return true
  else
    let parent ← asStr parentScope
    if (ofString ":*").isSuffixOf parent then
      let stem := parent.take (parent.length - 2)
      if childScope.eq (.str stem) then return true
      else return (stem ++ ofString ":").isPrefixOf (← asStr childScope)
    else return (parent ++ ofString ":").isPrefixOf (← asStr childScope)

/-- A set of values by hash and equality. -/
abbrev Seen := List Json

namespace Seen

def member (seen : Seen) (value : Json) : Bool := seen.any fun old => old.same value

/-- `value in seen` -/
def contains (seen : Seen) (value : Json) : Except PyError Bool :=
  if value.hashable then .ok (seen.member value) else .error .typeError

def add (seen : Seen) (value : Json) : Seen := if seen.member value then seen else seen ++ [value]

/-- `any(value in seen for value in values)` -/
def containsAny (seen : Seen) : List Json → Except PyError Bool
  | [] => .ok false
  | value :: rest => do if ← seen.contains value then return true else seen.containsAny rest

end Seen

structure SeenRegistry where
  chainIds : Seen
  delegationRefs : Seen

namespace SeenRegistry

def empty : SeenRegistry := ⟨[], []⟩

def contains (registry : SeenRegistry) (chainId : Json) (hopDelegationRefs : List Json) : Except PyError Bool := do
  if ← registry.chainIds.contains chainId then return true
  else registry.delegationRefs.containsAny hopDelegationRefs

def record (registry : SeenRegistry) (chainId : Json) (hopDelegationRefs : List Json) : SeenRegistry :=
  ⟨registry.chainIds.add chainId, hopDelegationRefs.foldl Seen.add registry.delegationRefs⟩

end SeenRegistry

def hopSigningPreimage (chainId hop : Json) : Except PyError Str := do
  let delegator ← hop.item (ofString "delegator")
  let delegatee ← hop.item (ofString "delegatee")
  let scope ← hop.item (ofString "scope")
  let delegationRef ← hop.item (ofString "delegation_ref")
  return jcs (.dict [(ofString "chain_id", chainId), (ofString "delegator", delegator),
    (ofString "delegatee", delegatee), (ofString "scope", scope), (ofString "delegation_ref", delegationRef)])

/-- What a hop's signature is over. -/
def hopMessage (chainId hop : Json) : Except PyError Bytes := do encodeUtf8 (← hopSigningPreimage chainId hop)

inductive HopSignature where
  | valid | invalid | keyUnresolved
  deriving DecidableEq

/-- The keys the caller gives, by delegator. -/
abbrev Pubkeys := List (Str × Json)

/-- What decodes a key and a signature from base64 and checks it over a message: the key,
the message, the signature. -/
abbrev Verifier := Json → Bytes → Json → Bool

/-- `pubkeys.get(delegator)`, where it is not empty. -/
def pubkeyOf (pubkeys : Pubkeys) (delegator : Json) : Except PyError (Option Json) :=
  if delegator.hashable then
    match delegator with
    | .str name => .ok ((pubkeys.lookup name).filter Json.truthy)
    | _ => .ok none
  else .error .typeError

def verifyHopSignature (verifies : Verifier) (chainId hop hopSignature : Json) (pubkeys : Pubkeys) :
    Except PyError HopSignature := do
  match ← pubkeyOf pubkeys (← hop.item (ofString "delegator")) with
  | none => return .keyUnresolved
  | some key =>
      match hopMessage chainId hop with
      | .ok message => return if verifies key message hopSignature then .valid else .invalid
      | .error .valueError => return .invalid
      | .error .typeError => return .invalid
      | .error .keyError => return .invalid
      | .error raised => .error raised

/-- An adverse finding, with the values its message shows. -/
inductive Failure where
  | delegationChainRefMismatch (expected : Str) (actual : Json)
  | chainBreak (hop : Nat) (delegatee delegator : Json)
  | rootAnchoring (rootDelegator delegator : Json)
  | leafAnchoring (actionRef : Str) (leafActionRef : Json)
  | scopeMismatchAtLeaf (leafScope hopScope : Json)
  | hopSignatureInvalid (hop : Nat) (delegator : Json)
  | delegatorKeyNotInCompleteKeySet (hop : Nat) (delegator : Json)
  | scopeWidening (hop : Nat) (child parent : Json)
  | replayDetected (chainId : Json)

/-- `hop_signature_not_assessed` -/
structure NotAssessed where
  hop : Nat
  delegator : Json

/-- What the iterations of a loop append, up to the first that raises. -/
def collect {α β : Type} (f : α → Except PyError (List β)) : List α → Except PyError (List β)
  | [] => .ok []
  | x :: rest => do
      let found ← f x
      let others ← collect f rest
      return found ++ others

def byteMatch (vector chain : Json) : Except PyError (List Failure) := do
  let expected ← sha256hex (jcs chain)
  let actual := vector.getD (ofString "delegation_chain_ref") (.str [])
  return if (Json.str expected).eq actual then [] else [.delegationChainRefMismatch expected actual]

def chainBreakAt (hops : Json) (i : Nat) : Except PyError (List Failure) := do
  let delegatee ← (← hops.index i).item (ofString "delegatee")
  let delegator ← (← hops.index (i + 1)).item (ofString "delegator")
  return if delegatee.eq delegator then [] else [.chainBreak i delegatee delegator]

def chainContinuity (hops : Json) : Except PyError (List Failure) := do
  collect (chainBreakAt hops) (List.range ((← hops.len) - 1))

def rootAnchoring (chain hops : Json) : Except PyError (List Failure) := do
  let rootDelegator ← chain.item (ofString "root_delegator")
  let delegator ← (← hops.index 0).item (ofString "delegator")
  return if rootDelegator.eq delegator then [] else [.rootAnchoring rootDelegator delegator]

def leafAnchoring (vector chain hops : Json) : Except PyError (List Failure) := do
  if vector.has (ofString "leaf_preimage") then
    let preimage ← vector.item (ofString "leaf_preimage")
    let computed ← computeActionRef preimage
    let leafActionRef ← chain.item (ofString "leaf_action_ref")
    let leafScope ← preimage.item (ofString "scope")
    let hopScope ← (← hops.last).item (ofString "scope")
    return (if (Json.str computed).eq leafActionRef then [] else [.leafAnchoring computed leafActionRef]) ++
      (if leafScope.eq hopScope then [] else [.scopeMismatchAtLeaf leafScope hopScope])
  else return []

/-- What the signature of a hop adds, to the failures or to what was not assessed. -/
def hopSignature (verifies : Verifier) (chain : Json) (pubkeys : Pubkeys) (keysAreComplete : Bool) :
    Json × Nat → Except PyError (List (Failure ⊕ NotAssessed))
  | (hop, i) => do
      if hop.has (ofString "hop_signature") then
        let chainId ← chain.item (ofString "chain_id")
        let signature ← hop.item (ofString "hop_signature")
        let delegator := hop.get (ofString "delegator")
        match ← verifyHopSignature verifies chainId hop signature pubkeys with
        | .valid => return []
        | .invalid => return [.inl (.hopSignatureInvalid i delegator)]
        | .keyUnresolved =>
            return if keysAreComplete then [.inl (.delegatorKeyNotInCompleteKeySet i delegator)]
              else [.inr ⟨i, delegator⟩]
      else return []

def hopSignatures (verifies : Verifier) (chain hops : Json) (pubkeys : Pubkeys) (keysAreComplete : Bool) :
    Except PyError (List (Failure ⊕ NotAssessed)) := do
  collect (hopSignature verifies chain pubkeys keysAreComplete) (← hops.elements).zipIdx

def scopeWideningAt (hops : Json) (i : Nat) : Except PyError (List Failure) := do
  let parent ← (← hops.index i).item (ofString "scope")
  let child ← (← hops.index (i + 1)).item (ofString "scope")
  return if ← scopeIsNarrowerOrEqual parent child then [] else [.scopeWidening (i + 1) child parent]

/-- Not checked unless the caller asks for it. -/
def scopeNarrowing (enforceScopeNarrowing : Bool) (hops : Json) : Except PyError (List Failure) :=
  if enforceScopeNarrowing then do collect (scopeWideningAt hops) (List.range ((← hops.len) - 1))
  else .ok []

/-- The checks before the signatures. -/
def frontChecks (vector chain hops : Json) : Except PyError (List Failure) := do
  let reference ← byteMatch vector chain
  let continuity ← chainContinuity hops
  let root ← rootAnchoring chain hops
  let leaf ← leafAnchoring vector chain hops
  return reference ++ continuity ++ root ++ leaf

/-- Every check before the replay guard: the failures, and what was not assessed. -/
def findings (verifies : Verifier) (vector chain hops : Json) (pubkeys : Pubkeys)
    (keysAreComplete enforceScopeNarrowing : Bool) : Except PyError (List Failure × List NotAssessed) := do
  let front ← frontChecks vector chain hops
  let signatures ← hopSignatures verifies chain hops pubkeys keysAreComplete
  let narrowing ← scopeNarrowing enforceScopeNarrowing hops
  return (front ++ signatures.filterMap Sum.getLeft? ++ narrowing, signatures.filterMap Sum.getRight?)

/-- What the replay guard knows a chain by. -/
structure Authorization where
  chainId : Json
  hopRefs : List Json

def readAuthorization (chain hops : Json) : Except PyError Authorization := do
  let hopRefs ← mapOk (fun hop => hop.item (ofString "delegation_ref")) (← hops.elements)
  let chainId ← chain.item (ofString "chain_id")
  return ⟨chainId, hopRefs⟩

/-- The replay check, and what the registry is after it. A vector is recorded where
nothing was found before. -/
def replayCheck (seenRegistry : Option SeenRegistry) (chain hops : Json) (clean : Bool) :
    Except PyError (List Failure × Option SeenRegistry) :=
  match seenRegistry with
  | none => return ([], none)
  | some registry => do
      let ⟨chainId, hopRefs⟩ ← readAuthorization chain hops
      if ← registry.contains chainId hopRefs then return ([.replayDetected chainId], some registry)
      else return ([], some (if clean then registry.record chainId hopRefs else registry))

inductive Verdict where
  | pass | fail | notAssessed
  deriving DecidableEq

structure Evaluation where
  verdict : Verdict
  failures : List Failure
  notAssessed : List NotAssessed

def Evaluation.of (failures : List Failure) (notAssessed : List NotAssessed) : Evaluation :=
  { verdict := if failures.isEmpty then (if notAssessed.isEmpty then .pass else .notAssessed) else .fail
    failures, notAssessed }

/-- `evaluate_vector`, and the registry it leaves. -/
def evaluateVector (verifies : Verifier) (vector : Json) (pubkeys : Pubkeys)
    (seenRegistry : Option SeenRegistry) (keysAreComplete enforceScopeNarrowing : Bool) :
    Except PyError (Evaluation × Option SeenRegistry) := do
  let chain ← vector.item (ofString "chain_artifact")
  let hops ← chain.item (ofString "hops")
  let (failures, notAssessed) ← findings verifies vector chain hops pubkeys keysAreComplete enforceScopeNarrowing
  let (replayed, registry) ← replayCheck seenRegistry chain hops (failures.isEmpty && notAssessed.isEmpty)
  return (.of (failures ++ replayed) notAssessed, registry)

section
variable {α β γ : Type} {f : α → Except PyError (List β)} {xs : List α} {ys : List β}

theorem collect_nil_iff : collect f xs = .ok [] ↔ ∀ x ∈ xs, f x = .ok [] := by
  induction xs with
  | nil => simp [collect]
  | cons x rest ih =>
      rw [List.forall_mem_cons, ← ih, collect, bind_ok_iff]
      constructor
      · rintro ⟨found, first, more⟩
        obtain ⟨others, later, both⟩ := bind_ok more
        obtain ⟨rfl, rfl⟩ := List.append_eq_nil_iff.mp (Except.ok.inj both)
        exact ⟨first, later⟩
      · rintro ⟨first, later⟩
        exact ⟨[], first, bind_ok_iff.mpr ⟨[], later, rfl⟩⟩

theorem collect_isOk_iff : (∃ ys, collect f xs = .ok ys) ↔ ∀ x ∈ xs, ∃ own, f x = .ok own := by
  induction xs with
  | nil => exact iff_of_true ⟨[], rfl⟩ fun x member => absurd member List.not_mem_nil
  | cons x rest ih =>
      rw [List.forall_mem_cons, ← ih]
      constructor
      · rintro ⟨ys, collected⟩
        obtain ⟨own, first, collected⟩ := bind_ok collected
        obtain ⟨others, later, _⟩ := bind_ok collected
        exact ⟨⟨own, first⟩, others, later⟩
      · rintro ⟨⟨own, first⟩, others, later⟩
        exact ⟨own ++ others, bind_ok_iff.mpr ⟨own, first, bind_ok_iff.mpr ⟨others, later, rfl⟩⟩⟩

theorem mem_collect_iff (collected : collect f xs = .ok ys) {y : β} :
    y ∈ ys ↔ ∃ x ∈ xs, ∃ own, f x = .ok own ∧ y ∈ own := by
  induction xs generalizing ys with
  | nil =>
      cases collected
      simp
  | cons x rest ih =>
      obtain ⟨own, first, collected⟩ := bind_ok collected
      obtain ⟨others, later, collected⟩ := bind_ok collected
      cases collected
      rw [List.mem_append, List.exists_mem_cons_iff, ih later]
      refine or_congr ?_ Iff.rfl
      simp [first]

/-- A loop that keeps at most one mark of each step keeps them in order. -/
theorem collect_within {mark : α → β} (each : ∀ x own, f x = .ok own → List.Sublist own [mark x])
    (collected : collect f xs = .ok ys) : List.Sublist ys (xs.map mark) := by
  induction xs generalizing ys with
  | nil =>
      cases collected
      apply List.Sublist.refl
  | cons x rest ih =>
      obtain ⟨own, first, collected⟩ := bind_ok collected
      obtain ⟨others, later, collected⟩ := bind_ok collected
      cases collected
      exact (each x own first).append (ih later)

/-- A loop whose every step can be replaced by one that finds at least as much. -/
theorem collect_sublist {g : α → Except PyError (List β)} {part : β → Option γ}
    (each : ∀ x ∈ xs, ∀ own, f x = .ok own → ∃ own', g x = .ok own' ∧
      List.Sublist (own.filterMap part) (own'.filterMap part)) (collected : collect f xs = .ok ys) :
    ∃ ys', collect g xs = .ok ys' ∧ List.Sublist (ys.filterMap part) (ys'.filterMap part) := by
  induction xs generalizing ys with
  | nil =>
      cases collected
      exact ⟨[], rfl, List.Sublist.refl _⟩
  | cons x rest ih =>
      obtain ⟨own, first, collected⟩ := bind_ok collected
      obtain ⟨others, later, collected⟩ := bind_ok collected
      cases collected
      obtain ⟨own', first', within⟩ := each x List.mem_cons_self own first
      obtain ⟨others', later', among⟩ := ih (fun y member => each y (List.mem_cons_of_mem _ member)) later
      refine ⟨own' ++ others', bind_ok_iff.mpr ⟨own', first', bind_ok_iff.mpr ⟨others', later', rfl⟩⟩, ?_⟩
      rw [List.filterMap_append, List.filterMap_append]
      exact within.append among

theorem collect_map {g : α → Except PyError (List γ)} {h : β → γ} (each : ∀ x, g x = (f x).map (List.map h))
    (xs : List α) : collect g xs = (collect f xs).map (List.map h) := by
  induction xs with
  | nil => rfl
  | cons x rest ih =>
      rw [collect, collect, each, ih]
      cases f x with
      | error raised => rfl
      | ok found =>
          cases collect f rest with
          | error raised => rfl
          | ok others => exact congrArg Except.ok List.map_append.symm

end

/-- Two reads come back with equal values. -/
def agree (first second : Except PyError Json) : Bool :=
  match first, second with
  | .ok value, .ok other => value.eq other
  | _, _ => false

theorem agree_iff {first second : Except PyError Json} :
    agree first second = true ↔ ∃ value other, first = .ok value ∧ second = .ok other ∧ value.eq other = true := by
  unfold agree
  split <;> simp_all

/-- Every two neighbours in a list are related. -/
def Adjacent (related : Json → Json → Prop) (hops : List Json) : Prop :=
  ∀ i hop next, hops[i]? = some hop → hops[i + 1]? = some next → related hop next

/-- Each hop delegates to the one that delegates next. -/
def Continuous (hops : List Json) : Prop :=
  Adjacent (fun hop next => agree (hop.item (ofString "delegatee")) (next.item (ofString "delegator")) = true) hops

/-- Each hop's scope is the one before it or a part of that. -/
def Narrowing (hops : List Json) : Prop :=
  Adjacent (fun hop next => ∃ parent child, hop.item (ofString "scope") = .ok parent ∧
    next.item (ofString "scope") = .ok child ∧ scopeIsNarrowerOrEqual parent child = .ok true) hops

def Rooted (chain : Json) (hops : List Json) : Prop :=
  ∃ first ∈ hops.head?, agree (chain.item (ofString "root_delegator")) (first.item (ofString "delegator")) = true

/-- The artifact's reference is the hash of the artifact. -/
def Referenced (vector chain : Json) : Prop :=
  ∃ digest, sha256hex (jcs chain) = .ok digest ∧
    vector.getD (ofString "delegation_chain_ref") (.str []) = .str digest

/-- A preimage that is given hashes to the chain's leaf action, and has the scope of the last hop. -/
def LeafAnchored (vector chain : Json) (hops : List Json) : Prop :=
  vector.has (ofString "leaf_preimage") = true →
    ∃ last ∈ hops.getLast?, ∃ preimage actionRef, vector.item (ofString "leaf_preimage") = .ok preimage ∧
      computeActionRef preimage = .ok actionRef ∧ chain.item (ofString "leaf_action_ref") = .ok (.str actionRef) ∧
      agree (preimage.item (ofString "scope")) (last.item (ofString "scope")) = true

/-- A hop's signature is one of its delegator's key over the hop's five fields. -/
def HopVerified (verifies : Verifier) (chain : Json) (pubkeys : Pubkeys) (hop : Json) : Prop :=
  ∃ chainId delegator key message signature, chain.item (ofString "chain_id") = .ok chainId ∧
    hop.item (ofString "delegator") = .ok delegator ∧ pubkeyOf pubkeys delegator = .ok (some key) ∧
    hopMessage chainId hop = .ok message ∧
    hop.item (ofString "hop_signature") = .ok signature ∧ verifies key message signature = true

def Signed (verifies : Verifier) (chain : Json) (pubkeys : Pubkeys) (hops : List Json) : Prop :=
  ∀ hop ∈ hops, hop.has (ofString "hop_signature") = true → HopVerified verifies chain pubkeys hop

section
variable {verifies : Verifier} {vector chain : Json} {pubkeys : Pubkeys} {hops : List Json} {i : Nat}

/-- A comparison that is made and finds nothing. -/
theorem finding_nil_iff {equal : Bool} {failure : Failure} :
    (pure (if equal then [] else [failure]) : Except PyError (List Failure)) = .ok [] ↔ equal = true := by
  cases equal
  · constructor
    · intro none
      cases none
    · intro equal
      cases equal
  · exact iff_of_true rfl rfl

theorem chainBreakAt_nil_iff : chainBreakAt (.list hops) i = .ok [] ↔
    ∃ hop next, hops[i]? = some hop ∧ hops[i + 1]? = some next ∧
      agree (hop.item (ofString "delegatee")) (next.item (ofString "delegator")) = true := by
  simp only [chainBreakAt, bind_ok_iff, Json.index_list, agree_iff, finding_nil_iff]
  constructor
  · rintro ⟨hop, here, delegatee, read, next, after, delegator, other, equal⟩
    exact ⟨hop, next, here, after, delegatee, delegator, read, other, equal⟩
  · rintro ⟨hop, next, here, after, delegatee, delegator, read, other, equal⟩
    exact ⟨hop, here, delegatee, read, next, after, delegator, other, equal⟩

theorem scopeWideningAt_nil_iff : scopeWideningAt (.list hops) i = .ok [] ↔
    ∃ hop next, hops[i]? = some hop ∧ hops[i + 1]? = some next ∧
      ∃ parent child, hop.item (ofString "scope") = .ok parent ∧ next.item (ofString "scope") = .ok child ∧
        scopeIsNarrowerOrEqual parent child = .ok true := by
  simp only [scopeWideningAt, bind_ok_iff, Json.index_list, finding_nil_iff]
  constructor
  · rintro ⟨hop, here, parent, read, next, after, child, other, _, narrower, rfl⟩
    exact ⟨hop, next, here, after, parent, child, read, other, narrower⟩
  · rintro ⟨hop, next, here, after, parent, child, read, other, narrower⟩
    exact ⟨hop, here, parent, read, next, after, child, other, true, narrower, rfl⟩

/-- A loop over the neighbours that finds nothing at each of them. -/
theorem collect_adjacent_iff {f : Nat → Except PyError (List Failure)} {related : Json → Json → Prop}
    (each : ∀ i, f i = .ok [] ↔ ∃ hop next, hops[i]? = some hop ∧ hops[i + 1]? = some next ∧ related hop next) :
    collect f (List.range (hops.length - 1)) = .ok [] ↔ Adjacent related hops := by
  simp only [collect_nil_iff, List.mem_range, each]
  constructor
  · intro found i hop next here after
    have bound := (List.getElem?_eq_some_iff.mp after).1
    obtain ⟨hop', next', here', after', holds⟩ := found i (by omega)
    rw [here] at here'
    rw [after] at after'
    cases here'
    cases after'
    exact holds
  · intro holds i bound
    have here := List.getElem?_eq_getElem (l := hops) (i := i) (by omega)
    have after := List.getElem?_eq_getElem (l := hops) (i := i + 1) (by omega)
    exact ⟨_, _, here, after, holds i _ _ here after⟩

theorem chainContinuity_nil_iff : chainContinuity (.list hops) = .ok [] ↔ Continuous hops :=
  collect_adjacent_iff fun _ => chainBreakAt_nil_iff

theorem scopeNarrowing_nil_iff {enforceScopeNarrowing : Bool} :
    scopeNarrowing enforceScopeNarrowing (.list hops) = .ok [] ↔ (enforceScopeNarrowing = true → Narrowing hops) := by
  cases enforceScopeNarrowing with
  | false => exact iff_of_true rfl fun enforced => by cases enforced
  | true =>
      constructor
      · intro none _
        exact (collect_adjacent_iff fun _ => scopeWideningAt_nil_iff).mp none
      · intro narrowing
        exact (collect_adjacent_iff fun _ => scopeWideningAt_nil_iff).mpr (narrowing rfl)

theorem byteMatch_nil_iff : byteMatch vector chain = .ok [] ↔ Referenced vector chain := by
  simp only [byteMatch, bind_ok_iff, finding_nil_iff, Json.str_eq, Referenced]

theorem rootAnchoring_nil_iff : rootAnchoring chain (.list hops) = .ok [] ↔ Rooted chain hops := by
  simp only [rootAnchoring, bind_ok_iff, Json.index_list, finding_nil_iff, Rooted, agree_iff, List.head?_eq_getElem?,
    Option.mem_def]
  constructor
  · rintro ⟨root, read, first, here, delegator, other, equal⟩
    exact ⟨first, here, root, delegator, read, other, equal⟩
  · rintro ⟨first, here, root, delegator, read, other, equal⟩
    exact ⟨root, read, first, here, delegator, other, equal⟩

theorem leafAnchoring_nil_iff : leafAnchoring vector chain (.list hops) = .ok [] ↔ LeafAnchored vector chain hops := by
  unfold leafAnchoring LeafAnchored
  split
  · rename_i given
    simp only [bind_ok_iff, Json.last_list, Option.mem_def, agree_iff]
    constructor
    · rintro ⟨preimage, read, actionRef, computed, leaf, anchored, leafScope, own, last, here, hopScope, scope, both⟩ _
      obtain ⟨same, narrow⟩ := List.append_eq_nil_iff.mp (Except.ok.inj both)
      refine ⟨last, here, preimage, actionRef, read, computed, ?_, leafScope, hopScope, own, scope, ?_⟩
      · rw [anchored, Json.str_eq.mp (finding_nil_iff.mp (congrArg pure same))]
      · exact finding_nil_iff.mp (congrArg pure narrow)
    · intro anchored
      obtain ⟨last, here, preimage, actionRef, read, computed, leaf, leafScope, hopScope, own, scope, equal⟩ :=
        anchored given
      refine ⟨preimage, read, actionRef, computed, _, leaf, leafScope, own, last, here, hopScope, scope, ?_⟩
      rw [if_pos (Json.str_eq.mpr rfl), if_pos equal]
      rfl
  · rename_i absent
    exact iff_of_true rfl fun given => absurd given absent

theorem verifyHopSignature_valid_iff {chainId hop signature : Json} :
    verifyHopSignature verifies chainId hop signature pubkeys = .ok .valid ↔
      ∃ delegator key message, hop.item (ofString "delegator") = .ok delegator ∧
        pubkeyOf pubkeys delegator = .ok (some key) ∧
        hopMessage chainId hop = .ok message ∧ verifies key message signature = true := by
  simp only [verifyHopSignature, bind_ok_iff]
  constructor
  · rintro ⟨delegator, read, found, key, valid⟩
    cases found with
    | none => cases valid
    | some key' =>
        cases encoded : hopMessage chainId hop with
        | error raised =>
            simp only [encoded] at valid
            cases raised <;> cases valid
        | ok message =>
            simp only [encoded] at valid
            refine ⟨delegator, key', message, read, key, rfl, ?_⟩
            by_contra refused
            rw [if_neg refused] at valid
            cases valid
  · rintro ⟨delegator, key, message, read, found, encoded, verified⟩
    refine ⟨delegator, read, some key, found, ?_⟩
    simp only [encoded]
    rw [if_pos verified]
    rfl

theorem hopSignature_nil_iff {keysAreComplete : Bool} {hop : Json} :
    hopSignature verifies chain pubkeys keysAreComplete (hop, i) = .ok [] ↔
      (hop.has (ofString "hop_signature") = true → HopVerified verifies chain pubkeys hop) := by
  by_cases present : hop.has (ofString "hop_signature") = true
  · simp only [hopSignature, if_pos present, bind_ok_iff, HopVerified]
    constructor
    · rintro ⟨chainId, named, signature, given, answer, checked, none⟩ _
      cases answer with
      | valid =>
          obtain ⟨delegator, key, message, rest⟩ := verifyHopSignature_valid_iff.mp checked
          exact ⟨chainId, delegator, key, message, signature, named, rest.1, rest.2.1, rest.2.2.1, given, rest.2.2.2⟩
      | invalid => cases none
      | keyUnresolved => cases keysAreComplete <;> cases none
    · intro verified
      obtain ⟨chainId, delegator, key, message, signature, named, read, found, encoded, given, verified⟩ :=
        verified present
      refine ⟨chainId, named, signature, given, .valid, ?_, rfl⟩
      exact verifyHopSignature_valid_iff.mpr ⟨delegator, key, message, read, found, encoded, verified⟩
  · rw [hopSignature, if_neg present]
    exact iff_of_true rfl fun given => absurd given present

theorem hopSignatures_nil_iff {keysAreComplete : Bool} :
    hopSignatures verifies chain (.list hops) pubkeys keysAreComplete = .ok [] ↔
      Signed verifies chain pubkeys hops := by
  refine collect_nil_iff.trans ?_
  constructor
  · intro found hop member
    obtain ⟨i, here⟩ := List.mem_iff_getElem?.mp member
    exact hopSignature_nil_iff.mp (found (hop, i) (List.mem_zipIdx_iff_getElem?.mpr here))
  · rintro signed ⟨hop, i⟩ member
    exact hopSignature_nil_iff.mpr (signed hop (List.mem_of_getElem? (List.mem_zipIdx_iff_getElem?.mp member)))

/-- What a vector is that no check before the replay guard finds fault with. -/
structure Clean (verifies : Verifier) (vector chain : Json) (hops : List Json) (pubkeys : Pubkeys)
    (enforceScopeNarrowing : Bool) : Prop where
  referenced : Referenced vector chain
  continuous : Continuous hops
  rooted : Rooted chain hops
  leaf : LeafAnchored vector chain hops
  signed : Signed verifies chain pubkeys hops
  narrowing : enforceScopeNarrowing = true → Narrowing hops

theorem sums_nil_iff {α β : Type} {xs : List (α ⊕ β)} :
    xs.filterMap Sum.getLeft? = [] ∧ xs.filterMap Sum.getRight? = [] ↔ xs = [] := by
  constructor
  · rintro ⟨lefts, rights⟩
    cases xs with
    | nil => rfl
    | cons x rest => cases x <;> simp_all
  · rintro rfl
    exact ⟨rfl, rfl⟩

/-- A vector whose first hop has a delegator has a list of hops. -/
theorem list_of_rootAnchoring {value : Json} {found : List Failure} (rooted : rootAnchoring chain value = .ok found) :
    ∃ hops, value = .list hops := by
  obtain ⟨_, _, rooted⟩ := bind_ok rooted
  obtain ⟨first, read, rooted⟩ := bind_ok rooted
  obtain ⟨_, delegator, _⟩ := bind_ok rooted
  exact Json.list_of_index read delegator

theorem list_of_frontChecks {value : Json} {front : List Failure} (fronted : frontChecks vector chain value = .ok front) :
    ∃ hops, value = .list hops := by
  obtain ⟨_, _, ended⟩ := bind_ok fronted
  obtain ⟨_, _, ended⟩ := bind_ok ended
  obtain ⟨_, rooted, _⟩ := bind_ok ended
  exact list_of_rootAnchoring rooted

theorem list_of_findings {value : Json} {keysAreComplete enforceScopeNarrowing : Bool}
    {found : List Failure × List NotAssessed}
    (ended : findings verifies vector chain value pubkeys keysAreComplete enforceScopeNarrowing = .ok found) :
    ∃ hops, value = .list hops := by
  obtain ⟨_, fronted, _⟩ := bind_ok ended
  exact list_of_frontChecks fronted

theorem frontChecks_nil_iff : frontChecks vector chain (.list hops) = .ok [] ↔
    Referenced vector chain ∧ Continuous hops ∧ Rooted chain hops ∧ LeafAnchored vector chain hops := by
  constructor
  · intro clean
    obtain ⟨reference, referenced, clean⟩ := bind_ok clean
    obtain ⟨continuity, continuous, clean⟩ := bind_ok clean
    obtain ⟨root, rooted, clean⟩ := bind_ok clean
    obtain ⟨leaf, anchored, clean⟩ := bind_ok clean
    have failures := Except.ok.inj clean
    simp only [List.append_eq_nil_iff] at failures
    obtain ⟨⟨⟨rfl, rfl⟩, rfl⟩, rfl⟩ := failures
    exact ⟨byteMatch_nil_iff.mp referenced, chainContinuity_nil_iff.mp continuous, rootAnchoring_nil_iff.mp rooted,
      leafAnchoring_nil_iff.mp anchored⟩
  · rintro ⟨referenced, continuous, rooted, anchored⟩
    refine bind_ok_iff.mpr ⟨[], byteMatch_nil_iff.mpr referenced, ?_⟩
    refine bind_ok_iff.mpr ⟨[], chainContinuity_nil_iff.mpr continuous, ?_⟩
    refine bind_ok_iff.mpr ⟨[], rootAnchoring_nil_iff.mpr rooted, ?_⟩
    exact bind_ok_iff.mpr ⟨[], leafAnchoring_nil_iff.mpr anchored, rfl⟩

theorem findings_nil_iff {keysAreComplete enforceScopeNarrowing : Bool} :
    findings verifies vector chain (.list hops) pubkeys keysAreComplete enforceScopeNarrowing = .ok ([], []) ↔
      Clean verifies vector chain hops pubkeys enforceScopeNarrowing := by
  constructor
  · intro clean
    obtain ⟨front, fronted, clean⟩ := bind_ok clean
    obtain ⟨signatures, signed, clean⟩ := bind_ok clean
    obtain ⟨narrowing, narrower, clean⟩ := bind_ok clean
    obtain ⟨failures, unassessed⟩ := Prod.mk.inj (Except.ok.inj clean)
    simp only [List.append_eq_nil_iff] at failures
    obtain ⟨⟨rfl, invalid⟩, rfl⟩ := failures
    cases sums_nil_iff.mp ⟨invalid, unassessed⟩
    obtain ⟨referenced, continuous, rooted, anchored⟩ := frontChecks_nil_iff.mp fronted
    exact ⟨referenced, continuous, rooted, anchored, hopSignatures_nil_iff.mp signed,
      scopeNarrowing_nil_iff.mp narrower⟩
  · intro clean
    have fronted := frontChecks_nil_iff.mpr ⟨clean.referenced, clean.continuous, clean.rooted, clean.leaf⟩
    refine bind_ok_iff.mpr ⟨[], fronted, ?_⟩
    refine bind_ok_iff.mpr ⟨[], hopSignatures_nil_iff.mpr clean.signed, ?_⟩
    exact bind_ok_iff.mpr ⟨[], scopeNarrowing_nil_iff.mpr clean.narrowing, rfl⟩

theorem pass_iff {failures : List Failure} {notAssessed : List NotAssessed} :
    (Evaluation.of failures notAssessed).verdict = .pass ↔ failures = [] ∧ notAssessed = [] := by
  cases failures <;> cases notAssessed <;> simp [Evaluation.of]

/-- A registry that is given holds neither the chain nor one of its hops' references. -/
def Unrecorded (seenRegistry : Option SeenRegistry) (chain hops : Json) : Prop :=
  ∀ registry ∈ seenRegistry, ∃ authorization, readAuthorization chain hops = .ok authorization ∧
    registry.contains authorization.chainId authorization.hopRefs = .ok false

/-- What the replay check does: nothing without a registry, and else what the registry says. -/
theorem replayCheck_cases {seenRegistry after : Option SeenRegistry} {listed : Json} {clean : Bool}
    {replayed : List Failure} (checked : replayCheck seenRegistry chain listed clean = .ok (replayed, after)) :
    (seenRegistry = none ∧ replayed = [] ∧ after = none) ∨
    ∃ registry authorization, seenRegistry = some registry ∧ readAuthorization chain listed = .ok authorization ∧
      ((registry.contains authorization.chainId authorization.hopRefs = .ok true ∧
          replayed = [.replayDetected authorization.chainId] ∧ after = some registry) ∨
        (registry.contains authorization.chainId authorization.hopRefs = .ok false ∧ replayed = [] ∧
          after = some (if clean then registry.record authorization.chainId authorization.hopRefs else registry))) := by
  cases seenRegistry with
  | none =>
      cases checked
      exact Or.inl ⟨rfl, rfl, rfl⟩
  | some registry =>
      obtain ⟨authorization, read, checked⟩ := bind_ok checked
      obtain ⟨seen, found, checked⟩ := bind_ok checked
      refine Or.inr ⟨registry, authorization, rfl, read, ?_⟩
      cases seen with
      | true =>
          cases checked
          exact Or.inl ⟨found, rfl, rfl⟩
      | false =>
          cases checked
          exact Or.inr ⟨found, rfl, rfl⟩

theorem replayCheck_unrecorded {seenRegistry : Option SeenRegistry} {listed : Json} {clean : Bool}
    (unrecorded : Unrecorded seenRegistry chain listed) :
    ∃ after, replayCheck seenRegistry chain listed clean = .ok ([], after) := by
  cases seenRegistry with
  | none => exact ⟨none, rfl⟩
  | some registry =>
      obtain ⟨authorization, read, absent⟩ := unrecorded registry rfl
      exact ⟨_, bind_ok_iff.mpr ⟨authorization, read, bind_ok_iff.mpr ⟨false, absent, rfl⟩⟩⟩

/-- What a vector is that passes. -/
structure Accepted (verifies : Verifier) (vector : Json) (pubkeys : Pubkeys) (seenRegistry : Option SeenRegistry)
    (enforceScopeNarrowing : Bool) (chain : Json) (hops : List Json) : Prop where
  artifact : vector.item (ofString "chain_artifact") = .ok chain
  listed : chain.item (ofString "hops") = .ok (.list hops)
  clean : Clean verifies vector chain hops pubkeys enforceScopeNarrowing
  unrecorded : Unrecorded seenRegistry chain (.list hops)

theorem accepted_iff_pass {seenRegistry : Option SeenRegistry} {keysAreComplete enforceScopeNarrowing : Bool} :
    (∃ evaluation after, evaluateVector verifies vector pubkeys seenRegistry keysAreComplete enforceScopeNarrowing =
      .ok (evaluation, after) ∧ evaluation.verdict = .pass) ↔
    ∃ chain hops, Accepted verifies vector pubkeys seenRegistry enforceScopeNarrowing chain hops := by
  constructor
  · rintro ⟨evaluation, after, evaluated, passed⟩
    obtain ⟨chain, artifact, evaluated⟩ := bind_ok evaluated
    obtain ⟨value, listed, evaluated⟩ := bind_ok evaluated
    obtain ⟨⟨failures, notAssessed⟩, found, evaluated⟩ := bind_ok evaluated
    obtain ⟨⟨replayed, registry⟩, checked, evaluated⟩ := bind_ok evaluated
    cases evaluated
    obtain ⟨none, rfl⟩ := pass_iff.mp passed
    obtain ⟨rfl, rfl⟩ := List.append_eq_nil_iff.mp none
    obtain ⟨hops, rfl⟩ := list_of_findings found
    refine ⟨chain, hops, artifact, listed, findings_nil_iff.mp found, ?_⟩
    intro registry given
    rcases replayCheck_cases checked with ⟨absent, _⟩ | ⟨held, authorization, same, read, ⟨_, replay, _⟩ | ⟨unseen, _⟩⟩
    · rw [absent] at given
      cases given
    · cases replay
    · rw [same] at given
      cases given
      exact ⟨authorization, read, unseen⟩
  · rintro ⟨chain, hops, artifact, listed, clean, unrecorded⟩
    obtain ⟨after, checked⟩ := replayCheck_unrecorded unrecorded
    refine ⟨.of [] [], after, ?_, rfl⟩
    refine bind_ok_iff.mpr ⟨chain, artifact, bind_ok_iff.mpr ⟨_, listed, ?_⟩⟩
    exact bind_ok_iff.mpr ⟨_, findings_nil_iff.mpr clean, bind_ok_iff.mpr ⟨_, checked, rfl⟩⟩

/-- The chain's scope is the one its first hop has. -/
def Scoped (chain : Json) (hops : List Json) : Prop :=
  ∃ first ∈ hops.head?, agree (chain.item (ofString "scope")) (first.item (ofString "scope")) = true

/-- An action that is given was executed by the last delegatee. -/
def LeafExecuted (vector : Json) (hops : List Json) : Prop :=
  vector.has (ofString "leaf_preimage") = true →
    ∃ last ∈ hops.getLast?, ∃ preimage, vector.item (ofString "leaf_preimage") = .ok preimage ∧
      agree (preimage.item (ofString "agent_id")) (last.item (ofString "delegatee")) = true

/-- The fields and invariants of the specification. -/
structure Conforms (verifies : Verifier) (vector : Json) (pubkeys : Pubkeys) (chain : Json) (hops : List Json) :
    Prop where
  artifact : vector.item (ofString "chain_artifact") = .ok chain
  listed : chain.item (ofString "hops") = .ok (.list hops)
  twoHops : 2 ≤ hops.length
  continuous : Continuous hops
  rooted : Rooted chain hops
  topScope : Scoped chain hops
  signed : Signed verifies chain pubkeys hops
  leaf : LeafAnchored vector chain hops
  executed : LeafExecuted vector hops

/-- A vector that passes conforms. -/
def PassConforms (verifies : Verifier) (vector : Json) (pubkeys : Pubkeys) (seenRegistry : Option SeenRegistry)
    (keysAreComplete enforceScopeNarrowing : Bool) : Prop :=
  ∀ evaluation after, evaluateVector verifies vector pubkeys seenRegistry keysAreComplete enforceScopeNarrowing =
      .ok (evaluation, after) → evaluation.verdict = .pass →
    ∃ chain hops, Conforms verifies vector pubkeys chain hops

end

/-- The verifier checks all of the specification but the number of hops, the scope of the
chain and the agent of the leaf action. -/
theorem passConforms_iff (verifies : Verifier) (vector : Json) (pubkeys : Pubkeys)
    (seenRegistry : Option SeenRegistry) (keysAreComplete enforceScopeNarrowing : Bool) :
    PassConforms verifies vector pubkeys seenRegistry keysAreComplete enforceScopeNarrowing ↔
      ∀ chain hops, Accepted verifies vector pubkeys seenRegistry enforceScopeNarrowing chain hops →
        2 ≤ hops.length ∧ Scoped chain hops ∧ LeafExecuted vector hops := by
  constructor
  · intro conforms chain hops accepted
    obtain ⟨evaluation, after, evaluated, passed⟩ := accepted_iff_pass.mpr ⟨chain, hops, accepted⟩
    obtain ⟨chain', hops', met⟩ := conforms evaluation after evaluated passed
    cases accepted.artifact.symm.trans met.artifact
    cases accepted.listed.symm.trans met.listed
    exact ⟨met.twoHops, met.topScope, met.executed⟩
  · intro met evaluation after evaluated passed
    obtain ⟨chain, hops, accepted⟩ := accepted_iff_pass.mp ⟨evaluation, after, evaluated, passed⟩
    obtain ⟨twoHops, topScope, executed⟩ := met chain hops accepted
    exact ⟨chain, hops,
      { artifact := accepted.artifact
        listed := accepted.listed
        twoHops, topScope, executed
        continuous := accepted.clean.continuous
        rooted := accepted.clean.rooted
        signed := accepted.clean.signed
        leaf := accepted.clean.leaf }⟩

def strings (fields : List (String × String)) : Json :=
  .dict (fields.map fun field => (ofString field.1, .str (ofString field.2)))

/-- An action of an agent that is no delegatee. -/
def foreignAction : Json := strings [("agent_id", "mallory"), ("action_type", "payment.route"),
  ("scope", "mycelium:payment"), ("timestamp", "2026-05-26T20:00:00.000Z")]

def onlyHop : Json := strings [("delegatee", "soma-agent"), ("delegator", "giskard-self"),
  ("delegation_ref", "fc49ff73ebd629bd3440455115a4ce09e69219f2374f6b0c7a2713a52a579b7e"), ("scope", "mycelium:payment")]

def wideChain : Json := .dict [(ofString "chain_id", .str (ofString "chain_b1f4a2d7c9e3")),
  (ofString "hops", .list [onlyHop]),
  (ofString "leaf_action_ref", .str (ofString "93b1132f3a3120a6306963f05a09b9928a08105040595d541ec2264007fd8bcd")),
  (ofString "root_delegator", .str (ofString "giskard-self")), (ofString "scope", .str (ofString "mycelium:*")),
  (ofString "version", .str (ofString "delegation-chain-ref-v1"))]

def wideVector : Json := .dict [(ofString "chain_artifact", wideChain),
  (ofString "delegation_chain_ref",
    .str (ofString "47250023c0d6e77209d13ad851aaf677e7a433f16d82e563f3bba8365cfd1da0")),
  (ofString "leaf_preimage", foreignAction)]

/-- The verdict of an evaluation that comes to an end. -/
def verdict? : Except PyError (Evaluation × Option SeenRegistry) → Option Verdict
  | .ok (evaluation, _) => some evaluation.verdict
  | .error _ => none

/-- The hops of a vector that has a list of them. -/
def hops? (vector : Json) : Option (List Json) :=
  match vector.item (ofString "chain_artifact") >>= fun chain => chain.item (ofString "hops") with
  | .ok (.list hops) => some hops
  | _ => none

/-- One hop, a chain of a wider scope and an action of another agent pass. -/
theorem not_passConforms_wide : ¬ PassConforms (fun _ _ _ => false) wideVector [] none false false := by
  intro conforms
  have passes : verdict? (evaluateVector (fun _ _ _ => false) wideVector [] none false false) = some .pass := by
    decide +kernel
  have single : (hops? wideVector).map List.length = some 1 := by decide +kernel
  cases evaluated : evaluateVector (fun _ _ _ => false) wideVector [] none false false with
  | error raised =>
      rw [evaluated] at passes
      cases passes
  | ok result =>
      rw [evaluated] at passes
      obtain ⟨chain, hops, met⟩ := conforms result.1 result.2 evaluated (Option.some.inj passes)
      have read : hops? wideVector = some hops := by
        rw [hops?, bind_ok_iff.mpr ⟨chain, met.artifact, met.listed⟩]
      rw [read] at single
      have long := met.twoHops
      rw [Option.some.inj single] at long
      omega

end Delegation
end Argentum
