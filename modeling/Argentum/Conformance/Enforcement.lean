import Argentum.Conformance.FrozenCopies

/-! The enforcement of revocations over delegation chains. What is executed under a revoked hop
is invalid. The hops after the first that is revoked are found, and the leaf action where
there is such a hop. -/
namespace Argentum.Delegation
open Text

/-- What is read of a revocation artifact. -/
structure Revocation where
  version : Json
  revokedActionRef : Option Json

/-- The reference that the artifact counts for. -/
def Revocation.revoked? (revocation : Revocation) : Option Json :=
  if revocation.version.eq (.str (ofString "revocation-ref-v1")) then revocation.revokedActionRef else none

/-- What the artifact adds to the set of references. -/
def Revocation.refs (revocation : Revocation) : Except PyError (List Json) :=
  match revocation.revoked? with
  | none => .ok []
  | some ref => if ref.hashable then .ok [ref] else .error .typeError

def revokedRefs (revocations : List Revocation) : Except PyError Seen := collect Revocation.refs revocations

def revokedHop (refs : Seen) : Json × Nat → Except PyError (List Nat)
  | (hop, i) => do
      let delegationRef ← hop.item (ofString "delegation_ref")
      return if ← refs.contains delegationRef then [i] else []

def revokedAncestorIndices (hops : Json) (revocations : List Revocation) : Except PyError (List Nat) := do
  let refs ← revokedRefs revocations
  collect (revokedHop refs) (← hops.elements).zipIdx

inductive EnforcementFailure where
  | descendantOfRevokedAncestor (hop ancestor : Nat) (delegationRef delegator delegatee : Json)
  | leafActionUnderRevokedAncestor (ancestor : Nat) (delegatee : Json)

def descendantOf (hops : Json) (first i : Nat) : Except PyError (List EnforcementFailure) := do
  let delegationRef ← (← hops.index first).item (ofString "delegation_ref")
  let delegator ← (← hops.index i).item (ofString "delegator")
  let delegatee ← (← hops.index i).item (ofString "delegatee")
  return [.descendantOfRevokedAncestor i first delegationRef delegator delegatee]

def leafUnder (hops : Json) (first count : Nat) : Except PyError (List EnforcementFailure) :=
  if first + 1 < count then do
    let delegatee ← (← hops.last).item (ofString "delegatee")
    return [.leafActionUnderRevokedAncestor first delegatee]
  else .ok []

/-- `enforce_7_5` -/
def enforce75 (chain : Json) (revocations : List Revocation) : Except PyError (Bool × List EnforcementFailure) := do
  let hops ← chain.item (ofString "hops")
  match ← revokedAncestorIndices hops revocations with
  | [] => return (true, [])
  | first :: _ =>
      let count ← hops.len
      let descendants ← collect (descendantOf hops first) (List.range' (first + 1) (count - (first + 1)))
      let leaf ← leafUnder hops first count
      return ((descendants ++ leaf).isEmpty, descendants ++ leaf)

structure ModelVerdict where
  valid : Bool
  failures : List (Failure ⊕ EnforcementFailure)
  structuralOk : Bool

/-- `verdict` -/
def verdict (verifies : Verifier) (vector : Json) (revocations : List Revocation) (model : Str) :
    Except PyError ModelVerdict := do
  let ((structuralOk, structuralFailures), _) ← RevokedAncestor.verifyVector verifies vector [] (some .empty)
  if model = ofString "default" then return ⟨structuralOk, structuralFailures.map .inl, structuralOk⟩
  else if model = ofString "7.5" then
    let (enforcedOk, enforcedFailures) ← enforce75 (← vector.item (ofString "chain_artifact")) revocations
    return ⟨structuralOk && enforcedOk, structuralFailures.map .inl ++ enforcedFailures.map .inr, structuralOk⟩
  else .error .valueError

/-- A known artifact revokes the reference of the hop at this place. -/
def NamedHop (hops : List Json) (revocations : List Revocation) (i : Nat) : Prop :=
  ∃ hop delegationRef, hops[i]? = some hop ∧ hop.item (ofString "delegation_ref") = .ok delegationRef ∧
    ∃ revocation ∈ revocations, ∃ ref, revocation.revoked? = some ref ∧ ref.same delegationRef = true

/-- The chain of the vector has a list of hops. -/
def Hops (vector : Json) (hops : List Json) : Prop :=
  ∃ chain, vector.item (ofString "chain_artifact") = .ok chain ∧ chain.item (ofString "hops") = .ok (.list hops)

def StructurallyValid (verifies : Verifier) (vector : Json) : Prop :=
  Conforming (RevokedAncestor.verifyVector verifies vector [] (some .empty))

/-- The vector is valid under the model that enforces revocations. -/
def Valid (verifies : Verifier) (vector : Json) (revocations : List Revocation) : Prop :=
  ∃ answer, verdict verifies vector revocations (ofString "7.5") = .ok answer ∧ answer.valid = true

/-- No hop of the vector is revoked. -/
def Unnamed (vector : Json) (revocations : List Revocation) : Prop :=
  ∀ hops, Hops vector hops → ∀ i, ¬ NamedHop hops revocations i

/-- No action passes under a revoked grant. -/
structure NoRevokedPass (verifies : Verifier) (vector : Json) (revocations : List Revocation) : Prop where
  valid : Valid verifies vector revocations ↔ StructurallyValid verifies vector ∧ Unnamed vector revocations
  monotone : ∀ more, (∀ revocation ∈ revocations, revocation ∈ more) →
    Valid verifies vector more → Valid verifies vector revocations
  structural : ∀ others model model' answer answer', verdict verifies vector revocations model = .ok answer →
    verdict verifies vector others model' = .ok answer' → answer.structuralOk = answer'.structuralOk

/-- The last hop is revoked, and no hop before it. -/
def OnlyLastNamed (vector : Json) (revocations : List Revocation) : Prop :=
  ∃ hops, Hops vector hops ∧ NamedHop hops revocations (hops.length - 1) ∧
    ∀ i, i + 1 < hops.length → ¬ NamedHop hops revocations i

/-- The references that are revoked can be kept in a set. -/
def Keepable (revocations : List Revocation) : Prop :=
  ∀ revocation ∈ revocations, ∀ ref, revocation.revoked? = some ref → ref.hashable = true

section
variable {verifies : Verifier} {vector chain : Json} {hops : List Json} {revocations more : List Revocation}
  {refs : Seen} {i : Nat}

/-- The references of the hops can be looked for in a set. -/
def RefsReadable (hops : List Json) : Prop :=
  ∀ hop ∈ hops, ∃ delegationRef, hop.item (ofString "delegation_ref") = .ok delegationRef ∧
    delegationRef.hashable = true

theorem Revocation.refs_ok_iff {revocation : Revocation} {own : List Json} : revocation.refs = .ok own ↔
    own = revocation.revoked?.toList ∧ ∀ ref, revocation.revoked? = some ref → ref.hashable = true := by
  unfold Revocation.refs
  cases revocation.revoked? with
  | none =>
      constructor
      · rintro ⟨⟩
        exact ⟨rfl, fun ref named => by cases named⟩
      · rintro ⟨rfl, _⟩
        rfl
  | some ref =>
      dsimp only
      constructor
      · intro added
        split at added
        · rename_i kept
          cases added
          refine ⟨rfl, ?_⟩
          rintro _ ⟨⟩
          exact kept
        · cases added
      · rintro ⟨rfl, kept⟩
        exact if_pos (kept ref rfl)

theorem revokedRefs_isOk_iff : (∃ refs, revokedRefs revocations = .ok refs) ↔ Keepable revocations := by
  rw [revokedRefs, collect_isOk_iff]
  refine forall₂_congr fun revocation _ => ?_
  constructor
  · rintro ⟨own, added⟩
    exact (Revocation.refs_ok_iff.mp added).2
  · intro kept
    exact ⟨_, Revocation.refs_ok_iff.mpr ⟨rfl, kept⟩⟩

theorem contains_of_revokedRefs (kept : revokedRefs revocations = .ok refs) {delegationRef : Json}
    (hashable : delegationRef.hashable = true) :
    ∃ revoked, refs.contains delegationRef = .ok revoked ∧ (revoked = true ↔
      ∃ revocation ∈ revocations, ∃ ref, revocation.revoked? = some ref ∧ ref.same delegationRef = true) := by
  refine ⟨_, if_pos hashable, ?_⟩
  rw [Seen.member, List.any_eq_true]
  constructor
  · rintro ⟨ref, member, same⟩
    obtain ⟨revocation, known, own, added, inside⟩ := (mem_collect_iff kept).mp member
    rw [(Revocation.refs_ok_iff.mp added).1, Option.mem_toList] at inside
    exact ⟨revocation, known, ref, inside, same⟩
  · rintro ⟨revocation, known, ref, names, same⟩
    obtain ⟨own, added⟩ := collect_isOk_iff.mp ⟨refs, kept⟩ revocation known
    refine ⟨ref, (mem_collect_iff kept).mpr ⟨revocation, known, own, added, ?_⟩, same⟩
    rw [(Revocation.refs_ok_iff.mp added).1, names]
    exact List.mem_singleton.mpr rfl

theorem revokedHop_of_readable (kept : revokedRefs revocations = .ok refs) {hop : Json}
    (readable : ∃ delegationRef, hop.item (ofString "delegation_ref") = .ok delegationRef ∧
      delegationRef.hashable = true) (here : hops[i]? = some hop) :
    ∃ own, revokedHop refs (hop, i) = .ok own ∧ (i ∈ own ↔ NamedHop hops revocations i) := by
  obtain ⟨delegationRef, read, hashable⟩ := readable
  obtain ⟨revoked, contained, iff⟩ := contains_of_revokedRefs kept hashable
  refine ⟨_, bind_ok_iff.mpr ⟨delegationRef, read, bind_ok_iff.mpr ⟨revoked, contained, rfl⟩⟩, ?_⟩
  have named : NamedHop hops revocations i ↔ revoked = true := by
    rw [iff]
    constructor
    · rintro ⟨hop', delegationRef', there, read', named⟩
      cases here.symm.trans there
      cases read.symm.trans read'
      exact named
    · exact fun named => ⟨hop, delegationRef, here, read, named⟩
  rw [named]
  cases revoked <;> simp

/-- Where the references can be read, the indices are those of the named hops, in order. -/
theorem revokedAncestorIndices_of_readable (readable : RefsReadable hops) (kept : revokedRefs revocations = .ok refs) :
    ∃ indices, revokedAncestorIndices (.list hops) revocations = .ok indices ∧ indices.Pairwise (· < ·) ∧
      ∀ i, i ∈ indices ↔ NamedHop hops revocations i := by
  have reads (hop : Json) (i : Nat) (member : (hop, i) ∈ hops.zipIdx) :
      ∃ own, revokedHop refs (hop, i) = .ok own ∧ (i ∈ own ↔ NamedHop hops revocations i) := by
    have here := List.mem_zipIdx_iff_getElem?.mp member
    exact revokedHop_of_readable kept (readable hop (List.mem_of_getElem? here)) here
  obtain ⟨indices, collected⟩ : ∃ indices, collect (revokedHop refs) hops.zipIdx = .ok indices := by
    apply collect_isOk_iff.mpr
    rintro ⟨hop, i⟩ member
    obtain ⟨own, found, _⟩ := reads hop i member
    exact ⟨own, found⟩
  have marks (entry : Json × Nat) (own : List Nat) (found : revokedHop refs entry = .ok own) :
      List.Sublist own [entry.2] := by
    obtain ⟨delegationRef, _, found⟩ := bind_ok found
    obtain ⟨revoked, _, found⟩ := bind_ok found
    cases found
    cases revoked with
    | true => exact List.Sublist.refl _
    | false => exact List.nil_sublist _
  refine ⟨indices, bind_ok_iff.mpr ⟨refs, kept, collected⟩, ?_, fun i => ?_⟩
  · have within := collect_within marks collected
    rw [List.zipIdx_map_snd] at within
    exact List.Pairwise.sublist within List.pairwise_lt_range'
  · rw [mem_collect_iff collected]
    constructor
    · rintro ⟨⟨hop, i'⟩, listed, own, found, inside⟩
      obtain rfl : i = i' := List.mem_singleton.mp ((marks _ own found).subset inside)
      obtain ⟨own', found', iff⟩ := reads hop i listed
      cases found.symm.trans found'
      exact iff.mp inside
    · intro named
      have ⟨hop, _, here, _⟩ := named
      have listed : (hop, i) ∈ hops.zipIdx := List.mem_zipIdx_iff_getElem?.mpr here
      obtain ⟨own, found, iff⟩ := reads hop i listed
      exact ⟨(hop, i), listed, own, found, iff.mpr named⟩

theorem NamedHop.lt_length (named : NamedHop hops revocations i) : i < hops.length := by
  obtain ⟨hop, _, here, _⟩ := named
  exact (List.getElem?_eq_some_iff.mp here).1

/-- Where the set cannot be made, the enforcement raises. -/
theorem keepable_of_enforce75 {answer : Bool × List EnforcementFailure}
    (enforced : enforce75 chain revocations = .ok answer) : Keepable revocations := by
  obtain ⟨_, _, enforced⟩ := bind_ok enforced
  obtain ⟨_, indices, _⟩ := bind_ok enforced
  obtain ⟨refs, kept, _⟩ := bind_ok indices
  exact revokedRefs_isOk_iff.mp ⟨refs, kept⟩

/-- What is executed under a hop with others after it is found. -/
theorem leafUnder_ne_nil {first count : Nat} {leaf : List EnforcementFailure} (earlier : first + 1 < count)
    (under : leafUnder (.list hops) first count = .ok leaf) : leaf ≠ [] := by
  rw [leafUnder, if_pos earlier] at under
  obtain ⟨_, _, under⟩ := bind_ok under
  obtain ⟨_, _, under⟩ := bind_ok under
  cases under
  exact List.cons_ne_nil _ _

/-- The enforcement finds nothing where no hop is revoked but the last. -/
theorem enforce75_valid_iff (listed : chain.item (ofString "hops") = .ok (.list hops)) (readable : RefsReadable hops) :
    (∃ failures, enforce75 chain revocations = .ok (true, failures)) ↔
      Keepable revocations ∧ ∀ i, NamedHop hops revocations i → i + 1 = hops.length := by
  by_cases keepable : Keepable revocations
  · obtain ⟨refs, kept⟩ := revokedRefs_isOk_iff.mpr keepable
    obtain ⟨indices, found, ascending, named_iff⟩ := revokedAncestorIndices_of_readable readable kept
    rw [and_iff_right keepable]
    simp only [enforce75, listed, found, bind, Except.bind]
    cases indices with
    | nil =>
        refine iff_of_true ⟨[], rfl⟩ fun i named => ?_
        cases (named_iff i).mpr named
    | cons first rest =>
        have bound := ((named_iff first).mp List.mem_cons_self).lt_length
        constructor
        · rintro ⟨failures, enforced⟩ i named
          have last : ¬ first + 1 < hops.length := by
            intro earlier
            obtain ⟨descendants, _, enforced⟩ := bind_ok enforced
            obtain ⟨leaf, under, enforced⟩ := bind_ok enforced
            have none := (Prod.mk.inj (Except.ok.inj enforced)).1
            rw [List.isEmpty_iff, List.append_eq_nil_iff] at none
            exact leafUnder_ne_nil earlier under none.2
          have within := named.lt_length
          rcases List.mem_cons.mp ((named_iff i).mpr named) with rfl | later
          · omega
          · have := (List.pairwise_cons.mp ascending).1 i later
            omega
        · intro only
          have last := only first ((named_iff first).mp List.mem_cons_self)
          refine ⟨[], bind_ok_iff.mpr ⟨[], ?_, bind_ok_iff.mpr ⟨[], ?_, rfl⟩⟩⟩
          · rw [last, Nat.sub_self]
            rfl
          · rw [leafUnder, if_neg (by omega)]
  · refine iff_of_false ?_ fun both => keepable both.1
    rintro ⟨failures, enforced⟩
    exact keepable (keepable_of_enforce75 enforced)

theorem containsAny_nil {values : List Json} {found : Bool} (searched : Seen.containsAny [] values = .ok found) :
    ∀ value ∈ values, value.hashable = true := by
  induction values with
  | nil => exact fun value member => absurd member List.not_mem_nil
  | cons value rest ih =>
      obtain ⟨known, contained, searched⟩ := bind_ok searched
      unfold Seen.contains at contained
      split at contained
      · rename_i hashable
        cases contained
        exact List.forall_mem_cons.mpr ⟨hashable, ih searched⟩
      · cases contained

/-- A vector that is structurally valid has hops whose references can be looked for. -/
theorem StructurallyValid.readable (valid : StructurallyValid verifies vector) :
    ∃ hops, Hops vector hops ∧ RefsReadable hops := by
  obtain ⟨found, after, verified⟩ := valid
  obtain ⟨chain, artifact, verified⟩ := bind_ok verified
  obtain ⟨value, listed, verified⟩ := bind_ok verified
  obtain ⟨front, fronted, verified⟩ := bind_ok verified
  obtain ⟨narrowing, _, verified⟩ := bind_ok verified
  obtain ⟨signatures, _, verified⟩ := bind_ok verified
  obtain ⟨⟨replayed, registry⟩, checked, _⟩ := bind_ok verified
  obtain ⟨hops, rfl⟩ := list_of_frontChecks fronted
  refine ⟨hops, ⟨chain, artifact, listed⟩, ?_⟩
  obtain ⟨authorization, read, checked⟩ := bind_ok checked
  obtain ⟨seen, contained, _⟩ := bind_ok checked
  obtain ⟨_, elements, read⟩ := bind_ok read
  cases elements
  obtain ⟨refs, mapped, read⟩ := bind_ok read
  obtain ⟨_, _, read⟩ := bind_ok read
  cases read
  -- the fresh registry knows no chain, and so asks for every reference
  obtain ⟨known, named, contained⟩ := bind_ok contained
  have hashable : ∀ ref ∈ refs, ref.hashable = true := by
    unfold Seen.contains at named
    split at named
    · cases named
      exact containsAny_nil contained
    · cases named
  exact mapOk_isOk_iff.mp ⟨refs, mapped, hashable⟩

theorem Hops.unique {others : List Json} (listed : Hops vector hops) (also : Hops vector others) : hops = others := by
  obtain ⟨chain, artifact, listed⟩ := listed
  obtain ⟨chain', artifact', also⟩ := also
  cases artifact.symm.trans artifact'
  cases listed.symm.trans also
  rfl

/-- What is valid where revocations are enforced: no hop is revoked but the last. -/
theorem valid_iff (listed : Hops vector hops) (readable : RefsReadable hops) : Valid verifies vector revocations ↔
    StructurallyValid verifies vector ∧ Keepable revocations ∧
      ∀ i, NamedHop hops revocations i → i + 1 = hops.length := by
  obtain ⟨chain, artifact, listed⟩ := listed
  rw [← enforce75_valid_iff listed readable]
  constructor
  · rintro ⟨answer, judged, valid⟩
    obtain ⟨⟨⟨structuralOk, failures⟩, registry⟩, verified, judged⟩ := bind_ok judged
    obtain ⟨chain', artifact', judged⟩ := bind_ok judged
    cases artifact.symm.trans artifact'
    obtain ⟨⟨enforcedOk, enforcedFailures⟩, enforced, judged⟩ := bind_ok judged
    cases judged
    obtain ⟨rfl, rfl⟩ := Bool.and_eq_true_iff.mp valid
    exact ⟨⟨failures, registry, verified⟩, enforcedFailures, enforced⟩
  · rintro ⟨⟨found, after, verified⟩, failures, enforced⟩
    exact ⟨_, bind_ok_iff.mpr ⟨_, verified, bind_ok_iff.mpr ⟨chain, artifact, bind_ok_iff.mpr ⟨_, enforced, rfl⟩⟩⟩, rfl⟩

theorem Valid.structural (valid : Valid verifies vector revocations) : StructurallyValid verifies vector := by
  obtain ⟨answer, judged, valid⟩ := valid
  obtain ⟨⟨⟨structuralOk, failures⟩, registry⟩, verified, judged⟩ := bind_ok judged
  obtain ⟨chain, artifact, judged⟩ := bind_ok judged
  obtain ⟨⟨enforcedOk, enforcedFailures⟩, enforced, judged⟩ := bind_ok judged
  cases judged
  obtain ⟨rfl, rfl⟩ := Bool.and_eq_true_iff.mp valid
  exact ⟨failures, registry, verified⟩

theorem NamedHop.mono (within : ∀ revocation ∈ revocations, revocation ∈ more) (named : NamedHop hops revocations i) :
    NamedHop hops more i := by
  obtain ⟨hop, delegationRef, here, read, revocation, known, names⟩ := named
  exact ⟨hop, delegationRef, here, read, revocation, within revocation known, names⟩

/-- The structural component is the verdict of the verifier. -/
theorem structuralOk_of_verdict {model : Str} {answer : ModelVerdict}
    (judged : verdict verifies vector revocations model = .ok answer) : ∃ failures after,
      RevokedAncestor.verifyVector verifies vector [] (some .empty) = .ok ((answer.structuralOk, failures), after) := by
  obtain ⟨⟨⟨structuralOk, failures⟩, registry⟩, verified, judged⟩ := bind_ok judged
  refine ⟨failures, registry, ?_⟩
  dsimp only at judged
  split at judged
  · cases judged
    exact verified
  split at judged
  · obtain ⟨_, _, judged⟩ := bind_ok judged
    obtain ⟨_, _, judged⟩ := bind_ok judged
    cases judged
    exact verified
  · cases judged

end

/-- No action passes under a revoked grant exactly where, of a valid chain, the last hop is
not the only one that is revoked; and where the set of references cannot be made, exactly
where some hop is revoked. -/
theorem noRevokedPass_iff (verifies : Verifier) (vector : Json) (revocations : List Revocation) :
    NoRevokedPass verifies vector revocations ↔ (StructurallyValid verifies vector →
      (Keepable revocations ∧ ¬ OnlyLastNamed vector revocations) ∨
        (¬ Keepable revocations ∧ ¬ Unnamed vector revocations)) := by
  have structural others model model' answer answer' (judged : verdict verifies vector revocations model = .ok answer)
      (also : verdict verifies vector others model' = .ok answer') : answer.structuralOk = answer'.structuralOk := by
    obtain ⟨_, _, verified⟩ := structuralOk_of_verdict judged
    obtain ⟨_, _, verified'⟩ := structuralOk_of_verdict also
    have same := Except.ok.inj (verified.symm.trans verified')
    exact (Prod.mk.inj (Prod.mk.inj same).1).1
  have monotone more (within : ∀ revocation ∈ revocations, revocation ∈ more) (valid : Valid verifies vector more) :
      Valid verifies vector revocations := by
    obtain ⟨hops, listed, readable⟩ := valid.structural.readable
    obtain ⟨sound, keepable, only⟩ := (valid_iff listed readable).mp valid
    refine (valid_iff listed readable).mpr ⟨sound, fun revocation known => ?_, fun i named => ?_⟩
    · exact keepable revocation (within revocation known)
    · exact only i (named.mono within)
  by_cases sound : StructurallyValid verifies vector
  · obtain ⟨hops, listed, readable⟩ := sound.readable
    have passes : Valid verifies vector revocations ↔
        Keepable revocations ∧ ∀ i, NamedHop hops revocations i → i + 1 = hops.length := by
      rw [valid_iff listed readable, and_iff_right sound]
    have unnamed : Unnamed vector revocations ↔ ∀ i, ¬ NamedHop hops revocations i := by
      refine ⟨fun free => free hops listed, fun free others listed' => ?_⟩
      rwa [← listed.unique listed']
    constructor
    · rintro ⟨valid, _, _⟩ _
      rw [passes, unnamed, and_iff_right sound] at valid
      by_cases keepable : Keepable revocations
      · refine Or.inl ⟨keepable, ?_⟩
        rintro ⟨others, listed', last, earlier⟩
        obtain rfl := listed.unique listed'
        have only (i : Nat) (named : NamedHop hops revocations i) : i + 1 = hops.length := by
          have within := named.lt_length
          have := mt (earlier i) (not_not_intro named)
          omega
        exact valid.mp ⟨keepable, only⟩ _ last
      · exact Or.inr ⟨keepable, fun free => keepable (valid.mpr (unnamed.mp free)).1⟩
    · intro apart
      refine ⟨?_, monotone, structural⟩
      rw [passes, unnamed, and_iff_right sound]
      rcases apart sound with ⟨keepable, other⟩ | ⟨unkept, named⟩
      · rw [and_iff_right keepable]
        constructor
        · intro only i named
          refine other ⟨hops, listed, ?_, fun j earlier named' => ?_⟩
          · rw [← only i named]
            exact named
          · have := only j named'
            omega
        · exact fun free i named => absurd named (free i)
      · exact iff_of_false (fun both => unkept both.1) fun free => named (unnamed.mpr free)
  · refine iff_of_true ⟨?_, monotone, structural⟩ fun valid => absurd valid sound
    exact iff_of_false (fun valid => sound valid.structural) fun both => sound both.1

def grantHops : List Json :=
  [strings [("delegatee", "pioneer-agent-001"), ("delegator", "giskard-self"),
    ("delegation_ref", "e7a936ee9b30fceae7239df32ecb593b60b109f05463f3048740c8bc45f9824a"),
    ("scope", "mycelium:payment")],
  strings [("delegatee", "lightning"), ("delegator", "pioneer-agent-001"),
    ("delegation_ref", "0ad117af7a77317fdf0d35886fc1ca945bda074a5609c1477d640e4d9015b73d"),
    ("scope", "mycelium:payment")],
  strings [("delegatee", "soma-agent"), ("delegator", "lightning"),
    ("delegation_ref", "6a09fa302daa05f875aeee1f54463a1e6eae5c3d2ceb1075ae8c66043ba2f8a2"),
    ("scope", "mycelium:payment")]]

def grantChain : Json := .dict [(ofString "chain_id", .str (ofString "chain-revoked-ancestor-001")),
  (ofString "hops", .list grantHops),
  (ofString "leaf_action_ref", .str (ofString "29e7c1a981d7e902cf94164f18bdfad2e7858621937dce143a51e9bc34db23f8")),
  (ofString "root_delegator", .str (ofString "giskard-self")), (ofString "scope", .str (ofString "mycelium:payment")),
  (ofString "version", .str (ofString "delegation-chain-ref-v1"))]

/-- The baseline vector of the repository. -/
def grantVector : Json := .dict [(ofString "chain_artifact", grantChain),
  (ofString "delegation_chain_ref",
    .str (ofString "02aa006af1b093370f5baa0ada9e33f7591a04911a6d5cc837e0de399efd9e55")),
  (ofString "leaf_preimage", strings [("agent_id", "soma-agent"), ("action_type", "payment.route"),
    ("scope", "mycelium:payment"), ("timestamp", "2026-09-01T12:00:00.000Z")])]

/-- A revocation of the hop that the leaf action is executed under. -/
def leafRevocation : Revocation where
  version := .str (ofString "revocation-ref-v1")
  revokedActionRef := some (.str (ofString "6a09fa302daa05f875aeee1f54463a1e6eae5c3d2ceb1075ae8c66043ba2f8a2"))

def valid? : Except PyError ModelVerdict → Option Bool
  | .ok answer => some answer.valid
  | .error _ => none

/-- The leaf action of a revoked hop passes where that hop is the last. -/
theorem not_noRevokedPass_leaf : ¬ NoRevokedPass (fun _ _ _ => false) grantVector [leafRevocation] := by
  rintro ⟨valid, _, _⟩
  have passes : valid? (verdict (fun _ _ _ => false) grantVector [leafRevocation] (ofString "7.5")) = some true := by
    decide +kernel
  cases judged : verdict (fun _ _ _ => false) grantVector [leafRevocation] (ofString "7.5") with
  | error raised =>
      rw [judged] at passes
      cases passes
  | ok answer =>
      rw [judged] at passes
      have free := (valid.mp ⟨answer, judged, Option.some.inj passes⟩).2
      refine free grantHops ⟨grantChain, rfl, rfl⟩ 2 ⟨_, _, rfl, rfl, leafRevocation, List.mem_cons_self, _, rfl, ?_⟩
      decide +kernel

end Argentum.Delegation
