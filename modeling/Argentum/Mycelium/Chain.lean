import Argentum.Mycelium.Record
import Mathlib.Data.List.Infix

/-! `verify_chain`: from a trail up its parents to the one that has none. The rows may
name each other in any way, themselves included; the visited set ends every walk. An
empty text is no parent and no delegation. -/
namespace Argentum.Mycelium
open Argentum Text

def getTrailById (trails : Table TrailRow) (trailId : String) : Option TrailRow := trails.find? trailId

/-- A text that counts as one in a condition. -/
def given (text : Option String) : Option String := text.filter (· ≠ "")

/-- The text of a TEXT column, with the print of SQLite for its floats. -/
def Cell.read (printFloat : Float64 → String) : Cell → String
  | .text s => s
  | .real x => printFloat x

def TrailRow.parent? (row : TrailRow) : Option String := given row.parentTrailId

def TrailRow.delegation? (printFloat : Float64 → String) (row : TrailRow) : Option String :=
  given (row.delegationRef.map (Cell.read printFloat))

inductive ChainReason where
  | cycleDetected
  | trailNotFound
  | missingSignatureRef
  | delegationRefParentMismatch
  deriving DecidableEq

inductive NegotiationLinkage where
  | absent
  | present
  | malformed
  deriving DecidableEq

structure ChainResult where
  valid : Bool
  brokenAt : Option String
  reason : Option ChainReason
  negotiationLinkage : Option NegotiationLinkage
  negotiationRefStatus : Option String
  deriving DecidableEq

def negotiationLinkage (printFloat : Float64 → String) : Option TrailRow → Option NegotiationLinkage
  | none => none
  | some target =>
      match target.negotiationRef with
      | none => some .absent
      | some raw => if raw.read printFloat = "" then some .malformed else some .present

/-- The delegation does not contain the parent, where a row has both. -/
def TrailRow.mismatched (printFloat : Float64 → String) (row : TrailRow) : Bool :=
  match row.parent?, row.delegation? printFloat with
  | some parent, some delegation => !decide (parent.toList <:+: delegation.toList)
  | _, _ => false

/-- The loop of `verify_chain`, for as long as the fuel lasts: where it breaks and why, if it does. -/
def walkChain (printFloat : Float64 → String) (trails : Table TrailRow) :
    Nat → List String → Option String → Option (Option (String × ChainReason))
  | 0, _, _ => none
  | fuel + 1, visited, currentId =>
      match given currentId with
      | none => some none
      | some id =>
          if id ∈ visited then some (some (id, .cycleDetected))
          else
            match getTrailById trails id with
            | none => some (some (id, .trailNotFound))
            | some trail =>
                if trail.signatureRef = "" then some (some (id, .missingSignatureRef))
                else if trail.mismatched printFloat then some (some (id, .delegationRefParentMismatch))
                else walkChain printFloat trails fuel (id :: visited) trail.parentTrailId

def verifyChain (printFloat : Float64 → String) (fuel : Nat) (trails : Table TrailRow) (trailId : String) :
    Option ChainResult := do
  let target := getTrailById trails trailId
  let broken ← walkChain printFloat trails fuel [] (some trailId)
  return { valid := broken.isNone, brokenAt := broken.map Prod.fst, reason := broken.map Prod.snd
           negotiationLinkage := negotiationLinkage printFloat target
           negotiationRefStatus := target.bind TrailRow.negotiationRefStatus }

/-- The node that `n` parents up is, which may not be there. -/
def ancestor (trails : Table TrailRow) (trailId : String) : Nat → Option String
  | 0 => some trailId
  | n + 1 => (ancestor trails trailId n).bind fun id => (trails.find? id).bind TrailRow.parent?

/-- A row is signed, and its delegation contains its parent where it has both. -/
structure TrailRow.Sound (printFloat : Float64 → String) (row : TrailRow) : Prop where
  signed : row.signatureRef ≠ ""
  delegated : ∀ parent delegation, row.parent? = some parent → row.delegation? printFloat = some delegation →
    parent.toList <:+: delegation.toList

/-- The walk from a trail ends at a row without a parent, over rows that are there and sound. -/
def ReachesRoot (printFloat : Float64 → String) (trails : Table TrailRow) (trailId : String) : Prop :=
  ∃ n, (∀ m ≤ n, ∃ id row, ancestor trails trailId m = some id ∧ trails.find? id = some row ∧ row.Sound printFloat) ∧
    ancestor trails trailId (n + 1) = none

/-- The node `n` parents up fails for this reason. -/
def FailsAt (printFloat : Float64 → String) (trails : Table TrailRow) (trailId : String) (n : Nat) (id : String) :
    ChainReason → Prop
  | .cycleDetected => ∃ m < n, ancestor trails trailId m = some id
  | .trailNotFound => trails.find? id = none
  | .missingSignatureRef => ∃ row, trails.find? id = some row ∧ row.signatureRef = ""
  | .delegationRefParentMismatch => ∃ row parent delegation, trails.find? id = some row ∧ row.signatureRef ≠ "" ∧
      row.parent? = some parent ∧ row.delegation? printFloat = some delegation ∧
      ¬ parent.toList <:+: delegation.toList

section
variable {printFloat : Float64 → String} {trails : Table TrailRow} {trailId id : String} {row : TrailRow}
  {fuel n : Nat} {visited : List String} {reason : ChainReason}

theorem mismatched_iff : row.mismatched printFloat = true ↔ ∃ parent delegation,
    row.parent? = some parent ∧ row.delegation? printFloat = some delegation ∧
      ¬ parent.toList <:+: delegation.toList := by
  unfold TrailRow.mismatched
  split
  · rename_i parent delegation named delegated
    simp [named, delegated]
  · rename_i none
    constructor
    · intro impossible
      contradiction
    · rintro ⟨parent, delegation, named, delegated, _⟩
      exact absurd delegated (none parent delegation named)

/-- A node that does not fail has a sound row. -/
theorem sound_of_passes (passes : ∀ reason, ¬ FailsAt printFloat trails trailId n id reason) :
    ∃ row, trails.find? id = some row ∧ row.Sound printFloat := by
  cases found : trails.find? id with
  | none => exact absurd found (passes .trailNotFound)
  | some row =>
      have signed : row.signatureRef ≠ "" := fun unsigned => passes .missingSignatureRef ⟨row, found, unsigned⟩
      refine ⟨row, rfl, signed, fun parent delegation named delegated => ?_⟩
      by_contra apart
      exact passes .delegationRefParentMismatch ⟨row, parent, delegation, found, signed, named, delegated, apart⟩

theorem passes_of_sound (found : trails.find? id = some row) (sound : row.Sound printFloat)
    (unseen : ¬ ∃ m < n, ancestor trails trailId m = some id) : ¬ FailsAt printFloat trails trailId n id reason := by
  cases reason with
  | cycleDetected => exact unseen
  | trailNotFound =>
      intro missing
      rw [FailsAt, found] at missing
      contradiction
  | missingSignatureRef =>
      rintro ⟨other, foundToo, unsigned⟩
      obtain rfl := Option.some.inj (found.symm.trans foundToo)
      exact sound.signed unsigned
  | delegationRefParentMismatch =>
      rintro ⟨other, parent, delegation, foundToo, _, named, delegated, apart⟩
      obtain rfl := Option.some.inj (found.symm.trans foundToo)
      exact apart (sound.delegated parent delegation named delegated)

/-- The walk has visited the first `n` nodes and none has failed. -/
structure Walked (printFloat : Float64 → String) (trails : Table TrailRow) (trailId : String) (n : Nat)
    (visited : List String) : Prop where
  seen : ∀ id, id ∈ visited ↔ ∃ m < n, ancestor trails trailId m = some id
  distinct : visited.Nodup
  reached : ∀ m < n, ∃ id, ancestor trails trailId m = some id
  passed : ∀ m < n, ∀ id, ancestor trails trailId m = some id →
    ∀ reason, ¬ FailsAt printFloat trails trailId m id reason

theorem walked_zero : Walked printFloat trails trailId 0 [] :=
  ⟨by simp, List.nodup_nil, by simp, by simp⟩

theorem Walked.next (walked : Walked printFloat trails trailId n visited)
    (here : ancestor trails trailId n = some id) (unseen : id ∉ visited) (found : trails.find? id = some row)
    (sound : row.Sound printFloat) : Walked printFloat trails trailId (n + 1) (id :: visited) := by
  have fresh : ¬ ∃ m < n, ancestor trails trailId m = some id := fun earlier => unseen ((walked.seen id).mpr earlier)
  have split : ∀ m, m < n + 1 ↔ m = n ∨ m < n := by omega
  refine ⟨fun other => ?_, List.nodup_cons.mpr ⟨unseen, walked.distinct⟩, fun m earlier => ?_, fun m earlier => ?_⟩
  · simp only [List.mem_cons, walked.seen, split, or_and_right, exists_or, exists_eq_left, here, Option.some.injEq]
    rw [eq_comm]
  · rcases (split m).mp earlier with rfl | earlier
    · exact ⟨id, here⟩
    · exact walked.reached m earlier
  · rcases (split m).mp earlier with rfl | earlier
    · intro other same
      obtain rfl := Option.some.inj (here.symm.trans same)
      exact fun reason => passes_of_sound found sound fresh
    · exact walked.passed m earlier

/-- Only rows of the table have been visited, each once. -/
theorem Walked.length_le (walked : Walked printFloat trails trailId n visited) :
    visited.length ≤ trails.rows.length := by
  have inside : visited ⊆ trails.rows.map TrailRow.trailId := by
    intro id member
    obtain ⟨m, earlier, here⟩ := (walked.seen id).mp member
    obtain ⟨row, found, _⟩ := sound_of_passes (walked.passed m earlier id here)
    exact List.mem_map.mpr ⟨row, Table.find?_mem found, Table.find?_key found⟩
  have bound := (List.subperm_of_subset walked.distinct inside).length_le
  rwa [List.length_map] at bound

/-- How a walk ends: above the root, or at its first failing node. -/
def Ends (printFloat : Float64 → String) (trails : Table TrailRow) (trailId : String) :
    Option (String × ChainReason) → Prop
  | none => ∃ n visited, Walked printFloat trails trailId n visited ∧ ancestor trails trailId n = none
  | some (id, reason) => ∃ n visited, Walked printFloat trails trailId n visited ∧
      ancestor trails trailId n = some id ∧ FailsAt printFloat trails trailId n id reason

/-- The loop ends, within one step for each row not visited yet and one more. -/
theorem exists_walkChain {currentId : Option String} (walked : Walked printFloat trails trailId n visited)
    (here : given currentId = ancestor trails trailId n) (enough : trails.rows.length < fuel + visited.length) :
    ∃ broken, walkChain printFloat trails fuel visited currentId = some broken ∧
      Ends printFloat trails trailId broken := by
  induction fuel generalizing n visited currentId with
  | zero =>
      have bound := walked.length_le
      omega
  | succ fuel ih =>
      rw [walkChain, here]
      cases current : ancestor trails trailId n with
      | none => exact ⟨none, rfl, n, visited, walked, current⟩
      | some id =>
          dsimp only
          have fails : ∀ reason, FailsAt printFloat trails trailId n id reason →
              Ends printFloat trails trailId (some (id, reason)) :=
            fun reason failing => ⟨n, visited, walked, current, failing⟩
          split
          · rename_i seen
            exact ⟨_, rfl, fails _ ((walked.seen id).mp seen)⟩
          rename_i unseen
          split
          · rename_i missing
            exact ⟨_, rfl, fails .trailNotFound missing⟩
          rename_i row found
          split
          · rename_i unsigned
            exact ⟨_, rfl, fails _ ⟨row, found, unsigned⟩⟩
          rename_i signed
          split
          · rename_i mismatched
            obtain ⟨parent, delegation, named, delegated, apart⟩ := mismatched_iff.mp mismatched
            exact ⟨_, rfl, fails _ ⟨row, parent, delegation, found, signed, named, delegated, apart⟩⟩
          rename_i matched
          have sound : row.Sound printFloat := by
            refine ⟨signed, fun parent delegation named delegated => ?_⟩
            by_contra apart
            exact matched (mismatched_iff.mpr ⟨parent, delegation, named, delegated, apart⟩)
          refine ih (walked.next current unseen found sound) ?_ (by rw [List.length_cons]; omega)
          rw [ancestor, current]
          exact congrArg (fun found => Option.bind found TrailRow.parent?) found.symm

/-- From the same node the walk goes on the same way. -/
theorem ancestor_add {m k : Nat} (same : ancestor trails trailId m = ancestor trails trailId n) :
    ancestor trails trailId (m + k) = ancestor trails trailId (n + k) := by
  induction k with
  | zero => exact same
  | succ k ih => rw [← add_assoc, ← add_assoc, ancestor, ancestor, ih]

theorem ancestor_none {m : Nat} (ended : ancestor trails trailId n = none) (later : n ≤ m) :
    ancestor trails trailId m = none := by
  induction later with
  | refl => exact ended
  | step _ ih => rw [ancestor, ih, Option.bind_none]

theorem reachesRoot_iff {broken : Option (String × ChainReason)} (ends : Ends printFloat trails trailId broken) :
    broken = none ↔ ReachesRoot printFloat trails trailId := by
  cases broken with
  | none =>
      refine ⟨fun _ => ?_, fun _ => rfl⟩
      obtain ⟨n, visited, walked, ended⟩ := ends
      cases n with
      | zero => cases ended
      | succ n =>
          refine ⟨n, fun m before => ?_, ended⟩
          obtain ⟨id, here⟩ := walked.reached m (by omega)
          obtain ⟨row, found, sound⟩ := sound_of_passes (walked.passed m (by omega) id here)
          exact ⟨id, row, here, found, sound⟩
  | some failure =>
      obtain ⟨id, reason⟩ := failure
      refine ⟨fun impossible => (by cases impossible), fun reaches => ?_⟩
      obtain ⟨n, visited, walked, here, failing⟩ := ends
      obtain ⟨last, sound, ended⟩ := reaches
      have before : n ≤ last := by
        by_contra later
        rw [ancestor_none ended (by omega)] at here
        contradiction
      obtain ⟨same, row, hereToo, found, rowSound⟩ := sound n before
      obtain rfl := Option.some.inj (here.symm.trans hereToo)
      by_cases seen : ∃ m < n, ancestor trails trailId m = some id
      · -- a node met twice would be met for ever
        obtain ⟨m, earlier, first⟩ := seen
        have again := ancestor_add (k := last + 1 - n) (first.trans here.symm)
        rw [show n + (last + 1 - n) = last + 1 by omega, ended] at again
        obtain ⟨_, _, there, _⟩ := sound (m + (last + 1 - n)) (by omega)
        rw [again] at there
        contradiction
      · exact absurd failing (passes_of_sound found rowSound seen)

theorem chainVerified (printFloat : Float64 → String) (trails : Table TrailRow) (trailId : String) (fuel : Nat)
    (nonempty : trailId ≠ "") (enough : trails.rows.length < fuel) :
    ∃ result, verifyChain printFloat fuel trails trailId = some result ∧
      (result.valid = true ↔ ReachesRoot printFloat trails trailId) ∧
      (result.valid = true → result.brokenAt = none ∧ result.reason = none) ∧
      (result.valid = false → ∃ n id reason, result.brokenAt = some id ∧ result.reason = some reason ∧
        ancestor trails trailId n = some id ∧ FailsAt printFloat trails trailId n id reason ∧
        ∀ m < n, ∃ before, ancestor trails trailId m = some before ∧
          ∀ reason, ¬ FailsAt printFloat trails trailId m before reason) ∧
      (result.negotiationLinkage = none ↔ trails.find? trailId = none) := by
  have start : given (some trailId) = ancestor trails trailId 0 := by simp [given, ancestor, nonempty]
  have fueled : trails.rows.length < fuel + ([] : List String).length := by simpa using enough
  obtain ⟨broken, ran, ends⟩ := exists_walkChain walked_zero start fueled
  refine ⟨_, by rw [verifyChain, ran]; rfl, ?_, ?_, ?_, ?_⟩
  · rw [Option.isNone_iff_eq_none]
    exact reachesRoot_iff ends
  · intro valid
    rw [Option.isNone_iff_eq_none.mp valid]
    exact ⟨rfl, rfl⟩
  · intro invalid
    cases broken with
    | none => contradiction
    | some failure =>
        obtain ⟨n, visited, walked, here, failing⟩ := ends
        refine ⟨n, failure.1, failure.2, rfl, rfl, here, failing, fun m earlier => ?_⟩
        obtain ⟨before, there⟩ := walked.reached m earlier
        exact ⟨before, there, walked.passed m earlier before there⟩
  · change negotiationLinkage printFloat (trails.find? trailId) = none ↔ trails.find? trailId = none
    cases found : trails.find? trailId with
    | none => simp [negotiationLinkage]
    | some row =>
        simp only [negotiationLinkage]
        split
        · simp
        · split <;> simp

end

/-- Two trails that are each other's parent. -/
def loopTrails : Table TrailRow where
  rows := [("a", "b"), ("b", "a")].map fun (trailId, parent) =>
    { trailId, agentId := "agent", service := .text "oasis", operation := "enter", timestamp := 0
      signatureRef := "signed", scope := none, delegationRef := some (.text parent), negotiationRef := none
      negotiationRefStatus := none, origin := "internal", parentTrailId := some parent }
  unique := by decide

example : verifyChain (fun _ => "0.5") 3 loopTrails "a" =
    some ⟨false, some "a", some .cycleDetected, some .absent, none⟩ := by decide

theorem chainVerified_loop : ∃ result, verifyChain (fun _ => "0.5") 3 loopTrails "a" = some result ∧
    (result.valid = true ↔ ReachesRoot (fun _ => "0.5") loopTrails "a") := by
  obtain ⟨result, ran, valid, _⟩ := chainVerified (fun _ => "0.5") loopTrails "a" 3 (by decide) (by decide)
  exact ⟨result, ran, valid⟩

end Argentum.Mycelium
