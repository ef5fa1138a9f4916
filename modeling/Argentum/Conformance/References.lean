import Argentum.Core.Methods
import Argentum.Conformance.Delegation

/-! What the verifiers of references share: a field of the vector is compared with what the
verifier computes, and a reference is compared with the digest of what it refers to. -/
namespace Argentum.References
open Delegation

/-- `value.get(name, default)`, where it differs from what was computed. -/
def declaredApart (value : Json) (name : Str) (default computed : Json) : Except PyError (Option Json) := do
  let declared ← value.fetchD name default
  return if computed.eq declared then none else some declared

/-- The failure of a reference that is declared apart from the digest. -/
def refFailures {φ : Type} (vector : Json) (name computedRef : Str) (failure : Json → φ) :
    Except PyError (List φ) := do
  return (← declaredApart vector name (.str []) (.str computedRef)).toList.map failure

/-- A verifier returns `True`. -/
def Passes {φ : Type} (verified : Except PyError (Bool × List φ)) : Prop := ∃ failures, verified = .ok (true, failures)

instance {φ : Type} (verified : Except PyError (Bool × List φ)) : Decidable (Passes verified) :=
  match verified with
  | .ok (true, failures) => .isTrue ⟨failures, rfl⟩
  | .ok (false, _) => .isFalse fun ⟨_, same⟩ => nomatch same
  | .error _ => .isFalse fun ⟨_, same⟩ => nomatch same

section
variable {value default computed : Json} {name text ref : Str}

theorem declaredApart_none_iff : declaredApart value name default computed = .ok none ↔
    value.isDict = true ∧ computed.eq (value.getD name default) = true := by
  rw [declaredApart, bind_ok_iff]
  constructor
  · rintro ⟨declared, read, same⟩
    obtain ⟨object, rfl⟩ := Json.fetchD_ok_iff.mp read
    refine ⟨object, ?_⟩
    by_contra apart
    rw [if_neg apart] at same
    cases same
  · rintro ⟨object, same⟩
    exact ⟨_, Json.fetchD_of_isDict object _ _, by rw [if_pos same]; rfl⟩

theorem sha256hex_ne_nil (hashed : sha256hex text = .ok ref) : ref ≠ [] := by
  obtain ⟨bytes, _, digest⟩ := bind_ok hashed
  rw [← Except.ok.inj digest]
  intro empty
  have length := Text.length_hexOf (Sha256.sha256 bytes)
  rw [empty, Sha256.length_sha256] at length
  cases length

/-- A declared reference is the digest. An absent one is the empty text, which is no digest. -/
theorem ref_declared_iff (hashed : sha256hex text = .ok ref) :
    declaredApart value name (.str []) (.str ref) = .ok none ↔ value.get name = .str ref := by
  rw [declaredApart_none_iff, Json.str_eq, Json.getD_str_iff (sha256hex_ne_nil hashed)]
  exact and_iff_right_of_imp fun declared => Json.isDict_of_get (Json.ne_null_of_eq declared rfl)

/-- A flag that is declared one way or the other and counts as true is true: where it is there,
neither default is used. -/
theorem declared_true {checks flag : Str} {declared : Bool} (there : (value.get checks).get flag = .bool declared)
    (counts : ((value.getD checks (.dict [])).getD flag (.bool false)).truthy = true) :
    (value.get checks).get flag = .bool true := by
  have flagged := Json.ne_null_of_eq there rfl
  have present := Json.ne_null_of_isDict (Json.isDict_of_get flagged)
  rw [Json.getD_eq_get present, Json.getD_eq_get flagged, there] at counts
  rw [there]
  exact congrArg Json.bool counts

theorem refFailures_nil_iff {φ : Type} {failure : Json → φ} (hashed : sha256hex text = .ok ref) :
    refFailures value name ref failure = .ok [] ↔ value.get name = .str ref := by
  rw [← ref_declared_iff hashed, refFailures, bind_ok_iff]
  constructor
  · rintro ⟨apart, compared, clean⟩
    cases apart with
    | none => exact compared
    | some declared => cases clean
  · exact fun same => ⟨none, same, rfl⟩

end
end Argentum.References
