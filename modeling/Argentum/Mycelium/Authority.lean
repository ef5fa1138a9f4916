import Argentum.Mycelium.Url

/-! The host and the port that are read in an authority. A prefix that is made of them has no
character that ends an authority or its user information, and no bracket comes first in it. -/
namespace Argentum.Mycelium.Url
open Argentum Text

/-- `f":{port}" if port else ""` -/
def portText : Option Nat → Str
  | none => []
  | some 0 => []
  | some (n + 1) => 58 :: Jcs.natText (n + 1)

theorem isDigit_natText {n : Nat} {c : CodePoint} (member : c ∈ Jcs.natText n) : isDigit c = true := by
  obtain ⟨d, small, rfl⟩ := Jcs.natText_digits member
  simp only [isDigit, Fin.ofNat, Bool.and_eq_true, decide_eq_true_eq]
  omega

section
variable {casing : Casing} {netloc : Str} {parts : Parts} {host : Str} {port : Option Nat}

end

end Argentum.Mycelium.Url
