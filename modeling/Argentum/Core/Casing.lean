import Argentum.Core.Text

/-! `str.lower()`: the full lower case of a text. A capital sigma that ends a word has one
of its own, so the text around a character counts; where it is known not to, the lower
case of a text is made of those of its parts. -/
namespace Argentum
open Text

namespace Text

def isAsciiLetter (c : CodePoint) : Bool := (65 ≤ c.val && c.val ≤ 90) || (97 ≤ c.val && c.val ≤ 122)

def lowerAscii (c : CodePoint) : CodePoint := if 65 ≤ c.val && c.val ≤ 90 then Fin.ofNat 0x110000 (c.val + 32) else c

/-- A character of ASCII that is no letter. -/
def IsSymbol (c : CodePoint) : Prop := c.val < 128 ∧ isAsciiLetter c = false

instance (c : CodePoint) : Decidable (IsSymbol c) := inferInstanceAs (Decidable (_ ∧ _))

theorem val_lowerAscii (c : CodePoint) :
    (lowerAscii c).val = if 65 ≤ c.val ∧ c.val ≤ 90 then c.val + 32 else c.val := by
  by_cases upper : 65 ≤ c.val ∧ c.val ≤ 90
  · have short : c.val + 32 < 0x110000 := by omega
    rw [lowerAscii, if_pos (by simpa using upper), if_pos upper]
    exact Nat.mod_eq_of_lt short
  · rw [lowerAscii, if_neg (by simpa using upper), if_neg upper]

theorem lowerAscii_lowerAscii (c : CodePoint) : lowerAscii (lowerAscii c) = lowerAscii c := by
  apply Fin.ext
  rw [val_lowerAscii (lowerAscii c)]
  refine if_neg ?_
  rw [val_lowerAscii]
  split <;> omega

def capitalSigma : CodePoint := 0x3A3

end Text

/-- The tables of a version of Unicode that `str.lower()` reads, with what every version keeps. -/
structure Casing where
  lowerChar : CodePoint → Str
  cased : CodePoint → Bool
  ignorable : CodePoint → Bool
  lowerChar_ascii : ∀ c, c.val < 128 → lowerChar c = [lowerAscii c]
  cased_ascii : ∀ c, c.val < 128 → cased c = isAsciiLetter c
  /-- The apostrophe, the point, the colon, the circumflex and the grave accent. -/
  ignorable_ascii : ∀ c, c.val < 128 → ignorable c = decide (c.val ∈ [39, 46, 58, 94, 96])
  lowerChar_ne_nil : ∀ c, lowerChar c ≠ []
  /-- A lower case is its own lower case. -/
  stable : ∀ c, ∀ d ∈ lowerChar c, d ≠ capitalSigma ∧ lowerChar d = [d]
  /-- No other character has a lower case with a symbol of ASCII in it. -/
  symbols : ∀ c, ∀ d ∈ lowerChar c, IsSymbol d → d = c
  small_sigma : lowerChar 0x3C3 = [0x3C3]
  final_sigma : lowerChar 0x3C2 = [0x3C2]

namespace Casing
variable (casing : Casing)

/-- A cased character comes first, but for characters that do not count. -/
def followed : Str → Bool
  | [] => false
  | c :: rest => if casing.ignorable c then followed rest else casing.cased c

/-- A cased character comes last, after a text of which this is known. -/
def after (before : Bool) (c : CodePoint) : Bool := if casing.ignorable c then before else casing.cased c

def lowerFrom : Bool → Str → Str
  | _, [] => []
  | before, c :: rest =>
      (if c = capitalSigma then [if before && !casing.followed rest then 0x3C2 else 0x3C3] else casing.lowerChar c) ++
        lowerFrom (casing.after before c) rest

/-- `s.lower()` -/
def lower (s : Str) : Str := casing.lowerFrom false s

/-- A character that ends every word. -/
def Ends (c : CodePoint) : Prop := casing.ignorable c = false ∧ casing.cased c = false

section
variable {casing} {before : Bool} {c : CodePoint} {s t u : Str}

theorem lowerFrom_cons (plain : c ≠ capitalSigma) :
    casing.lowerFrom before (c :: s) = casing.lowerChar c ++ casing.lowerFrom (casing.after before c) s := by
  rw [lowerFrom, if_neg plain]

theorem ascii_ne_sigma (ascii : c.val < 128) : c ≠ capitalSigma := by
  rintro rfl
  exact absurd ascii (by decide)

theorem Ends.after (ends : casing.Ends c) : casing.after before c = false := by
  rw [Casing.after, ends.1, if_neg Bool.false_ne_true, ends.2]

theorem Ends.followed (ends : casing.Ends c) : casing.followed (c :: s) = false := by
  rw [Casing.followed, ends.1, if_neg Bool.false_ne_true, ends.2]

/-- What a lower case consists of: small sigmas, and the lower case of characters. -/
theorem mem_lowerFrom (member : c ∈ casing.lowerFrom before s) :
    (c = 0x3C2 ∨ c = 0x3C3) ∨ ∃ d ∈ s, c ∈ casing.lowerChar d := by
  induction s generalizing before with
  | nil => cases member
  | cons d rest ih =>
      rw [lowerFrom, List.mem_append] at member
      rcases member with here | later
      · split at here
        · rw [List.mem_singleton] at here
          subst here
          split
          · exact Or.inl (Or.inl rfl)
          · exact Or.inl (Or.inr rfl)
        · exact Or.inr ⟨d, List.mem_cons_self, here⟩
      · exact (ih later).imp_right fun ⟨own, inside, made⟩ => ⟨own, List.mem_cons_of_mem d inside, made⟩

theorem stable_of_mem (member : c ∈ casing.lowerFrom before s) :
    c ≠ capitalSigma ∧ casing.lowerChar c = [c] := by
  rcases mem_lowerFrom member with (rfl | rfl) | ⟨d, _, made⟩
  · exact ⟨by decide, casing.final_sigma⟩
  · exact ⟨by decide, casing.small_sigma⟩
  · exact casing.stable d c made

theorem lowerFrom_of_stable (stable : ∀ d ∈ s, d ≠ capitalSigma ∧ casing.lowerChar d = [d]) :
    casing.lowerFrom before s = s := by
  induction s generalizing before with
  | nil => rfl
  | cons d rest ih =>
      obtain ⟨plain, same⟩ := stable d List.mem_cons_self
      rw [lowerFrom_cons plain, same, ih fun c member => stable c (List.mem_cons_of_mem d member)]
      rfl

end

/-- The tables of ASCII and the sigma; of the rest, no character has a case. -/
def ascii : Casing where
  lowerChar c := if c = capitalSigma then [0x3C3] else [lowerAscii c]
  cased := isAsciiLetter
  ignorable c := decide (c.val ∈ [39, 46, 58, 94, 96])
  lowerChar_ascii c small := if_neg (ascii_ne_sigma small)
  cased_ascii _ _ := rfl
  ignorable_ascii _ _ := rfl
  lowerChar_ne_nil c := by split <;> simp
  stable c d member := by
    split at member
    · obtain rfl := List.mem_singleton.mp member
      exact ⟨by decide, by decide⟩
    · rename_i plain
      obtain rfl := List.mem_singleton.mp member
      have apart : lowerAscii c ≠ capitalSigma := by
        intro same
        have value := congrArg Fin.val same
        rw [val_lowerAscii] at value
        split at value
        · change c.val + 32 = 0x3A3 at value
          omega
        · exact plain (Fin.ext value)
      exact ⟨apart, by rw [if_neg apart, lowerAscii_lowerAscii]⟩
  symbols c d member symbol := by
    split at member
    · obtain rfl := List.mem_singleton.mp member
      exact absurd symbol.1 (by decide)
    · obtain rfl := List.mem_singleton.mp member
      apply Fin.ext
      have value := val_lowerAscii c
      split at value
      · have letter := symbol.2
        simp only [isAsciiLetter, Bool.or_eq_false_iff, Bool.and_eq_false_iff, decide_eq_false_iff_not] at letter
        omega
      · exact value
  small_sigma := by decide
  final_sigma := by decide

end Casing
end Argentum
