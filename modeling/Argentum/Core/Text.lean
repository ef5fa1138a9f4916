import Mathlib.Data.List.Lex
import Mathlib.Order.Fin.Basic

/-! Text as code points, and two byte encodings of it. A lone surrogate is a code
point like any other, and has no UTF-8. Encoded code points are self-delimiting,
so UTF-8 is injective; hexadecimal text reads back as the bytes it was made of. -/
namespace Argentum

abbrev CodePoint := Fin 0x110000

abbrev Str := List CodePoint

abbrev Byte := Fin 256

abbrev Bytes := List Byte

instance neZero_codePoints : @NeZero Nat Zero.ofOfNat0 0x110000 := Nat.instNeZeroSucc

instance lawfulBEq_codePoints : @LawfulBEq CodePoint instBEqOfDecidableEq := inferInstance

instance neZero_bytes : @NeZero Nat Zero.ofOfNat0 256 := Nat.instNeZeroSucc

namespace Text

def ofChar (c : Char) : CodePoint :=
  ⟨c.toNat, by
    have valid := c.valid
    simp only [UInt32.isValidChar, Nat.isValidChar] at valid
    unfold Char.toNat
    omega⟩

/-- `0` to `9`. -/
def isDigit (c : CodePoint) : Bool := 48 ≤ c.val && c.val ≤ 57

/-- A literal of the source. -/
def ofString (literal : String) : Str := literal.toList.map ofChar

/-- Text as Unicode characters; a lone surrogate is not one. -/
def toString? (s : Str) : Option String :=
  (s.mapM fun c : CodePoint => if c.val.isValidChar then some (Char.ofNat c.val) else none).map String.ofList

theorem ofString_of_toString? {s : Str} {text : String} (shown : toString? s = some text) : ofString text = s := by
  obtain ⟨chars, read, rfl⟩ := Option.map_eq_some_iff.mp shown
  clear shown
  rw [ofString, String.toList_ofList]
  induction s generalizing chars with
  | nil =>
      cases read
      rfl
  | cons c rest ih =>
      rw [List.mapM_cons] at read
      obtain ⟨char, first, read⟩ := Option.bind_eq_some_iff.mp read
      obtain ⟨others, later, read⟩ := Option.bind_eq_some_iff.mp read
      cases read
      split at first
      · rename_i valid
        cases first
        rw [List.map_cons, ih others later]
        congr 1
        apply Fin.ext
        change (Char.ofNat c.val).toNat = c.val
        rw [Char.ofNat, dif_pos valid]
        rfl
      · cases first

/-- The white space of `str.strip()`. -/
def isUnicodeSpace (c : CodePoint) : Bool :=
  (9 ≤ c.val && c.val ≤ 13) || (28 ≤ c.val && c.val ≤ 32) || (0x2000 ≤ c.val && c.val ≤ 0x200A) ||
    c.val ∈ [0x85, 0xA0, 0x1680, 0x2028, 0x2029, 0x202F, 0x205F, 0x3000]

/-- `s.strip()`. -/
def strip (s : Str) : Str := ((s.dropWhile isUnicodeSpace).reverse.dropWhile isUnicodeSpace).reverse

def byte (n : Nat) : Byte := Fin.ofNat 256 n

/-- UTF-8 of one code point; a surrogate has none. -/
def utf8Char (c : CodePoint) : Option Bytes :=
  if c.val < 0x80 then some [byte c.val]
  else if c.val < 0x800 then some [byte (0xC0 + c.val / 64), byte (0x80 + c.val % 64)]
  else if 0xD800 ≤ c.val ∧ c.val ≤ 0xDFFF then none
  else if c.val < 0x10000 then
    some [byte (0xE0 + c.val / 4096), byte (0x80 + c.val / 64 % 64), byte (0x80 + c.val % 64)]
  else
    some [byte (0xF0 + c.val / 262144), byte (0x80 + c.val / 4096 % 64),
      byte (0x80 + c.val / 64 % 64), byte (0x80 + c.val % 64)]

def utf8 : Str → Option Bytes
  | [] => some []
  | c :: rest => do
      let head ← utf8Char c
      let tail ← utf8 rest
      return head ++ tail

/-- The code point that starts a UTF-8 text, and the bytes after it. -/
def utf8Head : Bytes → Option (Nat × Bytes)
  | a :: rest =>
      if a.val < 0x80 then some (a.val, rest)
      else if a.val < 0xE0 then
        match rest with
        | b :: rest => some (a.val % 32 * 64 + b.val % 64, rest)
        | _ => none
      else if a.val < 0xF0 then
        match rest with
        | b :: c :: rest => some (a.val % 16 * 4096 + b.val % 64 * 64 + c.val % 64, rest)
        | _ => none
      else
        match rest with
        | b :: c :: d :: rest =>
            some (a.val % 8 * 262144 + b.val % 64 * 4096 + c.val % 64 * 64 + d.val % 64, rest)
        | _ => none
  | [] => none

theorem val_byte {n : Nat} (small : n < 256) : (byte n).val = n := by
  simp [byte, Fin.ofNat, Nat.mod_eq_of_lt small]

theorem utf8Head_utf8Char {c : CodePoint} {x r : Bytes} (encoded : utf8Char c = some x) :
    utf8Head (x ++ r) = some (c.val, r) := by
  have range := c.isLt
  unfold utf8Char at encoded
  split at encoded
  · rename_i small
    cases encoded
    simp only [List.cons_append, List.nil_append, utf8Head]
    rw [val_byte (by omega), if_pos small]
  split at encoded
  · cases encoded
    simp only [List.cons_append, List.nil_append, utf8Head]
    rw [val_byte (by omega), val_byte (by omega), if_neg (by omega), if_pos (by omega),
      Option.some.injEq, Prod.mk.injEq]
    exact ⟨by omega, rfl⟩
  split at encoded
  · contradiction
  split at encoded
  · cases encoded
    simp only [List.cons_append, List.nil_append, utf8Head]
    rw [val_byte (by omega), val_byte (by omega), val_byte (by omega), if_neg (by omega),
      if_neg (by omega), if_pos (by omega), Option.some.injEq, Prod.mk.injEq]
    exact ⟨by omega, rfl⟩
  · cases encoded
    simp only [List.cons_append, List.nil_append, utf8Head]
    rw [val_byte (by omega), val_byte (by omega), val_byte (by omega), val_byte (by omega),
      if_neg (by omega), if_neg (by omega), if_neg (by omega), Option.some.injEq, Prod.mk.injEq]
    exact ⟨by omega, rfl⟩

theorem utf8_cons {c : CodePoint} {rest : Str} {bytes : Bytes} (encoded : utf8 (c :: rest) = some bytes) :
    ∃ head tail, utf8Char c = some head ∧ utf8 rest = some tail ∧ bytes = head ++ tail := by
  simp only [utf8, Option.bind_eq_bind, Option.bind_eq_some_iff] at encoded
  obtain ⟨head, first, tail, later, joined⟩ := encoded
  exact ⟨head, tail, first, later, (Option.some.inj joined).symm⟩

theorem utf8Char_ne_nil (c : CodePoint) : utf8Char c ≠ some [] := by
  intro empty
  have decoded := utf8Head_utf8Char (r := []) empty
  simp [utf8Head] at decoded

theorem utf8_injective {s t : Str} {bytes : Bytes} (first : utf8 s = some bytes)
    (second : utf8 t = some bytes) : s = t := by
  induction s generalizing t bytes with
  | nil =>
      cases first
      cases t with
      | nil => rfl
      | cons d rest =>
          obtain ⟨head, tail, encoded, _, joined⟩ := utf8_cons second
          obtain ⟨rfl, _⟩ := List.append_eq_nil_iff.mp joined.symm
          exact absurd encoded (utf8Char_ne_nil d)
  | cons c rest ih =>
      obtain ⟨head, tail, encoded, later, rfl⟩ := utf8_cons first
      cases t with
      | nil =>
          have empty : head ++ tail = [] := (Option.some.inj second).symm
          obtain ⟨rfl, _⟩ := List.append_eq_nil_iff.mp empty
          exact absurd encoded (utf8Char_ne_nil c)
      | cons d others =>
          obtain ⟨head', tail', encoded', later', joined⟩ := utf8_cons second
          have decoded := utf8Head_utf8Char (r := tail) encoded
          rw [joined, utf8Head_utf8Char encoded', Option.some.injEq, Prod.mk.injEq] at decoded
          obtain ⟨same, rfl⟩ := decoded
          rw [Fin.ext same, ih later later']

/-- UTF-16 code units, high byte first; a lone surrogate passes as it stands. -/
def utf16be : Str → Bytes
  | [] => []
  | c :: rest =>
      if c.val < 0x10000 then byte (c.val / 256) :: byte (c.val % 256) :: utf16be rest
      else
        let high := 0xD800 + (c.val - 0x10000) / 0x400
        let low := 0xDC00 + (c.val - 0x10000) % 0x400
        byte (high / 256) :: byte (high % 256) :: byte (low / 256) :: byte (low % 256) :: utf16be rest

/-- One lowercase hexadecimal digit. -/
def hexDigit (n : Fin 16) : CodePoint :=
  if n.val < 10 then Fin.ofNat 0x110000 (48 + n.val) else Fin.ofNat 0x110000 (87 + n.val)

def hexOf : Bytes → Str
  | [] => []
  | b :: rest => hexDigit ⟨b.val / 16, by omega⟩ :: hexDigit ⟨b.val % 16, by omega⟩ :: hexOf rest

def digitValue? (c : CodePoint) : Option (Fin 16) :=
  if 48 ≤ c.val ∧ c.val ≤ 57 then some (Fin.ofNat 16 (c.val - 48))
  else if 97 ≤ c.val ∧ c.val ≤ 102 then some (Fin.ofNat 16 (c.val - 87))
  else if 65 ≤ c.val ∧ c.val ≤ 70 then some (Fin.ofNat 16 (c.val - 55))
  else none

def isSpace (c : CodePoint) : Bool := (9 ≤ c.val && c.val ≤ 13) || c.val == 32

/-- Pairs of hexadecimal digits, with ASCII white space allowed before each pair. -/
def fromhex : Str → Option Bytes
  | [] => some []
  | [c] => if isSpace c then some [] else none
  | c :: d :: rest =>
      if isSpace c then fromhex (d :: rest)
      else
        match digitValue? c, digitValue? d with
        | some high, some low => (fromhex rest).map (byte (16 * high.val + low.val) :: ·)
        | _, _ => none

theorem digitValue?_hexDigit : ∀ n : Fin 16, digitValue? (hexDigit n) = some n := by decide

theorem isSpace_hexDigit : ∀ n : Fin 16, isSpace (hexDigit n) = false := by decide

theorem hexOf_digits (bytes : Bytes) : ∀ c ∈ hexOf bytes, ∃ n, c = hexDigit n := by
  induction bytes with
  | nil => simp [hexOf]
  | cons b rest ih =>
      intro c member
      simp only [hexOf, List.mem_cons] at member
      rcases member with rfl | rfl | member
      · exact ⟨_, rfl⟩
      · exact ⟨_, rfl⟩
      · exact ih c member

@[simp] theorem length_hexOf (bytes : Bytes) : (hexOf bytes).length = 2 * bytes.length := by
  induction bytes with
  | nil => rfl
  | cons b rest ih =>
      simp only [hexOf, List.length_cons, ih]
      omega

@[simp] theorem fromhex_hexOf (bytes : Bytes) : fromhex (hexOf bytes) = some bytes := by
  induction bytes with
  | nil => rfl
  | cons b rest ih =>
      have joined : byte (16 * (b.val / 16) + b.val % 16) = b := by
        apply Fin.ext
        rw [val_byte (by omega)]
        omega
      simp only [hexOf, fromhex, isSpace_hexDigit, Bool.false_eq_true, if_false,
        digitValue?_hexDigit, ih, Option.map_some, joined]

theorem hexOf_injective {first second : Bytes} (same : hexOf first = hexOf second) : first = second := by
  have decoded := fromhex_hexOf first
  rw [same, fromhex_hexOf] at decoded
  exact (Option.some.inj decoded).symm

end Text
end Argentum
