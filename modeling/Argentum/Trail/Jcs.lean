import Argentum.Core.Json
import Argentum.Core.JsonText
import Argentum.Core.Recursion
import Mathlib.Data.List.Sort
import Mathlib.Data.List.DropRight
import Mathlib.Data.Nat.Digits.Defs

/-! Canonical JSON bytes, `jcs.py`: keys sorted by UTF-16 code units, numbers as
ECMAScript writes them, strings as literal UTF-8. Both of its functions recurse, and raise
`RecursionError` where a value is nested too deep for the stack. Two values with the same
bytes have the same text tree, so dictionaries with the same bytes agree on every key. -/
namespace Argentum

/-- The stack of the interpreter where `_canonicalize`, `_encode`, `json.dumps` and `==` are
called. It lasts for three containers that stand in each other, and for comparing a string. -/
class Interpreter where
  canonicalize : Recursion
  encode : Recursion
  dumps : Recursion
  comparison : Comparison
  room : ∀ value : Json, value.depth ≤ 3 → canonicalize.Admits value ∧ encode.Admits value ∧ dumps.Admits value
  compares : ∀ value s, comparison.frames value (.str s) ≤ comparison.left

namespace Jcs
open Text JsonText

mutual

def canonicalize : Json → Json
  | .list items => .list (canonicalizeAll items)
  | .dict items =>
      .dict ((canonicalizeItems items).insertionSort fun a b => utf16be a.1 ≤ utf16be b.1)
  | value => value
termination_by structural value => value

def canonicalizeAll : List Json → List Json
  | [] => []
  | item :: rest => canonicalize item :: canonicalizeAll rest
termination_by structural items => items

def canonicalizeItems : List (Str × Json) → List (Str × Json)
  | [] => []
  | (key, item) :: rest => (key, canonicalize item) :: canonicalizeItems rest
termination_by structural items => items

end

def natText (n : Nat) : Str :=
  if n = 0 then [48] else (Nat.digits 10 n).reverse.map fun d => Fin.ofNat 0x110000 (48 + d)

/-- `str(n)`. -/
def intText (n : Int) : Str := if n < 0 then 45 :: natText n.natAbs else natText n.natAbs

/-- `text.partition(sep)`, without the separator. -/
def partition (sep : CodePoint) (text : Str) : Str × Str :=
  (text.takeWhile (· ≠ sep), (text.dropWhile (· ≠ sep)).tail)

def digitsValue (text : Str) : Nat := text.foldl (fun n c => 10 * n + (c.val - 48)) 0

/-- `int(text)` on an optional sign and digits. -/
def intOf : Str → Int
  | 45 :: digits => -digitsValue digits
  | 43 :: digits => digitsValue digits
  | digits => digitsValue digits

/-- The digits and the decimal point position of `text = repr(abs(x))`, so that
the value is `0.<digits> * 10 ** position`. -/
def significand (text : Str) : Str × Int :=
  let (mantissa, expPart) := partition 101 text
  let exp : Int := if expPart = [] then 0 else intOf expPart
  let (intPart, fracPart) := partition 46 mantissa
  let rawDigits := intPart ++ fracPart
  let strippedLeading := rawDigits.dropWhile (· = 48)
  let leadingZeros := rawDigits.length - strippedLeading.length
  let stripped := strippedLeading.rdropWhile (· = 48)
  (if stripped = [] then [48] else stripped, (intPart.length : Int) - leadingZeros + exp)

/-- Fixed or exponent notation, by ECMAScript's thresholds. -/
def placeDigits (digits : Str) (n : Int) : Str :=
  if digits.length ≤ n ∧ n ≤ 21 then digits ++ List.replicate (n - digits.length).toNat 48
  else if 0 < n ∧ n ≤ 21 then digits.take n.toNat ++ 46 :: digits.drop n.toNat
  else if -6 < n ∧ n ≤ 0 then 48 :: 46 :: List.replicate (-n).toNat 48 ++ digits
  else
    (if digits.length = 1 then digits else digits.take 1 ++ 46 :: digits.drop 1) ++
      101 :: (if 0 ≤ n - 1 then [43] else []) ++ intText (n - 1)

def ecmaNumberString : Float64 → Except PyError Str
  | .nan => .error .valueError
  | .inf _ => .error .valueError
  | .finite negative text =>
      if nearestDouble text.decimal = 0 then .ok [48]
      else .ok ((if negative then [45] else []) ++
        placeDigits (significand text.text).1 (significand text.text).2)

mutual

/-- What `_encode` writes, with `ensure_ascii=False`. -/
def encode : Json → Except PyError Str
  | .null => .ok (ofString "null")
  | .bool true => .ok (ofString "true")
  | .bool false => .ok (ofString "false")
  | .str s => .ok (quote s)
  | .int n => if -(2 ^ 53 - 1) ≤ n ∧ n ≤ 2 ^ 53 - 1 then .ok (intText n) else .error .valueError
  | .float x => ecmaNumberString x
  | .dict items => do
      let texts ← encodeItems items
      return 123 :: join comma texts ++ [125]
  | .list items => do
      let texts ← encodeAll items
      return 91 :: join comma texts ++ [93]
termination_by structural value => value

def encodeAll : List Json → Except PyError (List Str)
  | [] => .ok []
  | item :: rest => do
      let text ← encode item
      let texts ← encodeAll rest
      return text :: texts
termination_by structural items => items

def encodeItems : List (Str × Json) → Except PyError (List Str)
  | [] => .ok []
  | (key, item) :: rest => do
      let text ← encode item
      let texts ← encodeItems rest
      return (quote key ++ colon :: text) :: texts
termination_by structural items => items

end

/-- `jcs_dumps` on a stack that lasts. -/
def boundlessDumps (value : Json) : Except PyError Str := encode (canonicalize value)

/-- `jcs_bytes` on a stack that lasts: a lone surrogate has no UTF-8 and raises
`UnicodeEncodeError`, a `ValueError`. -/
def boundlessBytes (value : Json) : Except PyError Bytes := do
  let text ← boundlessDumps value
  match utf8 text with
  | some bytes => .ok bytes
  | none => .error .valueError

section
variable {text other : Str} {p : CodePoint → Bool}

/-- Made of the characters of numbers and constants. -/
def Wordy (text : Str) : Prop := ∀ c ∈ text, wordChar c = true

theorem Wordy.append (first : Wordy text) (second : Wordy other) : Wordy (text ++ other) := by
  intro c member
  rcases List.mem_append.mp member with member | member
  · exact first c member
  · exact second c member

theorem Wordy.cons {c : CodePoint} (first : wordChar c = true) (rest : Wordy text) : Wordy (c :: text) :=
  List.forall_mem_cons.mpr ⟨first, rest⟩

theorem Wordy.sublist (wordy : Wordy text) (part : other.Sublist text) : Wordy other :=
  fun c member => wordy c (part.subset member)

theorem wordy_replicate (n : Nat) : Wordy (List.replicate n 48) := by
  intro c member
  rw [List.eq_of_mem_replicate member]
  rfl

theorem wordChar_digit {d : Nat} (small : d < 10) : wordChar (Fin.ofNat 0x110000 (48 + d)) = true := by
  simp only [wordChar, Fin.ofNat, Bool.or_eq_true, Bool.and_eq_true, decide_eq_true_eq]
  omega

theorem natText_ne_nil (n : Nat) : natText n ≠ [] := by
  unfold natText
  split
  · simp
  · rename_i positive
    simpa [Nat.digits_ne_nil_iff_ne_zero] using positive

theorem natText_digits {n : Nat} {c : CodePoint} (member : c ∈ natText n) :
    ∃ d, d < 10 ∧ c = Fin.ofNat 0x110000 (48 + d) := by
  unfold natText at member
  split at member
  · exact ⟨0, by omega, List.mem_singleton.mp member⟩
  · obtain ⟨d, digit, rfl⟩ := List.mem_map.mp member
    exact ⟨d, Nat.digits_lt_base (by omega) (List.mem_reverse.mp digit), rfl⟩

theorem wordy_natText (n : Nat) : Wordy (natText n) := by
  intro c member
  obtain ⟨d, small, rfl⟩ := natText_digits member
  exact wordChar_digit small

theorem wordy_intText (n : Int) : Wordy (intText n) := by
  unfold intText
  split
  · exact (wordy_natText _).cons rfl
  · exact wordy_natText _

theorem intText_ne_nil (n : Int) : intText n ≠ [] := by
  unfold intText
  split
  · simp
  · exact natText_ne_nil _

theorem intText_lt {n : Int} {c : CodePoint} (member : c ∈ intText n) : c.val < 58 := by
  have digits : ∀ m, c ∈ natText m → c.val < 58 := by
    intro m member
    obtain ⟨d, small, rfl⟩ := natText_digits member
    simp only [Fin.ofNat]
    omega
  unfold intText at member
  split at member
  · rcases List.mem_cons.mp member with rfl | member
    · decide
    · exact digits _ member
  · exact digits _ member

theorem digitsValue_natText (n : Nat) : digitsValue (natText n) = n := by
  unfold natText
  split
  · rename_i zero
    rw [zero]
    rfl
  · have value : ∀ digits : List Nat, (∀ d ∈ digits, d < 10) →
        digitsValue (digits.reverse.map fun d => Fin.ofNat 0x110000 (48 + d)) =
          Nat.ofDigits 10 digits := by
      intro digits small
      induction digits with
      | nil => rfl
      | cons d digits ih =>
          have least := small d List.mem_cons_self
          have rest := ih fun d member => small d (List.mem_cons_of_mem _ member)
          simp only [digitsValue, List.reverse_cons, List.map_append, List.foldl_append] at rest ⊢
          rw [rest, Nat.ofDigits_cons]
          simp only [List.map_cons, List.map_nil, List.foldl_cons, List.foldl_nil, Fin.ofNat]
          omega
    rw [value _ fun d member => Nat.digits_lt_base (by omega) member, Nat.ofDigits_digits]

/-- `int(str(n)) == n`. -/
theorem intOf_intText (n : Int) : intOf (intText n) = n := by
  unfold intText
  split
  · rw [intOf, digitsValue_natText]
    omega
  · have plain : intOf (natText n.natAbs) = digitsValue (natText n.natAbs) := by
      cases digits : natText n.natAbs with
      | nil => exact absurd digits (natText_ne_nil _)
      | cons c rest =>
          obtain ⟨d, small, rfl⟩ := natText_digits (digits ▸ List.mem_cons_self : c ∈ natText _)
          unfold intOf
          split
          · rename_i same
            have codes := congrArg Fin.val (List.head_eq_of_cons_eq same)
            simp only [Fin.ofNat] at codes
            omega
          · rename_i same
            have codes := congrArg Fin.val (List.head_eq_of_cons_eq same)
            simp only [Fin.ofNat] at codes
            omega
          · rfl
    rw [plain, digitsValue_natText]
    omega

theorem intText_injective {m n : Int} (same : intText m = intText n) : m = n := by
  rw [← intOf_intText m, same, intOf_intText]

theorem wordy_text (r : FloatRepr) : Wordy r.text := by
  have digits : ∀ ds : List (Fin 10), Wordy (ds.map FloatRepr.digitChar) := by
    intro ds c member
    obtain ⟨d, _, rfl⟩ := List.mem_map.mp member
    exact wordChar_digit d.isLt
  unfold FloatRepr.text
  refine ((digits _).append ?_).append ?_
  · split
    · simp [Wordy]
    · exact (digits _).cons rfl
  · split
    · simp [Wordy]
    · split
      · exact ((digits _).cons rfl).cons rfl
      · exact ((digits _).cons rfl).cons rfl

theorem partition_sublist (sep : CodePoint) (text : Str) :
    (partition sep text).1.Sublist text ∧ (partition sep text).2.Sublist text :=
  ⟨List.takeWhile_sublist _, (List.tail_sublist _).trans (List.dropWhile_sublist _)⟩

theorem wordy_significand (wordy : Wordy text) :
    Wordy (significand text).1 ∧ (significand text).1 ≠ [] := by
  obtain ⟨mantissa, _⟩ := partition_sublist 101 text
  obtain ⟨intPart, fracPart⟩ := partition_sublist 46 (partition 101 text).1
  have rawDigits := (wordy.sublist (intPart.trans mantissa)).append
    (wordy.sublist (fracPart.trans mantissa))
  have stripped : ∀ zeros : Str, Wordy zeros → Wordy (zeros.rdropWhile (· = 48)) :=
    fun zeros wordy => wordy.sublist (List.rdropWhile_prefix _ _).sublist
  simp only [significand]
  split
  · exact ⟨wordy_replicate 1, by simp⟩
  · rename_i full
    exact ⟨stripped _ (rawDigits.sublist (List.dropWhile_sublist _)), full⟩

theorem wordy_placeDigits (wordy : Wordy text) (full : text ≠ []) (n : Int) :
    Wordy (placeDigits text n) ∧ placeDigits text n ≠ [] := by
  have split : ∀ m : Nat, Wordy (text.take m ++ 46 :: text.drop m) := fun m =>
    (wordy.sublist (List.take_sublist m text)).append
      ((wordy.sublist (List.drop_sublist m text)).cons rfl)
  unfold placeDigits
  split
  · exact ⟨wordy.append (wordy_replicate _), by simp [full]⟩
  split
  · exact ⟨split _, by simp⟩
  split
  · exact ⟨(((wordy_replicate _).cons rfl).cons rfl).append wordy, by simp⟩
  · refine ⟨Wordy.append (Wordy.append ?_ (Wordy.cons rfl ?_)) (wordy_intText _), by simp⟩
    · split
      · exact wordy
      · exact split 1
    · split <;> simp [Wordy, wordChar]

theorem wordy_ecmaNumberString {x : Float64} (encoded : ecmaNumberString x = .ok text) :
    Wordy text ∧ text ≠ [] := by
  cases x with
  | nan | inf => contradiction
  | finite negative repr =>
      rw [ecmaNumberString] at encoded
      split at encoded
      · cases encoded
        exact ⟨wordy_replicate 1, by simp⟩
      · cases encoded
        obtain ⟨digits, full⟩ := wordy_significand (wordy_text repr)
        obtain ⟨placed, nonempty⟩ := wordy_placeDigits digits full (significand repr.text).2
        refine ⟨Wordy.append ?_ placed, by simp [nonempty]⟩
        split <;> simp [Wordy, wordChar]

end

def intWord (n : Int) : Word := ⟨intText n, intText_ne_nil n, wordy_intText n⟩

def nullWord : Word := ⟨ofString "null", by decide, List.all_eq_true.mp (by decide)⟩

def boolWord (b : Bool) : Word :=
  ⟨ofString (if b then "true" else "false"), by cases b <;> decide,
    List.all_eq_true.mp (by cases b <;> decide)⟩

/-- The word of a float; one that does not encode has some word. -/
def floatWord (x : Float64) : Word :=
  match encoded : ecmaNumberString x with
  | .ok text => ⟨text, (wordy_ecmaNumberString encoded).2, (wordy_ecmaNumberString encoded).1⟩
  | .error _ => nullWord

mutual

/-- What the text of a value says. -/
def tree : Json → Tree
  | .null => .word nullWord
  | .bool b => .word (boolWord b)
  | .int n => .word (intWord n)
  | .float x => .word (floatWord x)
  | .str s => .str s
  | .list items => .list (treeAll items)
  | .dict items => .dict (treeItems items)
termination_by structural value => value

def treeAll : List Json → List Tree
  | [] => []
  | item :: rest => tree item :: treeAll rest
termination_by structural items => items

def treeItems : List (Str × Json) → List (Str × Tree)
  | [] => []
  | (key, item) :: rest => (key, tree item) :: treeItems rest
termination_by structural items => items

end

theorem treeItems_eq_map (items : List (Str × Json)) :
    treeItems items = items.map fun item => (item.1, tree item.2) := by
  induction items with
  | nil => rfl
  | cons item rest ih => rw [treeItems, ih, List.map_cons]

theorem canonicalizeItems_eq_map (items : List (Str × Json)) :
    canonicalizeItems items = items.map fun item => (item.1, canonicalize item.2) := by
  induction items with
  | nil => rfl
  | cons item rest ih => rw [canonicalizeItems, ih, List.map_cons]

theorem canonicalizeAll_eq_map (items : List Json) : canonicalizeAll items = items.map canonicalize := by
  induction items with
  | nil => rfl
  | cons item others ih => rw [canonicalizeAll, ih, List.map_cons]

theorem encode_list (items : List Json) : encode (.list items) = (do
    let texts ← encodeAll items
    return 91 :: join comma texts ++ [93]) := rfl

theorem encode_dict (items : List (Str × Json)) : encode (.dict items) = (do
    let texts ← encodeItems items
    return 123 :: join comma texts ++ [125]) := rfl

theorem encodeAll_cons (item : Json) (rest : List Json) : encodeAll (item :: rest) = (do
    let text ← encode item
    let texts ← encodeAll rest
    return text :: texts) := rfl

theorem encodeAll_eq_mapOk (items : List Json) : encodeAll items = mapOk encode items := by
  induction items with
  | nil => rfl
  | cons item rest ih => rw [encodeAll_cons, mapOk, ih]

def encodeItem (item : Str × Json) : Except PyError Str := do
  let text ← encode item.2
  return quote item.1 ++ colon :: text

theorem encodeItems_cons (item : Str × Json) (rest : List (Str × Json)) : encodeItems (item :: rest) = (do
    let text ← encode item.2
    let texts ← encodeItems rest
    return (quote item.1 ++ colon :: text) :: texts) := rfl

theorem encodeItems_eq_mapOk (items : List (Str × Json)) : encodeItems items = mapOk encodeItem items := by
  induction items with
  | nil => rfl
  | cons item rest ih =>
      rw [encodeItems_cons, mapOk, ih, encodeItem]
      cases encode item.2 <;> rfl

theorem encodeAll_ok {items : List Json} {texts : List Str}
    (each : ∀ item ∈ items, ∀ text, encode item = .ok text → text = (tree item).print)
    (encoded : encodeAll items = .ok texts) : texts = printAll (treeAll items) := by
  induction items generalizing texts with
  | nil =>
      cases encoded
      rfl
  | cons item rest ih =>
      obtain ⟨text, first, encoded⟩ := bind_ok encoded
      obtain ⟨others, later, encoded⟩ := bind_ok encoded
      rw [← Except.ok.inj encoded, treeAll, printAll, each item List.mem_cons_self text first,
        ih (fun item member => each item (List.mem_cons_of_mem _ member)) later]

theorem encodeItems_ok {items : List (Str × Json)} {texts : List Str}
    (each : ∀ item ∈ items, ∀ text, encode item.2 = .ok text → text = (tree item.2).print)
    (encoded : encodeItems items = .ok texts) : texts = printItems (treeItems items) := by
  induction items generalizing texts with
  | nil =>
      cases encoded
      rfl
  | cons item rest ih =>
      obtain ⟨text, first, encoded⟩ := bind_ok encoded
      obtain ⟨others, later, encoded⟩ := bind_ok encoded
      rw [← Except.ok.inj encoded, treeItems, printItems, each item List.mem_cons_self text first,
        ih (fun item member => each item (List.mem_cons_of_mem _ member)) later]

theorem encode_ok (value : Json) : ∀ text, encode value = .ok text → text = (tree value).print := by
  induction value using Json.induct with
  | null =>
      rintro _ ⟨⟩
      rfl
  | bool b =>
      intro text encoded
      cases b <;> cases encoded <;> rfl
  | int n =>
      intro text encoded
      unfold encode at encoded
      split at encoded
      · cases encoded
        rfl
      · contradiction
  | float x =>
      intro text encoded
      have value : ecmaNumberString x = .ok text := encoded
      simp only [tree, Tree.print, floatWord]
      split
      · rename_i other same
        exact Except.ok.inj (value.symm.trans same)
      · rename_i raised
        rw [value] at raised
        contradiction
  | str s =>
      rintro _ ⟨⟩
      rfl
  | list items each =>
      intro text encoded
      obtain ⟨texts, inner, encoded⟩ := bind_ok encoded
      rw [← Except.ok.inj encoded, tree, Tree.print, encodeAll_ok each inner]
  | dict items each =>
      intro text encoded
      obtain ⟨texts, inner, encoded⟩ := bind_ok encoded
      rw [← Except.ok.inj encoded, tree, Tree.print, encodeItems_ok each inner]

/-- In another order the members of a value take the same frames. -/
theorem needs_canonicalize (r : Recursion) (value : Json) : ∀ n, r.needs (canonicalize value) ≤ n ↔ r.needs value ≤ n := by
  induction value using Json.induct with
  | null | bool | int | float | str => exact fun _ => Iff.rfl
  | list items each =>
      intro n
      rw [canonicalize, canonicalizeAll_eq_map, Recursion.needs_list_le_iff, Recursion.needs_list_le_iff,
        List.forall_mem_map]
      exact and_congr_right fun _ => forall₂_congr fun item member => each item member _
  | dict items each =>
      intro n
      rw [canonicalize, canonicalizeItems_eq_map, Recursion.needs_dict_le_iff, Recursion.needs_dict_le_iff]
      simp only [List.mem_insertionSort, List.forall_mem_map]
      exact and_congr_right fun _ => forall₂_congr fun item member => and_congr_right fun _ => each item member _

section
variable [Interpreter]

mutual

/-- `_encode` with so many frames left. -/
def encodeWithin : Json → Nat → Except PyError Str
  | .dict items, left =>
      if left < Interpreter.encode.container then .error .recursionError
      else do
        let texts ← encodeItemsWithin items (left - Interpreter.encode.container)
        return 123 :: join comma texts ++ [125]
  | .list items, left =>
      if left < Interpreter.encode.container then .error .recursionError
      else do
        let texts ← encodeAllWithin items (left - Interpreter.encode.container)
        return 91 :: join comma texts ++ [93]
  | value, left => if left < Interpreter.encode.scalar value then .error .recursionError else encode value
termination_by structural value => value

def encodeAllWithin : List Json → Nat → Except PyError (List Str)
  | [], _ => .ok []
  | item :: rest, left => do
      let text ← encodeWithin item left
      let texts ← encodeAllWithin rest left
      return text :: texts
termination_by structural items => items

def encodeItemsWithin : List (Str × Json) → Nat → Except PyError (List Str)
  | [], _ => .ok []
  | (key, item) :: rest, left =>
      if left < Interpreter.encode.scalar (.str key) then .error .recursionError
      else do
        let text ← encodeWithin item left
        let texts ← encodeItemsWithin rest left
        return (quote key ++ colon :: text) :: texts
termination_by structural items => items

end

def jcsDumps (value : Json) : Except PyError Str :=
  if Interpreter.canonicalize.Admits value then encodeWithin (canonicalize value) Interpreter.encode.left
  else .error .recursionError

def jcsBytes (value : Json) : Except PyError Bytes := do
  let text ← jcsDumps value
  match utf8 text with
  | some bytes => .ok bytes
  | none => .error .valueError

/-- The value is not nested too deep for `jcs_dumps`. -/
def Shallow (value : Json) : Prop := Interpreter.canonicalize.Admits value ∧ Interpreter.encode.Admits value

instance (value : Json) : Decidable (Shallow value) := inferInstanceAs (Decidable (_ ∧ _))

theorem encodeWithin_list (items : List Json) (left : Nat) : encodeWithin (.list items) left =
    if left < Interpreter.encode.container then .error .recursionError
    else do
      let texts ← encodeAllWithin items (left - Interpreter.encode.container)
      return 91 :: join comma texts ++ [93] := rfl

theorem encodeWithin_dict (items : List (Str × Json)) (left : Nat) : encodeWithin (.dict items) left =
    if left < Interpreter.encode.container then .error .recursionError
    else do
      let texts ← encodeItemsWithin items (left - Interpreter.encode.container)
      return 123 :: join comma texts ++ [125] := rfl

theorem encodeAllWithin_cons (item : Json) (rest : List Json) (left : Nat) :
    encodeAllWithin (item :: rest) left = (do
      let text ← encodeWithin item left
      let texts ← encodeAllWithin rest left
      return text :: texts) := rfl

theorem encodeItemsWithin_cons (item : Str × Json) (rest : List (Str × Json)) (left : Nat) :
    encodeItemsWithin (item :: rest) left =
      if left < Interpreter.encode.scalar (.str item.1) then .error .recursionError
      else do
        let text ← encodeWithin item.2 left
        let texts ← encodeItemsWithin rest left
        return (quote item.1 ++ colon :: text) :: texts := rfl

theorem encodeAllWithin_eq_mapOk (items : List Json) (left : Nat) :
    encodeAllWithin items left = mapOk (fun item => encodeWithin item left) items := by
  induction items with
  | nil => rfl
  | cons item rest ih => rw [encodeAllWithin_cons, mapOk, ih]

def encodeItemWithin (left : Nat) (item : Str × Json) : Except PyError Str :=
  if left < Interpreter.encode.scalar (.str item.1) then .error .recursionError
  else do
    let text ← encodeWithin item.2 left
    return quote item.1 ++ colon :: text

theorem encodeItemsWithin_eq_mapOk (items : List (Str × Json)) (left : Nat) :
    encodeItemsWithin items left = mapOk (encodeItemWithin left) items := by
  induction items with
  | nil => rfl
  | cons item rest ih =>
      rw [encodeItemsWithin_cons, mapOk, ih, encodeItemWithin]
      split
      · rfl
      · cases encodeWithin item.2 left <;> rfl

/-- Where the frames last, the text is the encoder's. -/
theorem encodeWithin_eq_ok_iff (value : Json) : ∀ (left : Nat) (text : Str), encodeWithin value left = .ok text ↔
    Interpreter.encode.needs value ≤ left ∧ encode value = .ok text := by
  induction value using Json.induct with
  | null | bool | int | float | str => exact fun _ _ => frames_eq_ok_iff
  | list items each =>
      intro left text
      have parts (texts : List Str) : mapOk (fun item => encodeWithin item (left - Interpreter.encode.container)) items =
          .ok texts ↔ (∀ item ∈ items, Interpreter.encode.needs item ≤ left - Interpreter.encode.container) ∧
            mapOk encode items = .ok texts := mapOk_and_iff fun item member => each item member _
      rw [encodeWithin_list, frames_eq_ok_iff, Recursion.needs_list_le_iff, and_assoc]
      refine and_congr_right fun _ => ?_
      simp only [encodeAllWithin_eq_mapOk, encode_list, encodeAll_eq_mapOk, bind_ok_iff, parts]
      constructor
      · rintro ⟨texts, ⟨lasts, inner⟩, made⟩
        exact ⟨lasts, texts, inner, made⟩
      · rintro ⟨lasts, texts, inner, made⟩
        exact ⟨texts, ⟨lasts, inner⟩, made⟩
  | dict items each =>
      intro left text
      have own : ∀ item ∈ items, ∀ text, encodeItemWithin (left - Interpreter.encode.container) item = .ok text ↔
          (Interpreter.encode.scalar (.str item.1) ≤ left - Interpreter.encode.container ∧
            Interpreter.encode.needs item.2 ≤ left - Interpreter.encode.container) ∧ encodeItem item = .ok text := by
        intro item member text
        rw [encodeItemWithin, frames_eq_ok_iff, and_assoc]
        refine and_congr_right fun _ => ?_
        simp only [encodeItem, bind_ok_iff, each item member]
        constructor
        · rintro ⟨inner, ⟨lasts, first⟩, made⟩
          exact ⟨lasts, inner, first, made⟩
        · rintro ⟨lasts, inner, first, made⟩
          exact ⟨inner, ⟨lasts, first⟩, made⟩
      have parts (texts : List Str) := @mapOk_and_iff _ _ _ _ _ _ texts own
      rw [encodeWithin_dict, frames_eq_ok_iff, Recursion.needs_dict_le_iff, and_assoc]
      refine and_congr_right fun _ => ?_
      simp only [encodeItemsWithin_eq_mapOk, encode_dict, encodeItems_eq_mapOk, bind_ok_iff, parts]
      constructor
      · rintro ⟨texts, ⟨lasts, inner⟩, made⟩
        exact ⟨lasts, texts, inner, made⟩
      · rintro ⟨lasts, texts, inner, made⟩
        exact ⟨texts, ⟨lasts, inner⟩, made⟩

/-- `jcs_dumps` writes what the encoder does of the values that are not nested too deep. -/
theorem jcsDumps_eq_ok_iff {value : Json} {text : Str} :
    jcsDumps value = .ok text ↔ Shallow value ∧ encode (canonicalize value) = .ok text := by
  rw [jcsDumps, Shallow, and_assoc]
  split
  · rename_i admits
    rw [and_iff_right admits, encodeWithin_eq_ok_iff, needs_canonicalize, Recursion.Admits]
  · rename_i deep
    constructor
    · intro raised
      cases raised
    · exact fun both => absurd both.1 deep

/-- Values that are sorted alike are written alike. -/
theorem jcsDumps_congr {value other : Json} (same : canonicalize value = canonicalize other) :
    jcsDumps value = jcsDumps other := by
  have admits : Interpreter.canonicalize.Admits value ↔ Interpreter.canonicalize.Admits other := by
    rw [Recursion.Admits, ← needs_canonicalize, same, needs_canonicalize, Recursion.Admits]
  rw [jcsDumps, jcsDumps, same]
  exact if_congr admits rfl rfl

/-- What the encoder writes, it writes unless the frames run out. -/
theorem encodeWithin_raises (value : Json) : ∀ (left : Nat) (text : Str) (raised : PyError), encode value = .ok text →
    encodeWithin value left = .error raised → raised = .recursionError := by
  induction value using Json.induct with
  | null | bool | int | float | str =>
      intro left text raised encoded raises
      change (if left < _ then .error .recursionError else encode _) = .error raised at raises
      split at raises
      · exact (Except.error.inj raises).symm
      · rw [encoded] at raises
        cases raises
  | list items each =>
      intro left text raised encoded raises
      rw [encode_list] at encoded
      rw [encodeWithin_list] at raises
      obtain ⟨texts, inner, _⟩ := bind_ok encoded
      split at raises
      · exact (Except.error.inj raises).symm
      rcases bind_raises raises with failed | ⟨_, _, made⟩
      · rw [encodeAllWithin_eq_mapOk] at failed
        obtain ⟨i, item, found, own, _⟩ := mapOk_eq_error_iff.mp failed
        have member := List.mem_of_getElem? found
        obtain ⟨written, _, first⟩ := (mapOk_mem (encodeAll_eq_mapOk items ▸ inner)).1 item member
        exact each item member _ written raised first own
      · cases made
  | dict items each =>
      intro left text raised encoded raises
      rw [encode_dict] at encoded
      rw [encodeWithin_dict] at raises
      obtain ⟨texts, inner, _⟩ := bind_ok encoded
      split at raises
      · exact (Except.error.inj raises).symm
      rcases bind_raises raises with failed | ⟨_, _, made⟩
      · rw [encodeItemsWithin_eq_mapOk] at failed
        obtain ⟨i, item, found, own, _⟩ := mapOk_eq_error_iff.mp failed
        have member := List.mem_of_getElem? found
        obtain ⟨_, _, first⟩ := (mapOk_mem (encodeItems_eq_mapOk items ▸ inner)).1 item member
        obtain ⟨written, first, _⟩ := bind_ok first
        rw [encodeItemWithin] at own
        split at own
        · exact (Except.error.inj own).symm
        rcases bind_raises own with failed | ⟨_, _, made⟩
        · exact each item member _ written raised first failed
        · cases made
      · cases made

/-- Of a value that the encoder writes, `jcs_dumps` raises for want of frames alone. -/
theorem jcsDumps_of_not_shallow {value : Json} {text : Str} (encoded : encode (canonicalize value) = .ok text)
    (deep : ¬ Shallow value) : jcsDumps value = .error .recursionError := by
  cases dumped : jcsDumps value with
  | ok text => exact absurd (jcsDumps_eq_ok_iff.mp dumped).1 deep
  | error raised =>
      rw [jcsDumps] at dumped
      split at dumped
      · rw [encodeWithin_raises _ _ _ _ encoded dumped]
      · exact dumped.symm

omit [Interpreter] in
theorem boundlessBytes_eq_ok_iff {value : Json} {bytes : Bytes} : boundlessBytes value = .ok bytes ↔
    ∃ text, boundlessDumps value = .ok text ∧ utf8 text = some bytes := by
  rw [boundlessBytes, bind_ok_iff]
  refine exists_congr fun text => and_congr_right fun _ => ?_
  cases utf8 text <;> simp

theorem jcsBytes_eq_ok_iff {value : Json} {bytes : Bytes} : jcsBytes value = .ok bytes ↔
    ∃ text, jcsDumps value = .ok text ∧ utf8 text = some bytes := by
  rw [jcsBytes, bind_ok_iff]
  refine exists_congr fun text => and_congr_right fun _ => ?_
  cases utf8 text <;> simp

theorem jcsBytes_ok {value : Json} {bytes : Bytes} (encoded : jcsBytes value = .ok bytes) :
    ∃ text, jcsDumps value = .ok text ∧ utf8 text = some bytes := jcsBytes_eq_ok_iff.mp encoded

/-- With frames that last, the encoder does what it does without a limit. -/
theorem encodeWithin_of_needs (value : Json) : ∀ left, Interpreter.encode.needs value ≤ left →
    encodeWithin value left = encode value := by
  induction value using Json.induct with
  | null | bool | int | float | str => exact fun left lasts => if_neg (Nat.not_lt.mpr lasts)
  | list items each =>
      intro left lasts
      obtain ⟨own, members⟩ := Recursion.needs_list_le_iff.mp lasts
      rw [encodeWithin_list, if_neg (Nat.not_lt.mpr own), encode_list, encodeAllWithin_eq_mapOk, encodeAll_eq_mapOk,
        mapOk_congr fun item member => each item member _ (members item member)]
  | dict items each =>
      intro left lasts
      obtain ⟨own, members⟩ := Recursion.needs_dict_le_iff.mp lasts
      have same : mapOk (encodeItemWithin (left - Interpreter.encode.container)) items = mapOk encodeItem items := by
        refine mapOk_congr fun item member => ?_
        rw [encodeItemWithin, if_neg (Nat.not_lt.mpr (members item member).1),
          each item member _ (members item member).2]
        rfl
      rw [encodeWithin_dict, if_neg (Nat.not_lt.mpr own), encode_dict, encodeItemsWithin_eq_mapOk, encodeItems_eq_mapOk, same]

theorem jcsDumps_of_shallow {value : Json} (shallow : Shallow value) : jcsDumps value = boundlessDumps value := by
  have lasts := (needs_canonicalize Interpreter.encode value _).mpr shallow.2
  rw [jcsDumps, if_pos shallow.1, encodeWithin_of_needs _ _ lasts, boundlessDumps]

theorem jcsBytes_of_shallow {value : Json} (shallow : Shallow value) : jcsBytes value = boundlessBytes value := by
  rw [jcsBytes, jcsDumps_of_shallow shallow]
  rfl

/-- The frames that run out are the one thing that keeps `jcs_bytes` from what it does without a limit. -/
theorem jcsBytes_eq_ok_iff_boundless {value : Json} {bytes : Bytes} :
    jcsBytes value = .ok bytes ↔ Shallow value ∧ boundlessBytes value = .ok bytes := by
  simp only [jcsBytes_eq_ok_iff, boundlessBytes_eq_ok_iff, jcsDumps_eq_ok_iff, boundlessDumps, and_assoc, exists_and_left]

/-- Values of few levels are not nested too deep. -/
theorem shallow_of_depth {value : Json} (flat : value.depth ≤ 3) : Shallow value :=
  ⟨(Interpreter.room value flat).1, (Interpreter.room value flat).2.1⟩

end

/-- The canonical text of a value, as a tree. -/
def canonical (value : Json) : Tree := tree (canonicalize value)

/-- Equal bytes come from equal canonical texts. -/
theorem canonical_of_boundlessBytes {first second : Json} {bytes : Bytes}
    (encoded : boundlessBytes first = .ok bytes) (encodedToo : boundlessBytes second = .ok bytes) :
    canonical first = canonical second := by
  obtain ⟨text, dumped, utf⟩ := boundlessBytes_eq_ok_iff.mp encoded
  obtain ⟨text', dumped', utf'⟩ := boundlessBytes_eq_ok_iff.mp encodedToo
  obtain rfl := utf8_injective utf utf'
  apply Tree.print_injective
  rw [canonical, canonical, ← encode_ok _ text dumped, ← encode_ok _ text dumped']

theorem canonical_of_jcsBytes [Interpreter] {first second : Json} {bytes : Bytes}
    (encoded : jcsBytes first = .ok bytes) (encodedToo : jcsBytes second = .ok bytes) :
    canonical first = canonical second :=
  canonical_of_boundlessBytes (jcsBytes_eq_ok_iff_boundless.mp encoded).2 (jcsBytes_eq_ok_iff_boundless.mp encodedToo).2

@[simp] theorem canonical_eq_str {value : Json} {s : Str} : canonical value = .str s ↔ value = .str s := by
  cases value <;> simp [canonical, canonicalize, tree]

theorem canonical_int {m n : Int} (same : canonical (.int m) = canonical (.int n)) : m = n := by
  simp only [canonical, canonicalize, tree, Tree.word.injEq, intWord, Subtype.mk.injEq] at same
  exact intText_injective same

/-- A boolean is an integer to `isinstance`, and its canonical text is not a number's. -/
theorem canonical_bool_ne_int (b : Bool) (n : Int) : canonical (.bool b) ≠ canonical (.int n) := by
  intro same
  simp only [canonical, canonicalize, tree, Tree.word.injEq, intWord, boolWord, Subtype.mk.injEq] at same
  have letter : ofChar 'e' ∈ ofString (if b then "true" else "false") := by
    cases b <;> decide
  rw [same] at letter
  have small := intText_lt letter
  contradiction

/-- An integer to `isinstance` is known by its canonical text. -/
theorem int_of_canonical {value : Json} {m n : Int} (shape : value.int? = some m)
    (same : canonical value = canonical (.int n)) : value = .int n ∧ m = n := by
  cases value with
  | int k =>
      obtain rfl := canonical_int same
      exact ⟨rfl, (Option.some.inj shape).symm⟩
  | bool b => exact absurd same (canonical_bool_ne_int b n)
  | null | float | str | list | dict => contradiction

section
variable {α β : Type*} {items : List (Str × α)} {r : Str × α → Str × α → Prop} [DecidableRel r]

theorem lookup_map (f : α → β) (key : Str) :
    (items.map fun item => (item.1, f item.2)).lookup key = (items.lookup key).map f := by
  induction items with
  | nil => rfl
  | cons item rest ih =>
      obtain ⟨named, value⟩ := item
      simp only [List.map_cons, List.lookup_cons, ih]
      split <;> rfl

theorem lookup_orderedInsert (stable : ∀ a b, a.1 = b.1 → r a b) (item : Str × α) (key : Str) :
    (items.orderedInsert r item).lookup key = (item :: items).lookup key := by
  induction items with
  | nil => rfl
  | cons first rest ih =>
      rw [List.orderedInsert]
      split
      · rfl
      · rename_i before
        have apart : item.1 ≠ first.1 := fun same => before (stable item first same)
        obtain ⟨named, value⟩ := item
        obtain ⟨other, value'⟩ := first
        rw [List.lookup_cons, ih, List.lookup_cons, List.lookup_cons, List.lookup_cons]
        cases isItem : key == named <;> cases isFirst : key == other
        · rfl
        · rfl
        · rfl
        · exact absurd ((beq_iff_eq.mp isItem).symm.trans (beq_iff_eq.mp isFirst)) apart

/-- Sorting the items of a dictionary by key keeps what each key names. -/
theorem lookup_insertionSort (stable : ∀ a b, a.1 = b.1 → r a b) (key : Str) :
    (items.insertionSort r).lookup key = items.lookup key := by
  induction items with
  | nil => rfl
  | cons item rest ih =>
      obtain ⟨named, value⟩ := item
      rw [List.insertionSort_cons, lookup_orderedInsert stable, List.lookup_cons, List.lookup_cons, ih]

end

/-- Dictionaries with the same canonical text have the same keys, with values of
the same canonical text. -/
theorem canonical_lookup {items others : List (Str × Json)}
    (same : canonical (.dict items) = canonical (.dict others)) (key : Str) :
    (items.lookup key).map canonical = (others.lookup key).map canonical := by
  have read : ∀ items : List (Str × Json), ∃ sorted : List (Str × Tree),
      canonical (.dict items) = .dict sorted ∧ sorted.lookup key = (items.lookup key).map canonical := by
    intro items
    refine ⟨_, by rw [canonical, canonicalize, tree, treeItems_eq_map], ?_⟩
    have stable : ∀ a b : Str × Json, a.1 = b.1 → utf16be a.1 ≤ utf16be b.1 := by
      intro a b same
      exact (congrArg utf16be same).le
    rw [lookup_map, lookup_insertionSort stable, canonicalizeItems_eq_map, lookup_map, Option.map_map]
    rfl
  obtain ⟨sorted, text, found⟩ := read items
  obtain ⟨sorted', text', found'⟩ := read others
  rw [text, text', Tree.dict.injEq] at same
  rw [← found, ← found', same]

end Jcs

namespace Cpython
open Recursion

/-- CPython 3.11 ten calls deep under its recursion limit of 1000. `_encode` is called by a
generator that `str.join` runs, and calls `json.dumps` for a string. -/
scoped instance interpreter : Interpreter where
  canonicalize := ⟨990, 2, fun _ => 1⟩
  encode := ⟨990, 3, fun
    | .null => 1
    | .bool _ => 1
    | .str _ => 4
    | _ => 2⟩
  dumps := ⟨990, 1, fun _ => 0⟩
  comparison := ⟨990, fun
    | .null, .null => 0
    | .bool true, .bool true => 0
    | .bool false, .bool false => 0
    | _, _ => 1⟩
  room value flat := by
    have scalar : ∀ r : Recursion, r.container ≤ 3 → (∀ value, r.scalar value ≤ 4) → r.left = 990 → r.Admits value := by
      intro r container scalar left
      have takes := needs_le scalar value
      have levels := Nat.mul_le_mul container flat
      rw [Admits, left]
      omega
    refine ⟨scalar _ (by decide) (fun _ => by simp) rfl, scalar _ (by decide) (fun value => ?_) rfl,
      scalar _ (by decide) (fun _ => by simp) rfl⟩
    cases value <;> simp
  compares value s := by
    cases value <;> simp

end Cpython
end Argentum
