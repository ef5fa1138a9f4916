import Argentum.Trail.SortKeys
import Argentum.Core.Sha256

/-! Strings and JSON of ECMA-262, with which a program in JavaScript serializes canonically. A
string is its UTF-16 code units and is sorted by them, and a surrogate that stands alone is
escaped. Of a value without lone surrogates the text is the canonical one. -/
namespace Argentum.Ecma
open Text JsonText Jcs Sha256 Dumps Loads

abbrev JsString := List Nat

/-- A number is an integer that a double holds exactly, or another double. -/
inductive JsValue where
  | undefined
  | null
  | bool (b : Bool)
  | number (n : Int)
  | double (x : Float64)
  | string (s : JsString)
  | array (items : List JsValue)
  | object (items : List (JsString × JsValue))

def isHigh (unit : Nat) : Bool := 0xD800 ≤ unit && unit < 0xDC00

def isLow (unit : Nat) : Bool := 0xDC00 ≤ unit && unit < 0xE000

def codePoint (n : Nat) : CodePoint := Fin.ofNat 0x110000 n

/-- `StringToCodePoints` -/
def codePoints : JsString → Str
  | [] => []
  | [unit] => [codePoint unit]
  | unit :: next :: rest =>
      if isHigh unit && isLow next then
        codePoint (0x10000 + (unit - 0xD800) * 0x400 + (next - 0xDC00)) :: codePoints rest
      else codePoint unit :: codePoints (next :: rest)

/-- A code point of a string that is a surrogate stands alone. -/
def isSurrogate (c : CodePoint) : Bool := 0xD800 ≤ c.val && c.val < 0xE000

def hexOfNat (n : Nat) : CodePoint := hexDigit ⟨n % 16, Nat.mod_lt n (by decide)⟩

/-- `UnicodeEscape` -/
def unicodeEscape (c : CodePoint) : JsString := codeUnits [backslash, 117, hexOfNat (c.val / 0x1000),
  hexOfNat (c.val / 0x100), hexOfNat (c.val / 0x10), hexOfNat c.val]

/-- `QuoteJSONString`: a lone surrogate apart, the escapes are those of `json.dumps`. -/
def quoteJsonString (s : JsString) : JsString :=
  34 :: ((codePoints s).flatMap fun c => if isSurrogate c then unicodeEscape c else codeUnits (escape c)) ++ [34]

/-- `texts.join(",")` -/
def joinComma : List JsString → JsString
  | [] => []
  | [text] => text
  | text :: next :: rest => text ++ 44 :: joinComma (next :: rest)

/-- `JSON.stringify` of a double: what is not finite is null. -/
def doubleText (x : Float64) : JsString :=
  match ecmaNumberString x with
  | .ok text => codeUnits text
  | .error _ => codeUnits (ofString "null")

mutual

/-- The keys of an object are sorted by code units, and arrays stay in their order. -/
def jcs : JsValue → JsString
  | .undefined => codeUnits (ofString "undefined")
  | .null => codeUnits (ofString "null")
  | .bool b => codeUnits (ofString (if b then "true" else "false"))
  | .number n => codeUnits (intText n)
  | .double x => doubleText x
  | .string s => quoteJsonString s
  | .array items => 91 :: joinComma (jcsAll items) ++ [93]
  | .object items => 123 :: joinComma (((jcsItems items).insertionSort fun a b => a.1 ≤ b.1).map Prod.snd) ++ [125]
termination_by structural value => value

def jcsAll : List JsValue → List JsString
  | [] => []
  | item :: rest => jcs item :: jcsAll rest
termination_by structural items => items

/-- Each key, and `JSON.stringify(k) + ":" + jcs(value[k])`. -/
def jcsItems : List (JsString × JsValue) → List (JsString × JsString)
  | [] => []
  | (key, item) :: rest => (key, quoteJsonString key ++ 58 :: jcs item) :: jcsItems rest
termination_by structural items => items

end

/-- `update(s, "utf8")`: a lone surrogate is replaced by `U+FFFD`. -/
def utf8Bytes (s : JsString) : Bytes :=
  (codePoints s).flatMap fun c => (utf8Char c).getD [byte 0xEF, byte 0xBF, byte 0xBD]

def sha256Hex (s : JsString) : Str := hexOf (sha256 (utf8Bytes s))

mutual

/-- The value that the same JSON is in JavaScript. -/
def ofJson : Json → JsValue
  | .null => .null
  | .bool b => .bool b
  | .int n => .number n
  | .float x => .double x
  | .str s => .string (codeUnits s)
  | .list items => .array (ofJsonAll items)
  | .dict items => .object (ofJsonItems items)
termination_by structural value => value

def ofJsonAll : List Json → List JsValue
  | [] => []
  | item :: rest => ofJson item :: ofJsonAll rest
termination_by structural items => items

def ofJsonItems : List (Str × Json) → List (JsString × JsValue)
  | [] => []
  | (key, item) :: rest => (codeUnits key, ofJson item) :: ofJsonItems rest
termination_by structural items => items

end

theorem jcsAll_eq_map (items : List JsValue) : jcsAll items = items.map jcs := by
  induction items with
  | nil => rfl
  | cons item rest ih => rw [jcsAll, ih, List.map_cons]

theorem jcsItems_eq_map (items : List (JsString × JsValue)) :
    jcsItems items = items.map fun item => (item.1, quoteJsonString item.1 ++ 58 :: jcs item.2) := by
  induction items with
  | nil => rfl
  | cons item rest ih => rw [jcsItems, ih, List.map_cons]

theorem ofJsonAll_eq_map (items : List Json) : ofJsonAll items = items.map ofJson := by
  induction items with
  | nil => rfl
  | cons item rest ih => rw [ofJsonAll, ih, List.map_cons]

theorem ofJsonItems_eq_map (items : List (Str × Json)) :
    ofJsonItems items = items.map fun item => (codeUnits item.1, ofJson item.2) := by
  induction items with
  | nil => rfl
  | cons item rest ih => rw [ofJsonItems, ih, List.map_cons]

section
variable {text other : Str}

theorem codeUnits_append (text other : Str) : codeUnits (text ++ other) = codeUnits text ++ codeUnits other := by
  induction text with
  | nil => rfl
  | cons c rest ih =>
      rw [List.cons_append, codeUnits, codeUnits]
      split
      · rw [ih, List.cons_append]
      · rw [ih, List.cons_append, List.cons_append]

theorem codeUnits_flatMap (f : CodePoint → Str) (text : Str) :
    codeUnits (text.flatMap f) = text.flatMap fun c => codeUnits (f c) := by
  induction text with
  | nil => rfl
  | cons c rest ih => rw [List.flatMap_cons, codeUnits_append, ih, List.flatMap_cons]

theorem codeUnits_cons_ascii {c : CodePoint} (ascii : c.val < 0x10000) (rest : Str) :
    codeUnits (c :: rest) = c.val :: codeUnits rest := by
  rw [codeUnits, if_pos ascii]

theorem codePoints_cons {unit : Nat} (notHigh : isHigh unit = false) (rest : JsString) :
    codePoints (unit :: rest) = codePoint unit :: codePoints rest := by
  cases rest with
  | nil => rfl
  | cons next rest => rw [codePoints, notHigh, Bool.false_and, if_neg Bool.false_ne_true]

theorem codePoints_pair {high low : Nat} (isHigh : isHigh high = true) (isLow : isLow low = true) (rest : JsString) :
    codePoints (high :: low :: rest) =
      codePoint (0x10000 + (high - 0xD800) * 0x400 + (low - 0xDC00)) :: codePoints rest := by
  rw [codePoints, isHigh, isLow, Bool.true_and, if_pos rfl]

/-- The code points are read back from the code units. -/
theorem codePoints_codeUnits (scalar : Scalar text) : codePoints (codeUnits text) = text := by
  induction text with
  | nil => rfl
  | cons c rest ih =>
      have first := scalar c List.mem_cons_self
      have later := ih fun c member => scalar c (List.mem_cons_of_mem _ member)
      have range := c.isLt
      rw [codeUnits]
      split
      · have notHigh : isHigh c.val = false := by
          simp only [isHigh, Bool.and_eq_false_iff, decide_eq_false_iff_not]
          omega
        rw [codePoints_cons notHigh, later, codePoint, Fin.ofNat_val_eq_self]
      · have high : isHigh (0xD800 + (c.val - 0x10000) / 0x400) = true := by
          simp only [isHigh, Bool.and_eq_true, decide_eq_true_eq]
          omega
        have low : isLow (0xDC00 + (c.val - 0x10000) % 0x400) = true := by
          simp only [isLow, Bool.and_eq_true, decide_eq_true_eq]
          omega
        have joined : 0x10000 + (0xD800 + (c.val - 0x10000) / 0x400 - 0xD800) * 0x400 +
            (0xDC00 + (c.val - 0x10000) % 0x400 - 0xDC00) = c.val := by omega
        rw [codePoints_pair high low, later, joined, codePoint, Fin.ofNat_val_eq_self]

theorem quoteJsonString_codeUnits (scalar : Scalar text) :
    quoteJsonString (codeUnits text) = codeUnits (quote text) := by
  have plain : ∀ c ∈ text, isSurrogate c = false := by
    intro c member
    have value := scalar c member
    simp only [isSurrogate, Bool.and_eq_false_iff, decide_eq_false_iff_not]
    omega
  have inner : (text.flatMap fun c => if isSurrogate c then unicodeEscape c else codeUnits (escape c)) =
      text.flatMap fun c => codeUnits (escape c) := by
    refine List.flatMap_congr fun c member => ?_
    rw [plain c member, if_neg Bool.false_ne_true]
  rw [quoteJsonString, codePoints_codeUnits scalar, inner, quote, codeUnits_append, codeUnits_cons_ascii (by decide),
    codeUnits_flatMap]
  rfl

theorem joinComma_map (texts : List Str) : joinComma (texts.map codeUnits) = codeUnits (join comma texts) := by
  induction texts with
  | nil => rfl
  | cons text rest ih =>
      cases rest with
      | nil => rfl
      | cons next rest =>
          rw [join, codeUnits_append, codeUnits_cons_ascii (by decide), ← ih]
          rfl

theorem utf8Bytes_codeUnits {bytes : Bytes} (encoded : utf8 text = some bytes) :
    utf8Bytes (codeUnits text) = bytes := by
  have scalar := utf8_isSome_iff.mp ⟨bytes, encoded⟩
  rw [utf8Bytes, codePoints_codeUnits scalar]
  clear scalar
  induction text generalizing bytes with
  | nil => exact Option.some.inj encoded
  | cons c rest ih =>
      obtain ⟨head, tail, first, later, rfl⟩ := utf8_cons encoded
      rw [List.flatMap_cons, first, Option.getD_some, ih later]

/-- Sorted by their code units, texts stand as their UTF-16 stands. -/
theorem codeUnits_le_iff : codeUnits text ≤ codeUnits other ↔ utf16be text ≤ utf16be other := by
  rw [← not_lt, ← not_lt, utf16be_lt_iff]

theorem doubleText_eq (x : Float64) : doubleText x = codeUnits (Jcs.floatWord x).val := by
  unfold doubleText Jcs.floatWord
  split <;> split <;> simp_all [nullWord]

/-- The text of a value without lone surrogates is the canonical one. -/
theorem jcs_ofJson {value : Json} (profile : JcsProfile value) (encodable : Encodable value) :
    jcs (ofJson value) = codeUnits (canonical value).print := by
  induction profile with
  | null | int => rfl
  | bool b => rfl
  | float negative written => exact doubleText_eq _
  | str s =>
      cases encodable with
      | str scalar => exact quoteJsonString_codeUnits scalar
  | list each ih =>
      have inside := encodable_list_iff.mp encodable
      rw [ofJson, jcs, jcsAll_eq_map, ofJsonAll_eq_map, canonical, canonicalize, tree, Tree.print, printAll_eq_map,
        treeAll_eq_map, canonicalizeAll_eq_map, codeUnits_append, codeUnits_cons_ascii (by decide), ← joinComma_map]
      simp only [List.map_map]
      congr 3
      exact List.map_congr_left fun item member => ih item member (inside item member)
  | @dict items unique each ih =>
      have inside := encodable_dict_iff.mp encodable
      rw [ofJson, jcs, jcsItems_eq_map, ofJsonItems_eq_map, List.map_map,
        ← List.map_insertionSort (fun a b : Str × Json => utf16be a.1 ≤ utf16be b.1)
          (fun a b : JsString × JsString => a.1 ≤ b.1) _ items fun _ _ _ _ => codeUnits_le_iff.symm,
        canonical_dict, Tree.print, printItems_eq_map, codeUnits_append, codeUnits_cons_ascii (by decide),
        ← joinComma_map]
      simp only [List.map_map]
      congr 3
      refine List.map_congr_left fun item member => ?_
      have stored := (List.mem_insertionSort _).mp member
      obtain ⟨key, encoded⟩ := inside item stored
      simp only [Function.comp_apply, printItem, quoteJsonString_codeUnits key, ih item stored encoded,
        codeUnits_append, codeUnits_cons_ascii (show (colon : CodePoint).val < 0x10000 by decide)]
      rfl

end

/-- The stack of the engine where a value is serialized. It lasts for three containers that stand in
each other. -/
class Engine where
  lasts : JsValue → Bool
  room : ∀ value : Json, value.depth ≤ 3 → lasts (ofJson value) = true

end Argentum.Ecma

namespace Argentum.Node

/-- Node on values that do not reach the end of its stack. -/
scoped instance engine : Ecma.Engine where
  lasts _ := true
  room _ _ := rfl

end Argentum.Node
