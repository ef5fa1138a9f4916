import Argentum.Trail.Jcs

/-! `json.dumps` with compact separators and `ensure_ascii=False`. Keys sorted by code
points and numbers in Python's `repr` make a text of their own; of a value without floats,
its items in the order they stand in, the canonical encoder writes the same. -/
namespace Argentum.Dumps
open Text JsonText Jcs

/-- `float.__repr__` as the encoder writes it. -/
def floatRepr : Float64 → Str
  | .nan => ofString "NaN"
  | .inf negative => ofString (if negative then "-Infinity" else "Infinity")
  | .finite negative text => (if negative then [45] else []) ++ text.text

mutual

/-- `json.dumps(value, separators=(",", ":"), ensure_ascii=False)` -/
def dumps : Json → Str
  | .null => ofString "null"
  | .bool true => ofString "true"
  | .bool false => ofString "false"
  | .int n => intText n
  | .float x => floatRepr x
  | .str s => quote s
  | .list items => 91 :: join comma (dumpsAll items) ++ [93]
  | .dict items => 123 :: join comma (dumpsItems items) ++ [125]
termination_by structural value => value

def dumpsAll : List Json → List Str
  | [] => []
  | item :: rest => dumps item :: dumpsAll rest
termination_by structural items => items

def dumpsItems : List (Str × Json) → List Str
  | [] => []
  | (key, item) :: rest => (quote key ++ colon :: dumps item) :: dumpsItems rest
termination_by structural items => items

end

/-- `sorted(items)` of a dictionary: by key, a key occurring once. -/
def sortItems (items : List (Str × Json)) : List (Str × Json) := items.insertionSort fun a b => a.1 ≤ b.1

mutual

/-- The order in which `sort_keys=True` writes a value. -/
def sortKeys : Json → Json
  | .list items => .list (sortKeysAll items)
  | .dict items => .dict (sortItems (sortKeysItems items))
  | value => value
termination_by structural value => value

def sortKeysAll : List Json → List Json
  | [] => []
  | item :: rest => sortKeys item :: sortKeysAll rest
termination_by structural items => items

def sortKeysItems : List (Str × Json) → List (Str × Json)
  | [] => []
  | (key, item) :: rest => (key, sortKeys item) :: sortKeysItems rest
termination_by structural items => items

end

/-- `text.encode("utf-8")` -/
def encodeUtf8 (text : Str) : Except PyError Bytes :=
  match utf8 text with
  | some bytes => .ok bytes
  | none => .error .valueError

theorem encodeUtf8_eq_ok_iff {text : Str} {bytes : Bytes} :
    encodeUtf8 text = .ok bytes ↔ utf8 text = some bytes := by
  rw [encodeUtf8]
  cases utf8 text <;> simp

end Argentum.Dumps
