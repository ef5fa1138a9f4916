import Argentum.Trail.Dumps
import Argentum.Trail.Encodable
import Mathlib.Data.Nat.Digits.Lemmas

/-! `json.loads`. White space is skipped, a string may be escaped in any of JSON's ways, a
key that comes again replaces its value, and `NaN` and the infinities are read as well.
What `json.dumps` and the canonical encoder write of a value without floats reads back as
that value. -/
namespace Argentum.Loads
open Text JsonText Jcs Dumps

def isWhitespace (c : CodePoint) : Bool := c ∈ [32, 9, 10, 13]

def skip (text : Str) : Str := text.dropWhile isWhitespace

/-- Four hexadecimal digits, and what follows them. -/
def fourDigits : Str → Option (Nat × Str)
  | a :: b :: c :: d :: rest => do
      let (a, b, c, d) := (← digitValue? a, ← digitValue? b, ← digitValue? c, ← digitValue? d)
      return (4096 * a.val + 256 * b.val + 16 * c.val + d.val, rest)
  | _ => none

/-- What follows `\u`: a high surrogate goes with a low one that is escaped next. -/
def unicodeEscape (text : Str) : Option (CodePoint × Str) := do
  let (first, rest) ← fourDigits text
  let lone := (Fin.ofNat 0x110000 first, rest)
  if 0xD800 ≤ first ∧ first ≤ 0xDBFF then
    match rest with
    | 92 :: 117 :: more =>
        match fourDigits more with
        | some (second, after) =>
            if 0xDC00 ≤ second ∧ second ≤ 0xDFFF then
              return (Fin.ofNat 0x110000 (0x10000 + (first - 0xD800) * 0x400 + (second - 0xDC00)), after)
            else return lone
        | none => return lone
    | _ => return lone
  else return lone

/-- What follows a backslash. -/
def escaped : Str → Option (CodePoint × Str)
  | 34 :: rest => some (34, rest)
  | 92 :: rest => some (92, rest)
  | 47 :: rest => some (47, rest)
  | 98 :: rest => some (8, rest)
  | 102 :: rest => some (12, rest)
  | 110 :: rest => some (10, rest)
  | 114 :: rest => some (13, rest)
  | 116 :: rest => some (9, rest)
  | 117 :: rest => unicodeEscape rest
  | _ => none

/-- The next character of a string, or its end. -/
def scanChar : Str → Option (Option CodePoint × Str)
  | [] => none
  | c :: rest =>
      if c = doubleQuote then some (none, rest)
      else if c = backslash then (escaped rest).map fun (c, rest) => (some c, rest)
      else if c.val < 32 then none
      else some (some c, rest)

/-- `scanstring`, after the opening quote. -/
def scanString : Nat → Str → Option (Str × Str)
  | 0, _ => none
  | fuel + 1, text =>
      match scanChar text with
      | none => none
      | some (none, rest) => some ([], rest)
      | some (some c, rest) => (scanString fuel rest).map fun (s, rest) => (c :: s, rest)

/-- The digits before the point: a single zero, or no zero first. -/
def scanWhole : Str → Option (Str × Str)
  | 48 :: rest => some ([48], rest)
  | c :: rest => if isDigit c then some ((c :: rest).takeWhile isDigit, (c :: rest).dropWhile isDigit) else none
  | [] => none

/-- A point and digits, if they follow. -/
def scanFraction : Str → Str × Str
  | 46 :: c :: rest =>
      if isDigit c then (46 :: (c :: rest).takeWhile isDigit, (c :: rest).dropWhile isDigit) else ([], 46 :: c :: rest)
  | text => ([], text)

/-- An exponent, if one follows. -/
def scanExponent (text : Str) : Str × Str :=
  match text with
  | e :: rest =>
      if e = 101 ∨ e = 69 then
        let (sign, digits) : Str × Str :=
          match rest with
          | 43 :: digits => ([43], digits)
          | 45 :: digits => ([45], digits)
          | digits => ([], digits)
        if digits.takeWhile isDigit = [] then ([], text)
        else (e :: sign ++ digits.takeWhile isDigit, digits.dropWhile isDigit)
      else ([], text)
  | [] => ([], text)

/-- A number: an integer, or the text that `parseFloat` is to read. -/
def scanNumber (parseFloat : Str → Float64) (text : Str) : Option (Json × Str) := do
  let (sign, body) : Str × Str :=
    match text with
    | 45 :: body => ([45], body)
    | body => ([], body)
  let (whole, rest) ← scanWhole body
  let (fraction, rest) := scanFraction rest
  let (exponent, rest) := scanExponent rest
  if fraction = [] ∧ exponent = [] then return (.int (intOf (sign ++ whole)), rest)
  else return (.float (parseFloat (sign ++ whole ++ fraction ++ exponent)), rest)

def constants : List (Str × Json) :=
  [(ofString "null", .null), (ofString "true", .bool true), (ofString "false", .bool false),
    (ofString "NaN", .float .nan), (ofString "Infinity", .float (.inf false)),
    (ofString "-Infinity", .float (.inf true))]

def scanConstant (text : Str) : Option (Json × Str) :=
  constants.findSome? fun (word, value) =>
    if word.isPrefixOf text then some (value, text.drop word.length) else none

/-- `items[key] = value` -/
def setItem (items : List (Str × Json)) (key : Str) (value : Json) : List (Str × Json) :=
  if (items.lookup key).isSome then items.map fun item => if item.1 = key then (key, value) else item
  else items ++ [(key, value)]

/-- The colon after a key. -/
def scanColon (text : Str) : Option Str :=
  match skip text with
  | 58 :: rest => some (skip rest)
  | _ => none

mutual

/-- `scan_once` -/
def scanOnce (parseFloat : Str → Float64) : Nat → Str → Option (Json × Str)
  | 0, _ => none
  | fuel + 1, text =>
      match text with
      | [] => none
      | c :: rest =>
          if c = doubleQuote then (scanString (rest.length + 1) rest).map fun (s, rest) => (.str s, rest)
          else if c = 123 then
            match skip rest with
            | 125 :: rest => some (.dict [], rest)
            | inside => scanMembers parseFloat fuel [] inside
          else if c = 91 then
            match skip rest with
            | 93 :: rest => some (.list [], rest)
            | inside => scanElements parseFloat fuel [] inside
          else (scanConstant text).or (scanNumber parseFloat text)
termination_by structural fuel => fuel

/-- The members of an object from the next key on, after those in `items`. -/
def scanMembers (parseFloat : Str → Float64) : Nat → List (Str × Json) → Str → Option (Json × Str)
  | 0, _, _ => none
  | fuel + 1, items, text =>
      match text with
      | 34 :: rest => do
          let (key, rest) ← scanString (rest.length + 1) rest
          let (value, rest) ← scanOnce parseFloat fuel (← scanColon rest)
          match skip rest with
          | 125 :: rest => return (.dict (setItem items key value), rest)
          | 44 :: rest => scanMembers parseFloat fuel (setItem items key value) (skip rest)
          | _ => none
      | _ => none
termination_by structural fuel => fuel

/-- The items of an array from the next on, after those in `items`. -/
def scanElements (parseFloat : Str → Float64) : Nat → List Json → Str → Option (Json × Str)
  | 0, _, _ => none
  | fuel + 1, items, text => do
      let (value, rest) ← scanOnce parseFloat fuel text
      match skip rest with
      | 93 :: rest => return (.list (items ++ [value]), rest)
      | 44 :: rest => scanElements parseFloat fuel (items ++ [value]) (skip rest)
      | _ => none
termination_by structural fuel => fuel

end

/-- `json.loads(text)`. `parseFloat` is `float` on the text of a number. -/
def loads (parseFloat : Str → Float64) (text : Str) : Except PyError Json :=
  if text.head? = some 0xFEFF then .error .valueError
  else
    match scanOnce parseFloat (text.length + 1) (skip text) with
    | some (value, rest) => if skip rest = [] then .ok value else .error .valueError
    | none => .error .valueError

section
variable {c : CodePoint} {s text rest : Str} {fuel : Nat}

/-- What `json.dumps` escapes reads back as it was. -/
theorem scanChar_escape (c : CodePoint) (rest : Str) : scanChar (escape c ++ rest) = some (some c, rest) := by
  unfold escape
  split
  · rename_i named
    rw [named]
    rfl
  split
  · rename_i named
    rw [named]
    rfl
  iterate 5
    split
    · rename_i named
      rw [named]
      rfl
  split
  · rename_i small
    have zero : digitValue? 48 = some 0 := by decide
    simp only [List.cons_append, List.nil_append, scanChar, escaped]
    rw [if_neg (by decide), if_pos trivial, unicodeEscape, fourDigits, zero, digitValue?_hexDigit, digitValue?_hexDigit]
    simp only [Option.bind_eq_bind, Option.bind_some, Option.pure_def]
    rw [if_neg (by simp only [Fin.val_zero]; omega), Option.map_some, Option.some.injEq, Prod.mk.injEq,
      Option.some.injEq]
    refine ⟨Fin.ext ?_, rfl⟩
    simp only [Fin.ofNat, Fin.val_zero]
    omega
  · rename_i plain notSlash _ _ _ _ _ large
    simp only [List.singleton_append, scanChar, if_neg plain, if_neg notSlash, if_neg large]

/-- A quoted text reads back, and the fuel is spent on its characters. -/
theorem scanString_quoted (enough : s.length < fuel) :
    scanString fuel (s.flatMap escape ++ doubleQuote :: rest) = some (s, rest) := by
  induction s generalizing fuel with
  | nil =>
      obtain ⟨fuel, rfl⟩ := Nat.exists_eq_add_one_of_ne_zero (Nat.ne_of_gt enough)
      rfl
  | cons c others ih =>
      obtain ⟨fuel, rfl⟩ := Nat.exists_eq_add_one_of_ne_zero (Nat.ne_of_gt (Nat.zero_lt_of_lt enough))
      rw [List.flatMap_cons, List.append_assoc, scanString, scanChar_escape]
      dsimp only
      rw [ih (by simpa using enough), Option.map_some]

theorem length_le_escaped (s : Str) : s.length ≤ (s.flatMap escape).length := by
  have each : ∀ c, 1 ≤ (escape c).length := by
    intro c
    unfold escape
    repeat' split
    all_goals simp
  induction s with
  | nil => exact le_rfl
  | cons c others ih =>
      have first := each c
      rw [List.flatMap_cons, List.length_append, List.length_cons]
      omega

/-- What may follow a value inside a text: a comma, a closing bracket, or nothing. -/
def Ends (rest : Str) : Prop := ∀ c ∈ rest.head?, c = comma ∨ c = 93 ∨ c = 125

theorem Ends.not_digit (ends : Ends rest) : rest.takeWhile isDigit = [] ∧ rest.dropWhile isDigit = rest := by
  cases rest with
  | nil => exact ⟨rfl, rfl⟩
  | cons c more =>
      have plain : isDigit c = false := by
        rcases ends c rfl with rfl | rfl | rfl <;> rfl
      exact ⟨List.takeWhile_cons_of_neg (by simp [plain]), List.dropWhile_cons_of_neg (by simp [plain])⟩

theorem isDigit_of_mem {n : Nat} (member : c ∈ natText n) : isDigit c = true := by
  obtain ⟨d, small, rfl⟩ := natText_digits member
  simp only [isDigit, Fin.ofNat, Bool.and_eq_true, decide_eq_true_eq]
  omega

/-- A number starts with a zero only where it is zero. -/
theorem natText_cons {n : Nat} (positive : n ≠ 0) : ∃ c more, natText n = c :: more ∧ c ≠ 48 ∧ isDigit c = true := by
  cases digits : natText n with
  | nil => exact absurd digits (natText_ne_nil n)
  | cons c more =>
      refine ⟨c, more, rfl, ?_, isDigit_of_mem (digits ▸ List.mem_cons_self : c ∈ natText n)⟩
      have full : Nat.digits 10 n ≠ [] := Nat.digits_ne_nil_iff_ne_zero.mpr positive
      rw [natText, if_neg positive, ← List.dropLast_append_getLast full, List.reverse_append] at digits
      have leading := List.head_eq_of_cons_eq digits
      have nonzero := Nat.getLast_digit_ne_zero 10 positive
      have small := Nat.digits_lt_base (by omega : 1 < 10) (List.getLast_mem full)
      rw [← leading]
      intro zero
      have value := congrArg Fin.val zero
      simp only [Fin.ofNat] at value
      have code : (48 : CodePoint).val = 48 := rfl
      omega

theorem scanWhole_natText (n : Nat) (ends : Ends rest) : scanWhole (natText n ++ rest) = some (natText n, rest) := by
  by_cases zero : n = 0
  · rw [zero]
    rfl
  · obtain ⟨c, more, digits, nonzero, digit⟩ := natText_cons zero
    have every : ∀ c ∈ natText n, isDigit c = true := fun c => isDigit_of_mem
    have taken : (natText n ++ rest).takeWhile isDigit = natText n := by
      rw [List.takeWhile_append_of_pos every, ends.not_digit.1, List.append_nil]
    have left : (natText n ++ rest).dropWhile isDigit = rest := by
      rw [List.dropWhile_append_of_pos every, ends.not_digit.2]
    rw [digits] at taken left ⊢
    rw [List.cons_append] at taken left ⊢
    unfold scanWhole
    split
    · rename_i same
      exact absurd (List.head_eq_of_cons_eq same) nonzero
    · rename_i same
      cases same
      rw [if_pos digit, taken, left]
    · rename_i none
      cases none

/-- No constant starts with a digit, or goes on with one. -/
theorem scanConstant_digit (digit : isDigit c = true) (more : Str) :
    scanConstant (c :: more) = none ∧ scanConstant (45 :: c :: more) = none := by
  have letters : ∀ word value, (word, value) ∈ constants → ∃ first second tail, word = first :: second :: tail ∧
      isDigit first = false ∧ isDigit second = false := by
    intro word value member
    simp only [constants, List.mem_cons, Prod.mk.injEq, List.not_mem_nil, or_false] at member
    rcases member with ⟨rfl, _⟩ | ⟨rfl, _⟩ | ⟨rfl, _⟩ | ⟨rfl, _⟩ | ⟨rfl, _⟩ | ⟨rfl, _⟩ <;>
      exact ⟨_, _, _, rfl, rfl, rfl⟩
  constructor
  · refine List.findSome?_eq_none_iff.mpr fun (word, value) member => if_neg fun begins => ?_
    obtain ⟨first, second, tail, rfl, plain, _⟩ := letters word value member
    rw [List.isPrefixOf_iff_prefix, List.cons_prefix_cons] at begins
    rw [begins.1, digit] at plain
    cases plain
  · refine List.findSome?_eq_none_iff.mpr fun (word, value) member => if_neg fun begins => ?_
    obtain ⟨first, second, tail, rfl, _, plain⟩ := letters word value member
    rw [List.isPrefixOf_iff_prefix, List.cons_prefix_cons, List.cons_prefix_cons] at begins
    rw [begins.2.1, digit] at plain
    cases plain

theorem natText_head (n : Nat) : ∃ c more, natText n = c :: more ∧ isDigit c = true := by
  cases digits : natText n with
  | nil => exact absurd digits (natText_ne_nil n)
  | cons c more => exact ⟨c, more, rfl, isDigit_of_mem (digits ▸ List.mem_cons_self : c ∈ natText n)⟩

/-- An integer that `str` writes is read as a number, and as no constant. -/
theorem scanOnce_intText (parseFloat : Str → Float64) (n : Int) (fuel : Nat) (ends : Ends rest) :
    scanOnce parseFloat (fuel + 1) (intText n ++ rest) = some (.int n, rest) := by
  have fraction : scanFraction rest = ([], rest) := by
    unfold scanFraction
    split
    · rcases ends 46 rfl with same | same | same <;> cases same
    · rfl
  have exponent : scanExponent rest = ([], rest) := by
    unfold scanExponent
    split
    · rename_i e more
      rw [if_neg]
      rcases ends e rfl with rfl | rfl | rfl <;> decide
    · rfl
  obtain ⟨c, more, digits, digit⟩ := natText_head n.natAbs
  have whole := scanWhole_natText n.natAbs ends
  have value := intOf_intText n
  have plain : c ≠ doubleQuote ∧ c ≠ 123 ∧ c ≠ 91 ∧ c ≠ 45 := by
    refine ⟨?_, ?_, ?_, ?_⟩ <;> rintro rfl <;> cases digit
  unfold intText at value ⊢
  split
  · rename_i negative
    rw [if_pos negative] at value
    have number : scanNumber parseFloat (45 :: natText n.natAbs ++ rest) = some (.int n, rest) := by
      simp [scanNumber, whole, fraction, exponent, value]
    rw [digits] at number ⊢
    rw [List.cons_append, List.cons_append] at number ⊢
    rw [scanOnce, if_neg (by decide), if_neg (by decide), if_neg (by decide), (scanConstant_digit digit _).2,
      Option.none_or, number]
  · rename_i positive
    rw [if_neg positive] at value
    rw [digits, List.cons_append] at whole ⊢
    rw [digits] at value
    have number : scanNumber parseFloat (c :: (more ++ rest)) = some (.int n, rest) := by
      simp [scanNumber, plain.2.2.2, whole, fraction, exponent, value]
    rw [scanOnce, if_neg plain.1, if_neg plain.2.1, if_neg plain.2.2.1, (scanConstant_digit digit _).1, Option.none_or,
      number]


/-- No float, and no key twice. -/
inductive Loadable : Json → Prop
  | null : Loadable .null
  | bool (b : Bool) : Loadable (.bool b)
  | int (n : Int) : Loadable (.int n)
  | str (s : Str) : Loadable (.str s)
  | list {items : List Json} (each : ∀ item ∈ items, Loadable item) : Loadable (.list items)
  | dict {items : List (Str × Json)} (unique : (items.map Prod.fst).Nodup)
      (each : ∀ item ∈ items, Loadable item.2) : Loadable (.dict items)

theorem dumpsAll_eq_map (items : List Json) : dumpsAll items = items.map dumps := by
  induction items with
  | nil => rfl
  | cons item others ih => rw [dumpsAll, ih, List.map_cons]

def dumpsItem (item : Str × Json) : Str := quote item.1 ++ colon :: dumps item.2

theorem dumpsItems_eq_map (items : List (Str × Json)) : dumpsItems items = items.map dumpsItem := by
  induction items with
  | nil => rfl
  | cons item others ih => rw [dumpsItems, ih, List.map_cons, dumpsItem]

/-- How the text of a value opens: with no white space, no closing bracket and no mark. -/
def Opens (text : Str) : Prop := ∃ c more, text = c :: more ∧ isWhitespace c = false ∧ c ∉ [93, 125, 0xFEFF]

theorem Opens.skip (opens : Opens text) : skip text = text := by
  obtain ⟨c, more, rfl, plain, _⟩ := opens
  exact List.dropWhile_cons_of_neg (by simp [plain])

theorem Opens.append (opens : Opens text) (rest : Str) : Opens (text ++ rest) := by
  obtain ⟨c, more, rfl, plain⟩ := opens
  exact ⟨c, more ++ rest, rfl, plain⟩

theorem opens_dumps {value : Json} (loadable : Loadable value) : Opens (dumps value) := by
  cases loadable with
  | null => exact ⟨_, _, rfl, by decide⟩
  | bool b => cases b <;> exact ⟨_, _, rfl, by decide⟩
  | str | list | dict => exact ⟨_, _, rfl, by decide⟩
  | int n =>
      rw [dumps]
      cases written : intText n with
      | nil => exact absurd written (intText_ne_nil n)
      | cons c more =>
          have wordy := wordy_intText n c (written ▸ List.mem_cons_self)
          refine ⟨c, more, rfl, ?_, ?_⟩
          · simp only [wordChar, Bool.or_eq_true, Bool.and_eq_true, decide_eq_true_eq, beq_iff_eq] at wordy
            simp only [isWhitespace, List.mem_cons, List.not_mem_nil, or_false, decide_eq_false_iff_not]
            rintro (rfl | rfl | rfl | rfl) <;> revert wordy <;> decide
          · rw [List.mem_cons, List.mem_cons, List.mem_singleton]
            rintro (rfl | rfl | rfl) <;> cases wordy

theorem opens_join (opens : Opens text) (others : List Str) : Opens (join comma (text :: others)) := by
  rw [join_cons]
  exact opens.append _

theorem ends_cons (closes : c = comma ∨ c = 93 ∨ c = 125) (rest : Str) : Ends (c :: rest) := by
  intro other same
  rwa [← Option.some.inj same]

/-- The value reads back from its text, wherever the text ends. -/
def Reads (parseFloat : Str → Float64) (value : Json) : Prop := ∀ fuel rest, (dumps value).length < fuel → Ends rest →
  scanOnce parseFloat fuel (dumps value ++ rest) = some (value, rest)

variable {parseFloat : Str → Float64}

/-- One item is read, and the bracket or the comma after it. -/
theorem scanElements_item {item : Json} {done : List Json} (reads : Reads parseFloat item)
    (enough : (dumps item).length < fuel) :
    scanElements parseFloat (fuel + 1) done (dumps item ++ 93 :: rest) = some (.list (done ++ [item]), rest) ∧
      scanElements parseFloat (fuel + 1) done (dumps item ++ comma :: rest) =
        scanElements parseFloat fuel (done ++ [item]) (skip rest) := by
  constructor
  · rw [scanElements, reads fuel _ enough (ends_cons (Or.inr (Or.inl rfl)) rest), Option.bind_eq_bind, Option.bind_some]
    rfl
  · rw [scanElements, reads fuel _ enough (ends_cons (Or.inl rfl) rest), Option.bind_eq_bind, Option.bind_some]
    rfl

theorem setItem_fresh {items : List (Str × Json)} {key : Str} (fresh : key ∉ items.map Prod.fst) (value : Json) :
    setItem items key value = items ++ [(key, value)] := by
  have absent : items.lookup key = none := by
    rw [List.lookup_eq_none_iff]
    intro item member
    rw [bne_iff_ne]
    rintro rfl
    exact fresh (List.mem_map_of_mem member)
  rw [setItem, absent]
  rfl

theorem lookup_setItem (items : List (Str × Json)) (key : Str) (value : Json) (other : Str) :
    (setItem items key value).lookup other = if other = key then some value else items.lookup other := by
  have replaced : ∀ items : List (Str × Json), (items.lookup key).isSome →
      (items.map fun item => if item.1 = key then (key, value) else item).lookup other =
        if other = key then some value else items.lookup other := by
    intro items there
    by_cases named : other = key
    · subst named
      rw [if_pos rfl]
      induction items with
      | nil => cases there
      | cons item rest ih =>
          obtain ⟨name, stored⟩ := item
          rw [List.map_cons]
          split
          · exact List.lookup_cons_self
          · rename_i apart
            rw [List.lookup_cons, beq_false_of_ne (Ne.symm apart)] at there ⊢
            exact ih there
    · rw [if_neg named]
      clear there
      induction items with
      | nil => rfl
      | cons item rest ih =>
          obtain ⟨name, stored⟩ := item
          rw [List.map_cons]
          split
          · rename_i same
            change name = key at same
            subst same
            rw [List.lookup_cons, List.lookup_cons, beq_false_of_ne named]
            exact ih
          · rw [List.lookup_cons, List.lookup_cons, ih]
  unfold setItem
  split
  · rename_i there
    exact replaced items there
  · rename_i absent
    rw [List.lookup_append, List.lookup_cons, List.lookup_nil]
    by_cases named : other = key
    · subst named
      rw [Option.not_isSome_iff_eq_none.mp absent]
      simp
    · simp [named, beq_false_of_ne named]

/-- One member is read, and the bracket or the comma after it. -/
theorem scanMembers_item {key : Str} {value : Json} {done : List (Str × Json)} (loadable : Loadable value)
    (reads : Reads parseFloat value) (fresh : key ∉ done.map Prod.fst) (enough : (dumps value).length < fuel) :
    scanMembers parseFloat (fuel + 1) done (dumpsItem (key, value) ++ 125 :: rest) =
        some (.dict (done ++ [(key, value)]), rest) ∧
      scanMembers parseFloat (fuel + 1) done (dumpsItem (key, value) ++ comma :: rest) =
        scanMembers parseFloat fuel (done ++ [(key, value)]) (skip rest) := by
  have named : ∀ tail : Str, scanString ((key.flatMap escape ++ doubleQuote :: tail).length + 1)
      (key.flatMap escape ++ doubleQuote :: tail) = some (key, tail) := by
    intro tail
    have short := length_le_escaped key
    exact scanString_quoted (by rw [List.length_append]; omega)
  have pointed : ∀ tail, scanColon (colon :: (dumps value ++ tail)) = some (dumps value ++ tail) := by
    intro tail
    exact congrArg some ((opens_dumps loadable).append tail).skip
  have text : ∀ tail, dumpsItem (key, value) ++ tail =
      doubleQuote :: (key.flatMap escape ++ doubleQuote :: colon :: (dumps value ++ tail)) := by
    intro tail
    simp only [dumpsItem, quote, List.append_assoc, List.cons_append, List.nil_append]
  rw [text, text, ← setItem_fresh fresh value]
  constructor
  · rw [scanMembers, named, Option.bind_eq_bind, Option.bind_some]
    dsimp only
    rw [pointed, Option.bind_eq_bind, Option.bind_some, reads fuel _ enough (ends_cons (Or.inr (Or.inr rfl)) rest)]
    rfl
  · rw [scanMembers, named, Option.bind_eq_bind, Option.bind_some]
    dsimp only
    rw [pointed, Option.bind_eq_bind, Option.bind_some, reads fuel _ enough (ends_cons (Or.inl rfl) rest)]
    rfl

/-- The items of an array are read one after the other. -/
theorem scanElements_dumps {items : List Json} (loadable : ∀ item ∈ items, Loadable item)
    (reads : ∀ item ∈ items, Reads parseFloat item) (full : items ≠ []) (done : List Json)
    (enough : (join comma (items.map dumps)).length + 1 < fuel) :
    scanElements parseFloat fuel done (join comma (items.map dumps) ++ 93 :: rest) =
      some (.list (done ++ items), rest) := by
  induction items generalizing done fuel with
  | nil => exact absurd rfl full
  | cons item others ih =>
      obtain ⟨fuel, rfl⟩ := Nat.exists_eq_add_one_of_ne_zero (Nat.ne_of_gt (Nat.zero_lt_of_lt enough))
      have first := reads item List.mem_cons_self
      cases others with
      | nil =>
          simp only [List.map_cons, List.map_nil, join] at enough ⊢
          exact (scanElements_item first (by omega)).1
      | cons next more =>
          have opens := opens_dumps (loadable next (List.mem_cons_of_mem _ List.mem_cons_self))
          have later := @ih fuel (fun item member => loadable item (List.mem_cons_of_mem _ member))
            (fun item member => reads item (List.mem_cons_of_mem _ member)) (List.cons_ne_nil _ _) (done ++ [item])
          simp only [List.map_cons, join, List.length_append, List.length_cons] at enough later ⊢
          rw [List.append_assoc, List.cons_append, (scanElements_item first (by omega)).2,
            ((opens_join opens _).append _).skip, later (by omega), List.append_assoc, List.singleton_append]

/-- The members of an object are read one after the other, and none replaces another. -/
theorem scanMembers_dumps {items : List (Str × Json)} (loadable : ∀ item ∈ items, Loadable item.2)
    (reads : ∀ item ∈ items, Reads parseFloat item.2) (full : items ≠ []) (done : List (Str × Json))
    (unique : ((done ++ items).map Prod.fst).Nodup)
    (enough : (join comma (items.map dumpsItem)).length + 1 < fuel) :
    scanMembers parseFloat fuel done (join comma (items.map dumpsItem) ++ 125 :: rest) =
      some (.dict (done ++ items), rest) := by
  induction items generalizing done fuel with
  | nil => exact absurd rfl full
  | cons item others ih =>
      obtain ⟨fuel, rfl⟩ := Nat.exists_eq_add_one_of_ne_zero (Nat.ne_of_gt (Nat.zero_lt_of_lt enough))
      obtain ⟨key, value⟩ := item
      have loads : Loadable value := loadable _ List.mem_cons_self
      have first : Reads parseFloat value := reads _ List.mem_cons_self
      have fresh : key ∉ done.map Prod.fst := by
        rw [List.map_append, List.nodup_append] at unique
        exact fun member => unique.2.2 _ member key List.mem_cons_self rfl
      have short : (dumps value).length < (dumpsItem (key, value)).length := by
        simp only [dumpsItem, List.length_append, List.length_cons]
        omega
      cases others with
      | nil =>
          simp only [List.map_cons, List.map_nil, join] at enough ⊢
          exact (scanMembers_item loads first fresh (by omega)).1
      | cons next more =>
          have opens : Opens (dumpsItem next) := ⟨_, _, rfl, by decide⟩
          have later := @ih fuel (fun item member => loadable item (List.mem_cons_of_mem _ member))
            (fun item member => reads item (List.mem_cons_of_mem _ member)) (List.cons_ne_nil _ _)
            (done ++ [(key, value)]) (by rwa [List.append_assoc, List.singleton_append])
          simp only [List.map_cons, join, List.length_append, List.length_cons] at enough later ⊢
          rw [List.append_assoc, List.cons_append, (scanMembers_item loads first fresh (by omega)).2,
            ((opens_join opens _).append _).skip, later (by omega), List.append_assoc, List.singleton_append]

/-- A bracket that does not close at once. -/
theorem scanOnce_opens (opens : Opens text) (fuel : Nat) :
    scanOnce parseFloat (fuel + 1) (91 :: text) = scanElements parseFloat fuel [] text ∧
      scanOnce parseFloat (fuel + 1) (123 :: text) = scanMembers parseFloat fuel [] text := by
  have skipped := opens.skip
  obtain ⟨c, more, rfl, _, apart⟩ := opens
  constructor
  · rw [scanOnce, if_neg (by decide), if_neg (by decide), if_pos rfl, skipped]
    split
    · rename_i same
      exact absurd (by rw [List.head_eq_of_cons_eq same]; decide) apart
    · rfl
  · rw [scanOnce, if_neg (by decide), if_pos rfl, skipped]
    split
    · rename_i same
      exact absurd (by rw [List.head_eq_of_cons_eq same]; decide) apart
    · rfl

theorem Loadable.reads {value : Json} (loadable : Loadable value) : Reads parseFloat value := by
  induction loadable with
  | null =>
      intro fuel rest enough _
      obtain ⟨fuel, rfl⟩ := Nat.exists_eq_add_one_of_ne_zero (Nat.ne_of_gt (Nat.zero_lt_of_lt enough))
      rfl
  | bool b =>
      intro fuel rest enough _
      obtain ⟨fuel, rfl⟩ := Nat.exists_eq_add_one_of_ne_zero (Nat.ne_of_gt (Nat.zero_lt_of_lt enough))
      cases b <;> rfl
  | int n =>
      intro fuel rest enough ends
      obtain ⟨fuel, rfl⟩ := Nat.exists_eq_add_one_of_ne_zero (Nat.ne_of_gt (Nat.zero_lt_of_lt enough))
      exact scanOnce_intText parseFloat n fuel ends
  | str s =>
      intro fuel rest enough _
      obtain ⟨fuel, rfl⟩ := Nat.exists_eq_add_one_of_ne_zero (Nat.ne_of_gt (Nat.zero_lt_of_lt enough))
      have short := length_le_escaped s
      have text : dumps (.str s) ++ rest = doubleQuote :: (s.flatMap escape ++ doubleQuote :: rest) := by
        simp only [dumps, quote, List.append_assoc, List.cons_append, List.nil_append]
      rw [text, scanOnce, if_pos rfl, scanString_quoted (by rw [List.length_append]; omega)]
      rfl
  | @list items each ih =>
      intro fuel rest enough _
      obtain ⟨fuel, rfl⟩ := Nat.exists_eq_add_one_of_ne_zero (Nat.ne_of_gt (Nat.zero_lt_of_lt enough))
      rw [dumps, dumpsAll_eq_map] at enough ⊢
      rw [List.append_assoc, List.cons_append, List.singleton_append]
      cases items with
      | nil => rfl
      | cons item others =>
          have opens : Opens (join comma ((item :: others).map dumps)) :=
            opens_join (opens_dumps (each item List.mem_cons_self)) (others.map dumps)
          rw [(scanOnce_opens (opens.append _) fuel).1]
          refine scanElements_dumps each ih (List.cons_ne_nil _ _) [] ?_
          rw [List.length_append, List.length_cons, List.length_singleton] at enough
          omega
  | @dict items unique each ih =>
      intro fuel rest enough _
      obtain ⟨fuel, rfl⟩ := Nat.exists_eq_add_one_of_ne_zero (Nat.ne_of_gt (Nat.zero_lt_of_lt enough))
      rw [dumps, dumpsItems_eq_map] at enough ⊢
      rw [List.append_assoc, List.cons_append, List.singleton_append]
      cases items with
      | nil => rfl
      | cons item others =>
          have opens : Opens (join comma ((item :: others).map dumpsItem)) :=
            opens_join ⟨_, _, rfl, by decide⟩ (others.map dumpsItem)
          rw [(scanOnce_opens (opens.append _) fuel).2]
          refine scanMembers_dumps each ih (List.cons_ne_nil _ _) [] unique ?_
          rw [List.length_append, List.length_cons, List.length_singleton] at enough
          omega

/-- `json.loads(json.dumps(value)) == value`, and more: the items stand in the same order. -/
theorem loads_dumps {value : Json} (loadable : Loadable value) : loads parseFloat (dumps value) = .ok value := by
  have opens := opens_dumps loadable
  have ends : Ends [] := by
    intro c none
    cases none
  have read : Reads parseFloat value := loadable.reads
  have whole := read ((dumps value).length + 1) [] (Nat.lt_succ_self _) ends
  have unmarked : (dumps value).head? ≠ some 0xFEFF := by
    obtain ⟨c, more, same, _, apart⟩ := opens
    rw [same]
    rintro ⟨⟩
    exact absurd (by decide) apart
  rw [List.append_nil] at whole
  rw [loads, if_neg unmarked, opens.skip, whole]
  rfl

theorem treeAll_eq_map (items : List Json) : treeAll items = items.map tree := by
  induction items with
  | nil => rfl
  | cons item others ih => rw [treeAll, ih, List.map_cons]

/-- The canonical encoder writes what `json.dumps` does. -/
theorem dumps_of_encode {value : Json} (loadable : Loadable value) {text : Str} (encoded : encode value = .ok text) :
    text = dumps value := by
  rw [encode_ok value text encoded]
  clear encoded
  induction loadable with
  | null => rfl
  | bool b => cases b <;> rfl
  | int n => rfl
  | str s => rfl
  | list each ih =>
      rw [tree, Tree.print, printAll_eq_map, treeAll_eq_map, List.map_map, dumps, dumpsAll_eq_map]
      congr 2
      exact congrArg _ (List.map_congr_left ih)
  | dict unique each ih =>
      rw [tree, Tree.print, printItems_eq_map, treeItems_eq_map, List.map_map, dumps, dumpsItems_eq_map]
      congr 2
      refine congrArg _ (List.map_congr_left fun item member => ?_)
      rw [Function.comp_apply, printItem, dumpsItem, ih item member]

/-- The order of the keys in the canonical text. -/
theorem pairwise_sortedItems (items : List (Str × Json)) :
    (items.insertionSort fun a b => utf16be a.1 ≤ utf16be b.1).Pairwise fun a b => utf16be a.1 ≤ utf16be b.1 := by
  have total : Std.Total fun a b : Str × Json => utf16be a.1 ≤ utf16be b.1 := ⟨fun a b => le_total _ _⟩
  have trans : IsTrans (Str × Json) fun a b => utf16be a.1 ≤ utf16be b.1 := ⟨fun a b c => le_trans⟩
  exact List.pairwise_insertionSort _ items

/-- Sorting the items of a value a second time leaves them. -/
theorem canonicalize_canonicalize (value : Json) : canonicalize (canonicalize value) = canonicalize value := by
  induction value using Json.induct with
  | null | bool | int | float | str => rfl
  | list items each =>
      rw [canonicalize, canonicalize, canonicalizeAll_eq_map, canonicalizeAll_eq_map, List.map_map]
      exact congrArg _ (List.map_congr_left each)
  | dict items each =>
      rw [canonicalize, canonicalize, canonicalizeItems_eq_map, canonicalizeItems_eq_map]
      have same : ((items.map fun item => (item.1, canonicalize item.2)).insertionSort fun a b =>
          utf16be a.1 ≤ utf16be b.1).map (fun item => (item.1, canonicalize item.2)) =
          (items.map fun item => (item.1, canonicalize item.2)).insertionSort fun a b => utf16be a.1 ≤ utf16be b.1 := by
        refine (List.map_congr_left fun item member => ?_).trans (List.map_id _)
        obtain ⟨own, stored, rfl⟩ := List.mem_map.mp ((List.mem_insertionSort _).mp member)
        exact congrArg (Prod.mk own.1) (each own stored)
      rw [same, (pairwise_sortedItems _).insertionSort_eq]

theorem Loadable.canonicalize {value : Json} (loadable : Loadable value) : Loadable (canonicalize value) := by
  induction loadable with
  | null => exact .null
  | bool b => exact .bool b
  | int n => exact .int n
  | str s => exact .str s
  | list each ih =>
      rw [Jcs.canonicalize, canonicalizeAll_eq_map]
      refine .list fun item member => ?_
      obtain ⟨own, stored, rfl⟩ := List.mem_map.mp member
      exact ih own stored
  | @dict items unique each ih =>
      rw [Jcs.canonicalize, canonicalizeItems_eq_map]
      refine .dict ?_ fun item member => ?_
      · have keys := (List.perm_insertionSort (fun a b : Str × Json => utf16be a.1 ≤ utf16be b.1)
          (items.map fun item => (item.1, Jcs.canonicalize item.2))).map Prod.fst
        rw [List.map_map] at keys
        exact keys.nodup_iff.mpr unique
      · obtain ⟨own, stored, rfl⟩ := List.mem_map.mp ((List.mem_insertionSort _).mp member)
        exact ih own stored

/-- The canonical text reads back as the value with its items sorted, whose bytes are the same. -/
theorem loads_of_boundlessDumps {value : Json} (loadable : Loadable value) {text : Str}
    (dumped : boundlessDumps value = .ok text) :
    loads parseFloat text = .ok (canonicalize value) ∧ boundlessBytes (canonicalize value) = boundlessBytes value := by
  constructor
  · rw [dumps_of_encode loadable.canonicalize dumped, loads_dumps loadable.canonicalize]
  · rw [boundlessBytes, boundlessBytes, boundlessDumps, canonicalize_canonicalize, boundlessDumps]

end

end Argentum.Loads
