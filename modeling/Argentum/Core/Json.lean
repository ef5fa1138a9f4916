import Argentum.Core.Text
import Mathlib.Data.Int.Log
import Mathlib.Data.Rat.Floor
import Mathlib.Order.WithBot
import Mathlib.Data.List.Forall2

/-! Python's values of JSON, with Python's equality. A float is known by the text
`repr` gives it and stands for the double nearest to that decimal. A boolean is a
number, and numbers of different types are equal when their values are. -/
namespace Argentum

/-- The exceptions the modelled code raises or catches, by the class a handler names. -/
inductive PyError where
  | valueError
  | typeError
  | keyError
  | indexError
  | attributeError
  | recursionError
  deriving DecidableEq

theorem ok_bind {ε α β : Type} (x : α) (next : α → Except ε β) : (Except.ok x >>= next) = next x := rfl

theorem bind_ok {ε α β : Type} {action : Except ε α} {next : α → Except ε β} {result : β}
    (returned : action >>= next = .ok result) : ∃ x, action = .ok x ∧ next x = .ok result := by
  cases action with
  | error raised => cases returned
  | ok x => exact ⟨x, rfl, returned⟩

theorem bind_ok_iff {ε α β : Type} {action : Except ε α} {next : α → Except ε β} {result : β} :
    action >>= next = .ok result ↔ ∃ x, action = .ok x ∧ next x = .ok result :=
  ⟨bind_ok, by
    rintro ⟨x, rfl, returned⟩
    exact returned⟩

theorem bind_raises {ε α β : Type} {action : Except ε α} {next : α → Except ε β} {raised : ε}
    (raises : action >>= next = .error raised) :
    action = .error raised ∨ ∃ x, action = .ok x ∧ next x = .error raised := by
  cases action with
  | error first =>
      cases raises
      exact Or.inl rfl
  | ok x => exact Or.inr ⟨x, rfl, raises⟩

/-- `[f(x) for x in xs]`: the first exception ends it. -/
def mapOk {α β : Type} (f : α → Except PyError β) : List α → Except PyError (List β)
  | [] => .ok []
  | x :: rest => do
      let y ← f x
      let others ← mapOk f rest
      return y :: others

theorem mapOk_eq_ok_iff {α β : Type} {f : α → Except PyError β} {xs : List α} {ys : List β} :
    mapOk f xs = .ok ys ↔ List.Forall₂ (fun x y => f x = .ok y) xs ys := by
  induction xs generalizing ys with
  | nil => simp [mapOk, eq_comm]
  | cons x rest ih =>
      rw [List.forall₂_cons_left_iff]
      constructor
      · intro mapped
        obtain ⟨y, first, mapped⟩ := bind_ok mapped
        obtain ⟨others, later, mapped⟩ := bind_ok mapped
        exact ⟨y, others, first, ih.mp later, (Except.ok.inj mapped).symm⟩
      · rintro ⟨y, others, first, later, rfl⟩
        simp [mapOk, first, ih.mpr later, bind, Except.bind, pure, Except.pure]

theorem mapOk_mem {α β : Type} {f : α → Except PyError β} {xs : List α} {ys : List β}
    (mapped : mapOk f xs = .ok ys) :
    (∀ x ∈ xs, ∃ y ∈ ys, f x = .ok y) ∧ ∀ y ∈ ys, ∃ x ∈ xs, f x = .ok y := by
  induction mapOk_eq_ok_iff.mp mapped with
  | nil => simp
  | cons first _ ih =>
      obtain ⟨forth, back⟩ := ih (mapOk_eq_ok_iff.mpr ‹_›)
      refine ⟨?_, ?_⟩
      · rintro x (_ | ⟨_, member⟩)
        · exact ⟨_, List.mem_cons_self, first⟩
        · obtain ⟨y, found, same⟩ := forth x member
          exact ⟨y, List.mem_cons_of_mem _ found, same⟩
      · rintro y (_ | ⟨_, member⟩)
        · exact ⟨_, List.mem_cons_self, first⟩
        · obtain ⟨x, found, same⟩ := back y member
          exact ⟨x, List.mem_cons_of_mem _ found, same⟩

theorem mapOk_isOk_iff {α β : Type} {f : α → Except PyError β} {P : β → Prop} {xs : List α} :
    (∃ ys, mapOk f xs = .ok ys ∧ ∀ y ∈ ys, P y) ↔ ∀ x ∈ xs, ∃ y, f x = .ok y ∧ P y := by
  induction xs with
  | nil => exact ⟨fun _ => List.forall_mem_nil _, fun _ => ⟨[], rfl, List.forall_mem_nil _⟩⟩
  | cons x rest ih =>
      rw [List.forall_mem_cons, ← ih]
      constructor
      · rintro ⟨ys, mapped, each⟩
        obtain ⟨y, mapped, first⟩ := bind_ok mapped
        obtain ⟨others, later, mapped⟩ := bind_ok first
        rw [← Except.ok.inj mapped, List.forall_mem_cons] at each
        exact ⟨⟨y, by assumption, each.1⟩, others, later, each.2⟩
      · rintro ⟨⟨y, first, holds⟩, others, later, each⟩
        exact ⟨y :: others, by rw [mapOk, first, later]; rfl, List.forall_mem_cons.mpr ⟨holds, each⟩⟩

theorem mapOk_isOk {α β : Type} {f : α → Except PyError β} {xs : List α}
    (each : ∀ x ∈ xs, ∃ y, f x = .ok y) : ∃ ys, mapOk f xs = .ok ys := by
  have returned (x : α) (member : x ∈ xs) : ∃ y, f x = .ok y ∧ True := by
    obtain ⟨y, same⟩ := each x member
    exact ⟨y, same, trivial⟩
  obtain ⟨ys, mapped, _⟩ := mapOk_isOk_iff.mpr returned
  exact ⟨ys, mapped⟩

/-- Where `f` returns what `g` gives, a list is mapped by it to the same list. -/
theorem mapOk_eq_map_iff {α β : Type} {f : α → Except PyError β} {g : α → β} {xs : List α} {ys : List β}
    (returns : ∀ x y, f x = .ok y → y = g x) :
    mapOk f xs = .ok ys ↔ (∀ x ∈ xs, ∃ y, f x = .ok y) ∧ ys = xs.map g := by
  rw [mapOk_eq_ok_iff]
  induction xs generalizing ys with
  | nil => simp [List.forall₂_nil_left_iff]
  | cons x rest ih =>
      rw [List.forall₂_cons_left_iff, List.forall_mem_cons, List.map_cons]
      constructor
      · rintro ⟨y, others, first, later, rfl⟩
        obtain ⟨each, rfl⟩ := ih.mp later
        exact ⟨⟨⟨y, first⟩, each⟩, by rw [returns x y first]⟩
      · rintro ⟨⟨⟨y, first⟩, each⟩, rfl⟩
        exact ⟨g x, rest.map g, returns x y first ▸ first, ih.mpr ⟨each, rfl⟩, rfl⟩

/-- Where `f` returns what `g` does of the members with a property, it maps the lists of them as `g` does. -/
theorem mapOk_and_iff {α β : Type} {f g : α → Except PyError β} {P : α → Prop} {xs : List α} {ys : List β}
    (each : ∀ x ∈ xs, ∀ y, f x = .ok y ↔ P x ∧ g x = .ok y) :
    mapOk f xs = .ok ys ↔ (∀ x ∈ xs, P x) ∧ mapOk g xs = .ok ys := by
  induction xs generalizing ys with
  | nil => simp [mapOk]
  | cons x rest ih =>
      obtain ⟨first, later⟩ := List.forall_mem_cons.mp each
      simp only [mapOk, bind_ok_iff, first, ih later, List.forall_mem_cons]
      constructor
      · rintro ⟨y, ⟨one, read⟩, others, ⟨every, mapped⟩, made⟩
        exact ⟨⟨one, every⟩, y, read, others, mapped, made⟩
      · rintro ⟨⟨one, every⟩, y, read, others, mapped, made⟩
        exact ⟨y, ⟨one, read⟩, others, ⟨every, mapped⟩, made⟩

theorem mapOk_congr {α β : Type} {f g : α → Except PyError β} {xs : List α} (same : ∀ x ∈ xs, f x = g x) :
    mapOk f xs = mapOk g xs := by
  induction xs with
  | nil => rfl
  | cons x rest ih =>
      obtain ⟨first, later⟩ := List.forall_mem_cons.mp same
      rw [mapOk, mapOk, first, ih later]

/-- The exception is that of the first member to raise one. -/
theorem mapOk_eq_error_iff {α β : Type} {f : α → Except PyError β} {xs : List α} {raised : PyError} :
    mapOk f xs = .error raised ↔ ∃ (i : Nat) (x : α), xs[i]? = some x ∧ f x = .error raised ∧
      ∀ (j : Nat) (y : α), j < i → xs[j]? = some y → ∃ z, f y = .ok z := by
  induction xs with
  | nil => simp [mapOk]
  | cons first rest ih =>
      cases made : f first with
      | error error =>
          have failed : mapOk f (first :: rest) = .error error := by
            rw [mapOk, made]
            rfl
          rw [failed]
          constructor
          · rintro ⟨⟩
            exact ⟨0, first, rfl, made, fun j _ less => absurd less (Nat.not_lt_zero j)⟩
          · rintro ⟨i, x, found, read, before⟩
            cases i with
            | zero =>
                obtain rfl := Option.some.inj found
                obtain rfl := Except.error.inj (made.symm.trans read)
                rfl
            | succ i =>
                obtain ⟨z, decoded⟩ := before 0 first (Nat.succ_pos i) rfl
                cases made.symm.trans decoded
      | ok z =>
          have later : mapOk f (first :: rest) = .error raised ↔ mapOk f rest = .error raised := by
            rw [mapOk, made]
            cases mapOk f rest <;> simp [bind, Except.bind, pure, Except.pure]
          rw [later, ih]
          constructor
          · rintro ⟨i, x, found, read, before⟩
            refine ⟨i + 1, x, found, read, fun j y less there => ?_⟩
            cases j with
            | zero =>
                obtain rfl := Option.some.inj there
                exact ⟨z, made⟩
            | succ j => exact before j y (by omega) there
          · rintro ⟨i, x, found, read, before⟩
            cases i with
            | zero =>
                obtain rfl := Option.some.inj found
                cases made.symm.trans read
            | succ i => exact ⟨i, x, found, read, fun j y less there => before (j + 1) y (by omega) there⟩

/-- `repr(abs(x))` of a finite float: `12.5`, `1e-07`, `1.5e+300`. -/
structure FloatRepr where
  whole : List (Fin 10)
  fraction : List (Fin 10)
  exponent : Option (Bool × List (Fin 10))
  wholeDigits : whole ≠ []
  pointed : exponent = none → fraction ≠ []

namespace FloatRepr
open Text

def digitChar (d : Fin 10) : CodePoint := Fin.ofNat 0x110000 (48 + d.val)

def text (r : FloatRepr) : Str :=
  r.whole.map digitChar ++ (if r.fraction = [] then [] else 46 :: r.fraction.map digitChar) ++
    match r.exponent with
    | none => []
    | some (negative, digits) => 101 :: (if negative then 45 else 43) :: digits.map digitChar

def natOf (digits : List (Fin 10)) : Nat := digits.foldl (fun n d => 10 * n + d.val) 0

/-- The decimal the text denotes. -/
def decimal (r : FloatRepr) : ℚ :=
  let power : Int :=
    match r.exponent with
    | none => 0
    | some (negative, digits) => if negative then -natOf digits else natOf digits
  natOf (r.whole ++ r.fraction) * (10 : ℚ) ^ (power - r.fraction.length)

end FloatRepr

/-- Round to the nearest integer, a tie to the even one. -/
def roundEven (x : ℚ) : Int :=
  if x - ⌊x⌋ < 1 / 2 then ⌊x⌋
  else if 1 / 2 < x - ⌊x⌋ then ⌊x⌋ + 1
  else if ⌊x⌋ % 2 = 0 then ⌊x⌋ else ⌊x⌋ + 1

/-- The double nearest to a nonnegative rational in the range of doubles. -/
def nearestDouble (x : ℚ) : ℚ :=
  let scale : Int := max (Int.log 2 x - 52) (-1074)
  roundEven (x / (2 : ℚ) ^ scale) * (2 : ℚ) ^ scale

inductive Float64 where
  | nan
  | inf (negative : Bool)
  | finite (negative : Bool) (text : FloatRepr)

inductive Json where
  | null
  | bool (b : Bool)
  | int (n : Int)
  | float (x : Float64)
  | str (s : Str)
  | list (items : List Json)
  | dict (items : List (Str × Json))

theorem Json.induct {P : Json → Prop} (null : P .null) (bool : ∀ b, P (.bool b)) (int : ∀ n, P (.int n))
    (float : ∀ x, P (.float x)) (str : ∀ s, P (.str s))
    (list : ∀ items, (∀ item ∈ items, P item) → P (.list items))
    (dict : ∀ items, (∀ item ∈ items, P item.2) → P (.dict items)) (value : Json) : P value :=
  Json.rec (motive_1 := P) (motive_2 := fun items => ∀ item ∈ items, P item)
    (motive_3 := fun items => ∀ item ∈ items, P item.2) (motive_4 := fun item => P item.2)
    null bool int float str list dict (by simp)
    (fun _ _ first rest => List.forall_mem_cons.mpr ⟨first, rest⟩) (by simp)
    (fun _ _ first rest => List.forall_mem_cons.mpr ⟨first, rest⟩) (fun _ _ h => h) value

/-- A number with the two infinities. -/
abbrev Number := WithBot (WithTop ℚ)

def Number.ofRat (q : ℚ) : Number := ((q : WithTop ℚ) : WithBot (WithTop ℚ))

def Float64.number? : Float64 → Option Number
  | .nan => none
  | .inf negative => some (if negative then ⊥ else ⊤)
  | .finite negative text =>
      some (.ofRat (if negative then -nearestDouble text.decimal else nearestDouble text.decimal))

namespace Json

/-- The number a value compares as; NaN compares as none. -/
def number? : Json → Option Number
  | .bool b => some (.ofRat (if b then 1 else 0))
  | .int n => some (.ofRat n)
  | .float x => x.number?
  | _ => none

mutual

/-- Identity or `==`: what a container's comparison asks of its members. The
parser's one NaN object is identical to itself. -/
def same : Json → Json → Bool
  | .null, other => match other with
      | .null => true
      | _ => false
  | .str s, other => match other with
      | .str t => s = t
      | _ => false
  | .list xs, other => match other with
      | .list ys => sameAll xs ys
      | _ => false
  | .dict xs, other => match other with
      | .dict ys => xs.length = ys.length && sameItems xs ys
      | _ => false
  | .float .nan, other => match other with
      | .float .nan => true
      | _ => false
  | .bool b, other => (Json.bool b).number? = other.number?
  | .int n, other => (Json.int n).number? = other.number?
  | .float x, other => (Json.float x).number? = other.number?
termination_by structural value => value

def sameAll : List Json → List Json → Bool
  | [], others => others.isEmpty
  | item :: rest, others => match others with
      | other :: others => same item other && sameAll rest others
      | [] => false
termination_by structural items => items

def sameItems : List (Str × Json) → List (Str × Json) → Bool
  | [], _ => true
  | (key, item) :: rest, others =>
      (match others.lookup key with
        | some other => same item other
        | none => false) && sameItems rest others
termination_by structural items => items

end

/-- `==`: NaN differs from itself. -/
def eq (value other : Json) : Bool :=
  match value with
  | .float .nan => false
  | value => same value other

/-- `value.get(key)` on a dictionary: null where the key is absent. -/
def get (value : Json) (key : Str) : Json :=
  match value with
  | .dict items => (items.lookup key).getD .null
  | _ => .null

/-- `value[key]` with a string key. -/
def item (value : Json) (key : Str) : Except PyError Json :=
  match value with
  | .dict items =>
      match items.lookup key with
      | some found => .ok found
      | none => .error .keyError
  | _ => .error .typeError

/-- `key in value` on a dictionary. -/
def has (value : Json) (key : Str) : Bool :=
  match value with
  | .dict items => (items.lookup key).isSome
  | _ => false

/-- `value.get(key, default)` on a dictionary. -/
def getD (value : Json) (key : Str) (default : Json) : Json :=
  match value with
  | .dict items => (items.lookup key).getD default
  | _ => .null

/-- `bool(value)` -/
def truthy : Json → Bool
  | .null => false
  | .bool b => b
  | .int n => n ≠ 0
  | .float (.finite _ text) => nearestDouble text.decimal ≠ 0
  | .float _ => true
  | .str s => s ≠ []
  | .list items => !items.isEmpty
  | .dict items => !items.isEmpty

/-- `value or default` -/
def or (value default : Json) : Json := if value.truthy then value else default

/-- The value has a hash, by which a set or a dictionary finds it. -/
def hashable : Json → Bool
  | .list _ => false
  | .dict _ => false
  | _ => true

def isDict : Json → Bool
  | .dict _ => true
  | _ => false

/-- `isinstance(value, int)`, of which the booleans are. -/
def int? : Json → Option Int
  | .int n => some n
  | .bool b => some (if b then 1 else 0)
  | _ => none

/-- `isinstance(value, int) and not isinstance(value, bool)`. -/
def properInt? : Json → Option Int
  | .int n => some n
  | _ => none

def isNull : Json → Bool
  | .null => true
  | _ => false

theorem isNull_iff {value : Json} : value.isNull = true ↔ value = .null := by
  cases value <;> simp [isNull]

theorem isNull_false_iff {value : Json} : value.isNull = false ↔ value ≠ .null := by
  rw [← Bool.not_eq_true, isNull_iff]

theorem item_ok {value found : Json} {key : Str} (read : value.item key = .ok found) :
    ∃ items, value = .dict items ∧ items.lookup key = some found := by
  unfold item at read
  split at read
  · rename_i items
    split at read
    · rename_i there
      cases read
      exact ⟨items, rfl, there⟩
    · contradiction
  · contradiction

theorem get_eq_str {value : Json} {key s : Str} (read : value.get key = .str s) :
    ∃ items, value = .dict items ∧ items.lookup key = some (.str s) := by
  unfold get at read
  split at read
  · rename_i items
    cases there : items.lookup key with
    | none =>
        rw [there] at read
        contradiction
    | some found =>
        rw [there, Option.getD_some] at read
        exact ⟨items, rfl, by rw [there, read]⟩
  · contradiction

theorem has_of_get {value : Json} {key : Str} (present : value.get key ≠ .null) : value.has key = true := by
  cases value with
  | dict items =>
      rw [has]
      rw [get] at present
      cases found : items.lookup key with
      | none => exact absurd (by rw [found]; rfl) present
      | some found => rfl
  | null | bool | int | float | str | list => exact absurd rfl present

/-- Only a string equals a string. -/
@[simp] theorem eq_str {value : Json} {s : Str} : eq value (.str s) = true ↔ value = .str s := by
  cases value with
  | float x => cases x <;> simp [eq, same, number?, Float64.number?]
  | null | bool | int | str | list | dict => simp [eq, same, number?]

@[simp] theorem str_eq {s : Str} {other : Json} : eq (.str s) other = true ↔ other = .str s := by
  cases other <;> simp [eq, same, eq_comm]

theorem int_eq_int {m n : Int} : eq (.int m) (.int n) = true ↔ m = n := by
  simp [eq, same, number?, Number.ofRat]

end Json
end Argentum
