import Argentum.Trail.Canonical
import Argentum.Trail.Reprs

/-! `json.dumps` with sorted keys beside the canonical encoder. Code points and UTF-16 code
units order two keys alike unless they part at an astral character and one of `U+E000` to
`U+FFFF`, and a float has two texts where its magnitude is not written alike. The two texts
of a value are one iff neither happens in it, at any depth. -/
namespace Argentum.Dumps
open Text JsonText Jcs Loads

section
variable {α : Type*} {r s : α → α → Prop} [DecidableRel r] [DecidableRel s]

/-- Sorting by two orders gives one list iff the first is within the second on its members. -/
theorem insertionSort_eq_iff [Std.Total r] [IsTrans α r] [Std.Total s] [IsTrans α s] {xs : List α}
    (antisymm : ∀ a ∈ xs, ∀ b ∈ xs, r a b → r b a → a = b) (antisymm' : ∀ a ∈ xs, ∀ b ∈ xs, s a b → s b a → a = b) :
    xs.insertionSort r = xs.insertionSort s ↔ ∀ a ∈ xs, ∀ b ∈ xs, r a b → s a b := by
  have first := List.pairwise_insertionSort r xs
  have second := List.pairwise_insertionSort s xs
  constructor
  · intro same a inside b inside' before
    by_cases equal : a = b
    · rw [equal]
      exact (total_of s b b).elim id id
    · -- the two stand in one order in the sorted list, by both relations
      have both := (same ▸ first).and second
      have symm : Std.Symm fun a b => r a b ∧ s a b ∨ r b a ∧ s b a := ⟨fun a b => Or.symm⟩
      have stand := (both.imp fun {a b} order => Or.inl (b := r b a ∧ s b a) order).forall
        ((List.mem_insertionSort s).mpr inside) ((List.mem_insertionSort s).mpr inside') equal
      rcases stand with ⟨_, after⟩ | ⟨swapped, _⟩
      · exact after
      · exact absurd (antisymm a inside b inside' before swapped) equal
  · intro within
    have sorted : (xs.insertionSort r).Pairwise s := first.imp_of_mem fun inside inside' before =>
      within _ ((List.mem_insertionSort r).mp inside) _ ((List.mem_insertionSort r).mp inside') before
    refine List.Perm.eq_of_pairwise (fun a b inside inside' => ?_) sorted second
      ((List.perm_insertionSort r xs).trans (List.perm_insertionSort s xs).symm)
    exact antisymm' a ((List.mem_insertionSort r).mp inside) b ((List.mem_insertionSort s).mp inside')

end

def astral (c : CodePoint) : Bool := 0x10000 ≤ c.val

/-- `U+E000` to `U+FFFF`, above the surrogates. -/
def upperBasic (c : CodePoint) : Bool := 0xE000 ≤ c.val && c.val < 0x10000

/-- The texts first differ in an astral character and one of `U+E000` to `U+FFFF`. -/
def crossed : Str → Str → Bool
  | c :: rest, d :: others =>
      if c = d then crossed rest others else (astral c && upperBasic d) || (upperBasic c && astral d)
  | _, _ => false

section
variable {text other : Str}

theorem crossed_comm (text other : Str) : crossed text other = crossed other text := by
  induction text generalizing other with
  | nil => cases other <;> rfl
  | cons c rest ih =>
      cases other with
      | nil => rfl
      | cons d others =>
          rw [crossed, crossed, ih]
          by_cases same : c = d
          · rw [if_pos same, if_pos same.symm]
          · rw [if_neg same, if_neg (Ne.symm same), Bool.or_comm, Bool.and_comm (astral c),
              Bool.and_comm (upperBasic c)]

/-- Crossing keys stand in UTF-16 as they do not by code points, and no others. -/
theorem codeUnits_lt_iff (scalar : Scalar text) (scalar' : Scalar other) :
    codeUnits text < codeUnits other ↔ if crossed text other then other < text else text < other := by
  induction text generalizing other with
  | nil =>
      cases other with
      | nil => simp [codeUnits, crossed]
      | cons d others =>
          have written : codeUnits (d :: others) ≠ [] := by
            unfold codeUnits
            split <;> simp
          obtain ⟨unit, units, shape⟩ := List.exists_cons_of_ne_nil written
          rw [shape]
          exact iff_of_true (List.nil_lt_cons _ _) (List.nil_lt_cons _ _)
  | cons c rest ih =>
      cases other with
      | nil => exact iff_of_false (List.not_lt_nil _) (List.not_lt_nil _)
      | cons d others =>
          have first := scalar c List.mem_cons_self
          have second := scalar' d List.mem_cons_self
          have range := c.isLt
          have range' := d.isLt
          have later := ih (fun c member => scalar c (List.mem_cons_of_mem _ member))
            (fun c member => scalar' c (List.mem_cons_of_mem _ member))
          rw [crossed]
          by_cases same : c = d
          · subst same
            rw [if_pos rfl, List.cons_lt_cons_self, List.cons_lt_cons_self, ← later, codeUnits, codeUnits]
            split
            · exact List.cons_lt_cons_self
            · rw [List.cons_lt_cons_self, List.cons_lt_cons_self]
          · have apart : c.val ≠ d.val := fun values => same (Fin.ext values)
            have order : (c :: rest < d :: others) ↔ c.val < d.val :=
              List.cons_lt_cons_iff.trans (or_iff_left fun equal => same equal.1)
            have order' : (d :: others < c :: rest) ↔ d.val < c.val :=
              List.cons_lt_cons_iff.trans (or_iff_left fun equal => same equal.1.symm)
            have turned : ((astral c && upperBasic d) || (upperBasic c && astral d)) = true ↔
                (0x10000 ≤ c.val ∧ 0xE000 ≤ d.val ∧ d.val < 0x10000) ∨
                  (0xE000 ≤ c.val ∧ c.val < 0x10000) ∧ 0x10000 ≤ d.val := by
              simp [astral, upperBasic]
            rw [if_neg same, order, order', if_congr turned rfl rfl, codeUnits, codeUnits]
            by_cases basic : c.val < 0x10000 <;> by_cases basic' : d.val < 0x10000
            · rw [if_pos basic, if_pos basic', if_neg (by omega), List.cons_lt_cons_iff]
              exact or_iff_left fun equal => apart equal.1
            · rw [if_pos basic, if_neg basic', List.cons_lt_cons_iff, or_iff_left fun equal => by omega]
              split <;> omega
            · rw [if_neg basic, if_pos basic', List.cons_lt_cons_iff, or_iff_left fun equal => by omega]
              split <;> omega
            · rw [if_neg basic, if_neg basic', if_neg (by omega), List.cons_lt_cons_iff, List.cons_lt_cons_iff]
              constructor
              · rintro (high | ⟨high, low | ⟨low, _⟩⟩) <;> omega
              · intro less
                by_cases high : (c.val - 0x10000) / 0x400 < (d.val - 0x10000) / 0x400
                · exact Or.inl (by omega)
                · exact Or.inr ⟨by omega, Or.inl (by omega)⟩

theorem utf16be_lt_iff : utf16be text < utf16be other ↔ codeUnits text < codeUnits other := by
  refine ⟨codeUnits_lt_of_utf16be, fun less => ?_⟩
  rw [utf16be_eq, utf16be_eq]
  exact flatMap_unitBytes_lt (codeUnits_small _) (codeUnits_small _) less

theorem utf16be_lt_iff_of_scalar (scalar : Scalar text) (scalar' : Scalar other) :
    utf16be text < utf16be other ↔ if crossed text other then other < text else text < other := by
  rw [utf16be_lt_iff, codeUnits_lt_iff scalar scalar']

theorem crossed_self (text : Str) : crossed text text = false := by
  induction text with
  | nil => rfl
  | cons c rest ih => rw [crossed, if_pos rfl, ih]

/-- The two orders agree on two keys iff the keys do not cross. -/
theorem orders_agree_iff (scalar : Scalar text) (scalar' : Scalar other) :
    ((text ≤ other → utf16be text ≤ utf16be other) ∧ (other ≤ text → utf16be other ≤ utf16be text)) ↔
      crossed text other = false := by
  have order := utf16be_lt_iff_of_scalar scalar scalar'
  have order' := utf16be_lt_iff_of_scalar scalar' scalar
  rw [crossed_comm other text] at order'
  cases cross : crossed text other with
  | false =>
      rw [cross, if_neg (by decide)] at order order'
      refine iff_of_true ⟨fun before => ?_, fun before => ?_⟩ rfl
      · exact not_lt.mp fun after => absurd before (not_le.mpr (order'.mp after))
      · exact not_lt.mp fun after => absurd before (not_le.mpr (order.mp after))
  | true =>
      rw [cross, if_pos rfl] at order order'
      refine iff_of_false (fun ⟨forward, backward⟩ => ?_) (by decide)
      rcases lt_trichotomy text other with less | rfl | more
      · exact absurd (forward less.le) (not_le.mpr (order'.mpr less))
      · rw [crossed_self] at cross
        cases cross
      · exact absurd (backward more.le) (not_le.mpr (order.mpr more))

end

/-- The two orders sort values with distinct keys into one list iff no two keys cross. -/
theorem sorted_eq_iff {α : Type*} (key : α → Str) {xs : List α} (apart : ∀ a ∈ xs, ∀ b ∈ xs, key a = key b → a = b)
    (scalar : ∀ a ∈ xs, Scalar (key a)) :
    (xs.insertionSort fun a b => key a ≤ key b) = (xs.insertionSort fun a b => utf16be (key a) ≤ utf16be (key b)) ↔
      ∀ a ∈ xs, ∀ b ∈ xs, crossed (key a) (key b) = false := by
  have total : Std.Total fun a b : α => key a ≤ key b := ⟨fun a b => le_total _ _⟩
  have trans : IsTrans α fun a b => key a ≤ key b := ⟨fun a b c => le_trans⟩
  have total' : Std.Total fun a b : α => utf16be (key a) ≤ utf16be (key b) := ⟨fun a b => le_total _ _⟩
  have trans' : IsTrans α fun a b => utf16be (key a) ≤ utf16be (key b) := ⟨fun a b c => le_trans⟩
  rw [insertionSort_eq_iff (fun a inside b inside' before after => apart a inside b inside' (le_antisymm before after))
    fun a inside b inside' before after => apart a inside b inside'
      (utf16be_injective (scalar a inside) (scalar b inside') (le_antisymm before after))]
  constructor
  · intro within a inside b inside'
    exact (orders_agree_iff (scalar a inside) (scalar b inside')).mp
      ⟨within a inside b inside', within b inside' a inside⟩
  · intro uncrossed a inside b inside'
    exact ((orders_agree_iff (scalar a inside) (scalar b inside')).mpr (uncrossed a inside b inside')).1

/-- The values of the JCS profile: integers a double holds exactly, and finite floats. -/
inductive JcsProfile : Json → Prop
  | null : JcsProfile .null
  | bool (b : Bool) : JcsProfile (.bool b)
  | int {n : Int} (exact : -(2 ^ 53 - 1) ≤ n ∧ n ≤ 2 ^ 53 - 1) : JcsProfile (.int n)
  | float (negative : Bool) {r : FloatRepr} (written : IsRepr r) : JcsProfile (.float (.finite negative r))
  | str (s : Str) : JcsProfile (.str s)
  | list {items : List Json} (each : ∀ item ∈ items, JcsProfile item) : JcsProfile (.list items)
  | dict {items : List (Str × Json)} (unique : (items.map Prod.fst).Nodup)
      (each : ∀ item ∈ items, JcsProfile item.2) : JcsProfile (.dict items)

theorem JcsProfile.nested (levels : Nat) : JcsProfile (nested levels) := by
  induction levels with
  | zero => exact .null
  | succ levels ih => exact .list (List.forall_mem_singleton.mpr ih)

/-- No float is written in two ways, and the keys of no object cross. -/
inductive Agreeing : Json → Prop
  | null : Agreeing .null
  | bool (b : Bool) : Agreeing (.bool b)
  | int (n : Int) : Agreeing (.int n)
  | float (negative : Bool) {r : FloatRepr} (alike : WrittenAlike r.decimal) : Agreeing (.float (.finite negative r))
  | str (s : Str) : Agreeing (.str s)
  | list {items : List Json} (each : ∀ item ∈ items, Agreeing item) : Agreeing (.list items)
  | dict {items : List (Str × Json)} (keys : ∀ a ∈ items, ∀ b ∈ items, crossed a.1 b.1 = false)
      (each : ∀ item ∈ items, Agreeing item.2) : Agreeing (.dict items)

theorem agreeing_list_iff {items : List Json} : Agreeing (.list items) ↔ ∀ item ∈ items, Agreeing item := by
  refine ⟨fun agreeing => ?_, .list⟩
  cases agreeing with
  | list each => exact each

theorem agreeing_dict_iff {items : List (Str × Json)} : Agreeing (.dict items) ↔
    (∀ a ∈ items, ∀ b ∈ items, crossed a.1 b.1 = false) ∧ ∀ item ∈ items, Agreeing item.2 := by
  refine ⟨fun agreeing => ?_, fun ⟨keys, each⟩ => .dict keys each⟩
  cases agreeing with
  | dict keys each => exact ⟨keys, each⟩

/-- The word `json.dumps` has for a finite float; another has some word. -/
def floatWord : Float64 → Word
  | .finite negative r =>
      ⟨(if negative then [45] else []) ++ r.text, by
        have sign : Wordy (if negative then [45] else []) := by cases negative <;> simp [Wordy, wordChar]
        have full : r.text ≠ [] := by simp [FloatRepr.text, r.wholeDigits]
        exact ⟨by simp [full], sign.append (wordy_text r)⟩⟩
  | _ => nullWord

mutual

/-- What the text of `json.dumps` says. -/
def dumpsTree : Json → Tree
  | .null => .word nullWord
  | .bool b => .word (boolWord b)
  | .int n => .word (intWord n)
  | .float x => .word (floatWord x)
  | .str s => .str s
  | .list items => .list (dumpsTreeAll items)
  | .dict items => .dict (dumpsTreeItems items)
termination_by structural value => value

def dumpsTreeAll : List Json → List Tree
  | [] => []
  | item :: rest => dumpsTree item :: dumpsTreeAll rest
termination_by structural items => items

def dumpsTreeItems : List (Str × Json) → List (Str × Tree)
  | [] => []
  | (key, item) :: rest => (key, dumpsTree item) :: dumpsTreeItems rest
termination_by structural items => items

end

theorem dumpsTreeAll_eq_map (items : List Json) : dumpsTreeAll items = items.map dumpsTree := by
  induction items with
  | nil => rfl
  | cons item rest ih => rw [dumpsTreeAll, ih, List.map_cons]

theorem dumpsTreeItems_eq_map (items : List (Str × Json)) :
    dumpsTreeItems items = items.map fun item => (item.1, dumpsTree item.2) := by
  induction items with
  | nil => rfl
  | cons item rest ih => rw [dumpsTreeItems, ih, List.map_cons]

theorem sortKeysAll_eq_map (items : List Json) : sortKeysAll items = items.map sortKeys := by
  induction items with
  | nil => rfl
  | cons item rest ih => rw [sortKeysAll, ih, List.map_cons]

theorem sortKeysItems_eq_map (items : List (Str × Json)) :
    sortKeysItems items = items.map fun item => (item.1, sortKeys item.2) := by
  induction items with
  | nil => rfl
  | cons item rest ih => rw [sortKeysItems, ih, List.map_cons]

theorem print_dumpsTree {value : Json} (profile : JcsProfile value) : (dumpsTree value).print = dumps value := by
  induction profile with
  | null | int | float | str => rfl
  | bool b => cases b <;> rfl
  | list each ih =>
      rw [dumpsTree, Tree.print, dumps, dumpsTreeAll_eq_map, printAll_eq_map, dumpsAll_eq_map, List.map_map]
      congr 3
      exact List.map_congr_left ih
  | dict unique each ih =>
      rw [dumpsTree, Tree.print, dumps, dumpsTreeItems_eq_map, printItems_eq_map, dumpsItems_eq_map, List.map_map]
      congr 3
      refine List.map_congr_left fun item member => ?_
      rw [Function.comp_apply, printItem, dumpsItem, ih item member]

section
variable {items : List (Str × Json)}

theorem dumpsTree_dict (items : List (Str × Json)) : dumpsTree (sortKeys (.dict items)) =
    .dict ((sortItems items).map fun item => (item.1, dumpsTree (sortKeys item.2))) := by
  rw [sortKeys, dumpsTree, dumpsTreeItems_eq_map, sortKeysItems_eq_map, sortItems, sortItems,
    ← List.map_insertionSort (fun a b => a.1 ≤ b.1) _ _ _ fun _ _ _ _ => Iff.rfl, List.map_map]
  rfl

theorem canonical_dict (items : List (Str × Json)) : canonical (.dict items) =
    .dict ((items.insertionSort fun a b => utf16be a.1 ≤ utf16be b.1).map fun item => (item.1, canonical item.2)) := by
  rw [canonical, canonicalize, tree, treeItems_eq_map, canonicalizeItems_eq_map,
    ← List.map_insertionSort (fun a b => utf16be a.1 ≤ utf16be b.1) _ _ _ fun _ _ _ _ => Iff.rfl, List.map_map]
  rfl

/-- The items of an object are written alike iff their keys do not cross and their values
are written alike. -/
theorem items_eq_iff {f g : Json → Tree} (unique : (items.map Prod.fst).Nodup)
    (scalar : ∀ item ∈ items, Scalar item.1) :
    ((sortItems items).map fun item => (item.1, f item.2)) =
        (items.insertionSort fun a b => utf16be a.1 ≤ utf16be b.1).map (fun item => (item.1, g item.2)) ↔
      (∀ a ∈ items, ∀ b ∈ items, crossed a.1 b.1 = false) ∧ ∀ item ∈ items, f item.2 = g item.2 := by
  have order := sorted_eq_iff Prod.fst (fun a inside b inside' => List.inj_on_of_nodup_map unique inside inside') scalar
  constructor
  · intro same
    have firsts : (sortItems items).map Prod.fst =
        (items.insertionSort fun a b => utf16be a.1 ≤ utf16be b.1).map Prod.fst := by
      have read := congrArg (List.map Prod.fst) same
      rwa [List.map_map, List.map_map] at read
    rw [sortItems, List.map_insertionSort _ (fun a b : Str => a ≤ b) _ _ fun _ _ _ _ => Iff.rfl,
      List.map_insertionSort _ (fun a b : Str => utf16be a ≤ utf16be b) _ _ fun _ _ _ _ => Iff.rfl] at firsts
    have uncrossed := (sorted_eq_iff id (fun a _ b _ same => same) (List.forall_mem_map.mpr scalar)).mp firsts
    simp only [List.forall_mem_map, id] at uncrossed
    refine ⟨uncrossed, fun item member => ?_⟩
    rw [sortItems, order.mpr uncrossed, List.map_inj_left] at same
    exact (Prod.mk.inj (same item ((List.mem_insertionSort _).mpr member))).2
  · rintro ⟨uncrossed, values⟩
    rw [sortItems, order.mpr uncrossed]
    exact List.map_congr_left fun item member =>
      congrArg (Prod.mk item.1) (values item ((List.mem_insertionSort _).mp member))

end

/-- `json.dumps` with sorted keys says what the canonical encoder says iff the value agrees. -/
theorem dumpsTree_eq_iff {value : Json} (profile : JcsProfile value) (encodable : Encodable value) :
    dumpsTree (sortKeys value) = canonical value ↔ Agreeing value := by
  induction profile with
  | null => exact iff_of_true rfl .null
  | bool b => exact iff_of_true rfl (.bool b)
  | @int n exact => exact iff_of_true rfl (.int n)
  | str s => exact iff_of_true rfl (.str s)
  | @float negative r written =>
      have written' := ecmaNumberString_eq_iff written negative
      obtain ⟨text, encoded⟩ : ∃ text, encode (.float (.finite negative r)) = .ok text := by
        obtain ⟨text, encoded, _⟩ := (encode_scalar_iff _).mpr encodable
        exact ⟨text, encoded⟩
      have printed := encode_ok _ _ encoded
      rw [encode] at encoded
      rw [encoded, Except.ok.injEq] at written'
      have alike : Agreeing (.float (.finite negative r)) ↔ WrittenAlike r.decimal := by
        refine ⟨fun agreeing => ?_, .float negative⟩
        cases agreeing with
        | float _ alike => exact alike
      rw [alike, ← written', printed]
      exact ⟨fun same => congrArg Tree.print same.symm, fun same => Tree.print_injective same.symm⟩
  | list each ih =>
      have inside := encodable_list_iff.mp encodable
      rw [agreeing_list_iff, canonical, canonicalize, sortKeys, dumpsTree, tree, Tree.list.injEq, dumpsTreeAll_eq_map,
        sortKeysAll_eq_map, treeAll_eq_map, canonicalizeAll_eq_map, List.map_map, List.map_map, List.map_inj_left]
      exact forall₂_congr fun item member => ih item member (inside item member)
  | dict unique each ih =>
      have inside := encodable_dict_iff.mp encodable
      rw [agreeing_dict_iff, dumpsTree_dict, canonical_dict, Tree.dict.injEq,
        items_eq_iff (f := fun item => dumpsTree (sortKeys item)) unique fun item member => (inside item member).1]
      exact and_congr_right' (forall₂_congr fun item member => ih item member (inside item member).2)

section
variable {value : Json}

theorem JcsProfile.sortKeys (profile : JcsProfile value) : JcsProfile (sortKeys value) := by
  induction profile with
  | null => exact .null
  | bool b => exact .bool b
  | int exact => exact .int exact
  | float negative written => exact .float negative written
  | str s => exact .str s
  | list each ih =>
      rw [Dumps.sortKeys, sortKeysAll_eq_map]
      exact .list (List.forall_mem_map.mpr ih)
  | @dict items unique each ih =>
      have sorted := List.perm_insertionSort (fun a b : Str × Json => a.1 ≤ b.1) (sortKeysItems items)
      rw [Dumps.sortKeys]
      refine .dict ((sorted.map Prod.fst).nodup_iff.mpr ?_) fun item member => ?_
      · rw [sortKeysItems_eq_map, List.map_map]
        exact unique
      · have stored := sorted.mem_iff.mp member
        rw [sortKeysItems_eq_map] at stored
        obtain ⟨own, inside, rfl⟩ := List.mem_map.mp stored
        exact ih own inside

theorem JcsProfile.canonicalize (profile : JcsProfile value) : JcsProfile (canonicalize value) := by
  induction profile with
  | null => exact .null
  | bool b => exact .bool b
  | int exact => exact .int exact
  | float negative written => exact .float negative written
  | str s => exact .str s
  | list each ih =>
      rw [Jcs.canonicalize, canonicalizeAll_eq_map]
      exact .list (List.forall_mem_map.mpr ih)
  | dict unique each ih =>
      refine .dict (nodup_canonicalItems unique) fun item member => ?_
      obtain ⟨own, inside, rfl⟩ := mem_canonicalItems member
      exact ih own inside

theorem encodable_sortKeys_iff {value : Json} : Encodable (sortKeys value) ↔ Encodable value := by
  induction value using Json.induct with
  | null | bool | int | float | str => rfl
  | list items each =>
      rw [sortKeys, sortKeysAll_eq_map, encodable_list_iff, encodable_list_iff, List.forall_mem_map]
      exact forall₂_congr each
  | dict items each =>
      rw [sortKeys, sortItems, sortKeysItems_eq_map, encodable_dict_iff, encodable_dict_iff]
      simp only [List.mem_insertionSort, List.forall_mem_map]
      exact forall₂_congr fun item member => and_congr_right fun _ => each item member

/-- The text of `json.dumps` has UTF-8 bytes iff no lone surrogate stands in the value. -/
theorem scalar_dumps_iff (profile : JcsProfile value) : Scalar (dumps value) ↔ Encodable value := by
  induction profile with
  | null => exact iff_of_true (scalar_ascii rfl) .null
  | bool b => cases b <;> exact iff_of_true (scalar_ascii rfl) (.bool _)
  | int exact => exact iff_of_true (scalar_word (wordy_intText _)) (.int exact)
  | @float negative r written =>
      exact iff_of_true (scalar_word (Dumps.floatWord (.finite negative r)).property.2) (.float negative r)
  | str s =>
      refine scalar_quote_iff.trans ⟨.str, fun encodable => ?_⟩
      cases encodable with
      | str scalar => exact scalar
  | list each ih =>
      rw [dumps, scalar_bracket_iff (by decide), dumpsAll_eq_map, List.forall_mem_map, encodable_list_iff]
      exact forall₂_congr ih
  | dict unique each ih =>
      rw [dumps, scalar_bracket_iff (by decide), dumpsItems_eq_map, List.forall_mem_map, encodable_dict_iff]
      refine forall₂_congr fun item member => ?_
      rw [dumpsItem, scalar_append_iff, scalar_cons_iff (by decide), scalar_quote_iff, ih item member]

theorem JcsProfile.encoded (profile : JcsProfile value) : ∃ text, encode value = .ok text := by
  induction profile with
  | null | str => exact ⟨_, rfl⟩
  | bool b => cases b <;> exact ⟨_, rfl⟩
  | int exact => exact ⟨_, if_pos exact⟩
  | @float negative r written =>
      obtain ⟨text, encoded, _⟩ := (encode_scalar_iff _).mpr (.float negative r)
      exact ⟨text, encoded⟩
  | @list items each ih =>
      obtain ⟨texts, inner⟩ := mapOk_isOk ih
      rw [← encodeAll_eq_mapOk] at inner
      exact ⟨_, bind_ok_iff.mpr ⟨texts, inner, rfl⟩⟩
  | @dict items unique each ih =>
      have inside : ∀ item ∈ items, ∃ text, encodeItem item = .ok text := fun item member => by
        obtain ⟨text, encoded⟩ := ih item member
        exact ⟨_, bind_ok_iff.mpr ⟨text, encoded, rfl⟩⟩
      obtain ⟨texts, inner⟩ := mapOk_isOk inside
      rw [← encodeItems_eq_mapOk] at inner
      exact ⟨_, bind_ok_iff.mpr ⟨texts, inner, rfl⟩⟩

theorem encodeUtf8_isOk_iff {text : Str} : (∃ bytes, encodeUtf8 text = .ok bytes) ↔ Scalar text := by
  simp only [encodeUtf8_eq_ok_iff, utf8_isSome_iff]

theorem scalar_canonical_iff (profile : JcsProfile value) : Scalar (canonical value).print ↔ Encodable value := by
  obtain ⟨text, encoded⟩ := profile.canonicalize.encoded
  rw [canonical, ← encode_ok _ _ encoded, ← encodable_canonicalize_iff, ← encode_scalar_iff]
  constructor
  · exact fun scalar => ⟨text, encoded, scalar⟩
  · rintro ⟨_, encoded', scalar⟩
    exact Except.ok.inj (encoded.symm.trans encoded') ▸ scalar

theorem boundlessBytes_eq (profile : JcsProfile value) : boundlessBytes value = encodeUtf8 (canonical value).print := by
  obtain ⟨text, encoded⟩ := profile.canonicalize.encoded
  rw [boundlessBytes, boundlessDumps, encoded, canonical, ← encode_ok _ _ encoded]
  rfl

/-- The bytes are those of the canonical text, as far as the stack lasts. -/
theorem jcsBytes_eq [Interpreter] (profile : JcsProfile value) :
    jcsBytes value = if Shallow value then encodeUtf8 (canonical value).print else .error .recursionError := by
  split
  · rename_i shallow
    rw [jcsBytes_of_shallow shallow, boundlessBytes_eq profile]
  · rename_i deep
    obtain ⟨text, encoded⟩ := profile.canonicalize.encoded
    rw [jcsBytes, jcsDumps_of_not_shallow encoded deep]
    rfl

/-- Texts have the same bytes iff they are one text, or neither has bytes. -/
theorem encodeUtf8_eq_iff {text other : Str} (alike : Scalar text ↔ Scalar other) :
    encodeUtf8 text = encodeUtf8 other ↔ ¬ Scalar text ∨ text = other := by
  rw [encodeUtf8, encodeUtf8]
  by_cases scalar : Scalar text
  · obtain ⟨bytes, first⟩ := utf8_isSome_iff.mpr scalar
    obtain ⟨bytes', second⟩ := utf8_isSome_iff.mpr (alike.mp scalar)
    rw [first, second, Except.ok.injEq]
    refine ⟨fun same => Or.inr (utf8_injective first (same ▸ second)), ?_⟩
    rintro (absent | rfl)
    · exact absurd scalar absent
    · exact Option.some.inj (first.symm.trans second)
  · have none : ∀ text, ¬ Scalar text → utf8 text = none := fun text absent =>
      Option.eq_none_iff_forall_ne_some.mpr fun bytes encoded => absent (utf8_isSome_iff.mp ⟨bytes, encoded⟩)
    rw [none text scalar, none other (alike.not.mp scalar)]
    exact iff_of_true rfl (Or.inl scalar)

/-- The text of `json.dumps` with sorted keys has the bytes of the canonical one iff the value
agrees, or neither has bytes. -/
theorem encodeUtf8_sortKeys_iff (profile : JcsProfile value) :
    encodeUtf8 (dumps (sortKeys value)) = encodeUtf8 (canonical value).print ↔ ¬ Encodable value ∨ Agreeing value := by
  have scalar : Scalar (dumps (sortKeys value)) ↔ Encodable value := by
    rw [scalar_dumps_iff profile.sortKeys, encodable_sortKeys_iff]
  rw [encodeUtf8_eq_iff (scalar.trans (scalar_canonical_iff profile).symm), scalar]
  by_cases encodable : Encodable value
  · rw [← dumpsTree_eq_iff profile encodable, ← print_dumpsTree profile.sortKeys]
    simp only [encodable, not_true, false_or]
    exact ⟨Tree.print_injective, congrArg Tree.print⟩
  · simp [encodable]

end
end Argentum.Dumps
