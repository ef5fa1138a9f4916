import Argentum.Trail.Encodable
import Argentum.Trail.Loads
import Mathlib.Data.List.Perm.Basic

/-! The canonical text of a value without floats is canonical. Its keys ascend by UTF-16
code units, no white space stands outside its strings, it reads back as the value, and
values have one canonical text if and only if they are equal as JSON, where an object is
what it maps each key to. -/
namespace Argentum.Jcs
open Text JsonText Dumps Loads

/-- The UTF-16 code units of a text. -/
def codeUnits : Str → List Nat
  | [] => []
  | c :: rest =>
      if c.val < 0x10000 then c.val :: codeUnits rest
      else (0xD800 + (c.val - 0x10000) / 0x400) :: (0xDC00 + (c.val - 0x10000) % 0x400) :: codeUnits rest

section
variable {text other : Str}

theorem codeUnits_small (text : Str) : ∀ unit ∈ codeUnits text, unit < 0x10000 := by
  induction text with
  | nil => simp [codeUnits]
  | cons c rest ih =>
      have range := c.isLt
      unfold codeUnits
      split
      · rename_i small
        exact List.forall_mem_cons.mpr ⟨small, ih⟩
      · exact List.forall_mem_cons.mpr ⟨by omega, List.forall_mem_cons.mpr ⟨by omega, ih⟩⟩

def unitBytes (unit : Nat) : Bytes := [byte (unit / 256), byte (unit % 256)]

theorem utf16be_eq (text : Str) : utf16be text = (codeUnits text).flatMap unitBytes := by
  induction text with
  | nil => rfl
  | cons c rest ih =>
      unfold utf16be codeUnits
      split
      · rw [List.flatMap_cons, ih]
        rfl
      · rw [List.flatMap_cons, List.flatMap_cons, ih]
        rfl

theorem byte_lt_byte {m n : Nat} (less : m < n) (small : n < 256) : byte m < byte n := by
  rw [Fin.lt_def, val_byte (by omega), val_byte small]
  exact less

/-- Big-endian bytes compare as the code units do. -/
theorem flatMap_unitBytes_lt {units others : List Nat} (small : ∀ unit ∈ units, unit < 0x10000)
    (small' : ∀ unit ∈ others, unit < 0x10000) (less : units < others) :
    units.flatMap unitBytes < others.flatMap unitBytes := by
  induction units generalizing others with
  | nil =>
      cases others with
      | nil => exact absurd less (List.lt_irrefl [])
      | cons other rest => exact List.nil_lt_cons _ _
  | cons unit rest ih =>
      cases others with
      | nil => exact absurd less (List.not_lt_nil _)
      | cons other rest' =>
          have bound := small unit List.mem_cons_self
          have bound' := small' other List.mem_cons_self
          simp only [List.flatMap_cons, unitBytes, List.cons_append, List.nil_append]
          rw [List.cons_lt_cons_iff] at less ⊢
          rcases less with before | ⟨rfl, later⟩
          · rcases Nat.lt_or_ge (unit / 256) (other / 256) with high | high
            · exact Or.inl (byte_lt_byte high (by omega))
            · have same : unit / 256 = other / 256 := by omega
              refine Or.inr ⟨by rw [same], ?_⟩
              exact List.cons_lt_cons_iff.mpr (Or.inl (byte_lt_byte (by omega) (by omega)))
          · refine Or.inr ⟨rfl, List.cons_lt_cons_iff.mpr (Or.inr ⟨rfl, ?_⟩)⟩
            exact ih (fun unit member => small unit (List.mem_cons_of_mem _ member))
              (fun unit member => small' unit (List.mem_cons_of_mem _ member)) later

theorem codeUnits_lt_of_utf16be (less : utf16be text < utf16be other) : codeUnits text < codeUnits other := by
  rw [utf16be_eq, utf16be_eq] at less
  rcases lt_trichotomy (codeUnits text) (codeUnits other) with before | same | after
  · exact before
  · rw [same] at less
    exact absurd less (lt_irrefl _)
  · exact absurd less (flatMap_unitBytes_lt (codeUnits_small _) (codeUnits_small _) after).asymm

/-- Scalar values are read back from the code units. -/
theorem codeUnits_injective (scalar : Scalar text) (scalar' : Scalar other)
    (same : codeUnits text = codeUnits other) : text = other := by
  induction text generalizing other with
  | nil =>
      cases other with
      | nil => rfl
      | cons d rest =>
          unfold codeUnits at same
          split at same <;> cases same
  | cons c rest ih =>
      cases other with
      | nil =>
          unfold codeUnits at same
          split at same <;> cases same
      | cons d rest' =>
          have first := scalar c List.mem_cons_self
          have second := scalar' d List.mem_cons_self
          have range := c.isLt
          have range' := d.isLt
          have later := @ih rest' (fun c member => scalar c (List.mem_cons_of_mem _ member))
            (fun c member => scalar' c (List.mem_cons_of_mem _ member))
          rw [codeUnits, codeUnits] at same
          split at same <;> split at same
          · obtain ⟨units, rests⟩ := List.cons.inj same
            rw [Fin.ext units, later rests]
          · have units := List.head_eq_of_cons_eq same
            omega
          · have units := List.head_eq_of_cons_eq same
            omega
          · obtain ⟨high, lows⟩ := List.cons.inj same
            obtain ⟨low, rests⟩ := List.cons.inj lows
            rw [Fin.ext (show c.val = d.val by omega), later rests]

theorem utf16be_injective (scalar : Scalar text) (scalar' : Scalar other) (same : utf16be text = utf16be other) :
    text = other := by
  apply codeUnits_injective scalar scalar'
  rw [utf16be_eq, utf16be_eq] at same
  rcases lt_trichotomy (codeUnits text) (codeUnits other) with before | equal | after
  · have less := flatMap_unitBytes_lt (codeUnits_small _) (codeUnits_small _) before
    rw [same] at less
    exact absurd less (lt_irrefl _)
  · exact equal
  · have less := flatMap_unitBytes_lt (codeUnits_small _) (codeUnits_small _) after
    rw [same] at less
    exact absurd less (lt_irrefl _)

end

/-- The values of the profile: integers a double holds exactly, text of Unicode scalar values,
and no floats. -/
inductive InProfile : Json → Prop
  | null : InProfile .null
  | bool (b : Bool) : InProfile (.bool b)
  | int {n : Int} (exact : -(2 ^ 53 - 1) ≤ n ∧ n ≤ 2 ^ 53 - 1) : InProfile (.int n)
  | str {s : Str} (scalar : Scalar s) : InProfile (.str s)
  | list {items : List Json} (each : ∀ item ∈ items, InProfile item) : InProfile (.list items)
  | dict {items : List (Str × Json)} (unique : (items.map Prod.fst).Nodup)
      (keys : ∀ item ∈ items, Scalar item.1) (each : ∀ item ∈ items, InProfile item.2) : InProfile (.dict items)

/-- Equality of values without floats. An object is what it maps each key to, and a
boolean is no integer. -/
inductive Equal : Json → Json → Prop
  | null : Equal .null .null
  | bool (b : Bool) : Equal (.bool b) (.bool b)
  | int (n : Int) : Equal (.int n) (.int n)
  | str (s : Str) : Equal (.str s) (.str s)
  | list {items others : List Json} (length : items.length = others.length)
      (each : ∀ (i : Nat) (item other : Json), items[i]? = some item → others[i]? = some other → Equal item other) :
      Equal (.list items) (.list others)
  | dict {items others : List (Str × Json)}
      (keys : ∀ key, (items.lookup key).isSome = (others.lookup key).isSome)
      (each : ∀ (key : Str) (item other : Json), items.lookup key = some item → others.lookup key = some other →
        Equal item other) : Equal (.dict items) (.dict others)

/-- The keys of every object of a text ascend by UTF-16 code units, none twice. -/
inductive Ascending : Tree → Prop
  | word (text : Word) : Ascending (.word text)
  | str (text : Str) : Ascending (.str text)
  | list {items : List Tree} (each : ∀ item ∈ items, Ascending item) : Ascending (.list items)
  | dict {items : List (Str × Tree)} (sorted : items.Pairwise fun a b => codeUnits a.1 < codeUnits b.1)
      (each : ∀ item ∈ items, Ascending item.2) : Ascending (.dict items)

/-- Where the next character of a JSON text stands. -/
inductive Place where
  | plain
  | quoted
  | escaped

/-- The characters of a JSON text that stand outside its quoted strings. -/
def outside : Place → Str → Str
  | _, [] => []
  | .plain, c :: rest => if c = doubleQuote then outside .quoted rest else c :: outside .plain rest
  | .quoted, c :: rest =>
      if c = doubleQuote then outside .plain rest
      else if c = backslash then outside .escaped rest
      else outside .quoted rest
  | .escaped, _ :: rest => outside .quoted rest

section
variable {text other : Str}

theorem InProfile.loadable {value : Json} (inProfile : InProfile value) : Loadable value := by
  induction inProfile with
  | null => exact .null
  | bool b => exact .bool b
  | int exact => exact .int _
  | str scalar => exact .str _
  | list each ih => exact .list ih
  | dict unique keys each ih => exact .dict unique ih

theorem outside_quoted {c : CodePoint} (plain : c ≠ doubleQuote ∧ c ≠ backslash) (rest : Str) :
    outside .quoted (c :: rest) = outside .quoted rest := by
  rw [outside, if_neg plain.1, if_neg plain.2]

theorem outside_escape (c : CodePoint) (rest : Str) :
    outside .quoted (escape c ++ rest) = outside .quoted rest := by
  unfold escape
  split
  · rfl
  split
  · rfl
  iterate 5
    split
    · rfl
  split
  · rename_i small
    have digit : ∀ n : Fin 16, hexDigit n ≠ doubleQuote ∧ hexDigit n ≠ backslash := by decide
    change outside .quoted (48 :: 48 :: hexDigit _ :: hexDigit _ :: rest) = _
    rw [outside_quoted (by decide), outside_quoted (by decide), outside_quoted (digit _), outside_quoted (digit _)]
  · rename_i plain notSlash _ _ _ _ _ _
    exact outside_quoted ⟨plain, notSlash⟩ rest

theorem outside_quote (text rest : Str) : outside .plain (quote text ++ rest) = outside .plain rest := by
  have inner : outside .quoted (text.flatMap escape ++ doubleQuote :: rest) = outside .plain rest := by
    induction text with
    | nil => rfl
    | cons c text ih => rw [List.flatMap_cons, List.append_assoc, outside_escape, ih]
  rw [quote, List.append_assoc, List.cons_append, outside, if_pos rfl]
  exact inner

/-- A text adds no white space outside the strings of what it stands before. -/
def Tight (text : Str) : Prop :=
  ∀ rest, (∀ c ∈ outside .plain rest, isWhitespace c = false) →
    ∀ c ∈ outside .plain (text ++ rest), isWhitespace c = false

theorem Tight.append (first : Tight text) (second : Tight other) : Tight (text ++ other) := by
  intro rest plain
  rw [List.append_assoc]
  exact first _ (second rest plain)

theorem tight_quote (text : Str) : Tight (quote text) := by
  intro rest plain
  rwa [outside_quote]

theorem tight_singleton {c : CodePoint} (plain : isWhitespace c = false) (apart : c ≠ doubleQuote) : Tight [c] := by
  intro rest others
  rw [List.singleton_append, outside, if_neg apart]
  exact List.forall_mem_cons.mpr ⟨plain, others⟩

theorem tight_nil : Tight [] := fun _ plain => plain

theorem Tight.cons {c : CodePoint} (plain : isWhitespace c = false) (apart : c ≠ doubleQuote) (tight : Tight text) :
    Tight (c :: text) := (tight_singleton plain apart).append tight

theorem tight_join {texts : List Str} (each : ∀ text ∈ texts, Tight text) : Tight (join comma texts) := by
  induction texts with
  | nil => exact tight_nil
  | cons text rest ih =>
      cases rest with
      | nil => exact each text List.mem_cons_self
      | cons next rest =>
          have later := ih fun text member => each text (List.mem_cons_of_mem _ member)
          exact (each text List.mem_cons_self).append (later.cons rfl (by decide))

theorem wordChar_plain {c : CodePoint} (word : wordChar c = true) : isWhitespace c = false ∧ c ≠ doubleQuote := by
  constructor
  · cases white : isWhitespace c with
    | false => rfl
    | true =>
        simp only [isWhitespace, decide_eq_true_eq, List.mem_cons, List.not_mem_nil, or_false] at white
        rcases white with rfl | rfl | rfl | rfl <;> cases word
  · rintro rfl
    cases word

theorem tight_word {text : Str} (wordy : Wordy text) : Tight text := by
  induction text with
  | nil => exact tight_nil
  | cons c rest ih =>
      obtain ⟨plain, apart⟩ := wordChar_plain (wordy c List.mem_cons_self)
      exact (ih fun c member => wordy c (List.mem_cons_of_mem _ member)).cons plain apart

/-- No tree prints white space between its parts. -/
theorem tight_print (tree : Tree) : Tight tree.print := by
  induction tree using Tree.induct with
  | word text => exact tight_word text.property.2
  | str text => exact tight_quote text
  | list items each =>
      rw [Tree.print, printAll_eq_map]
      refine Tight.append (Tight.cons rfl (by decide) (tight_join ?_)) (tight_singleton rfl (by decide))
      exact List.forall_mem_map.mpr each
  | dict items each =>
      rw [Tree.print, printItems_eq_map]
      refine Tight.append (Tight.cons rfl (by decide) (tight_join ?_)) (tight_singleton rfl (by decide))
      refine List.forall_mem_map.mpr fun item member => ?_
      exact (tight_quote item.1).append ((each item member).cons rfl (by decide))

theorem no_whitespace_print (tree : Tree) : ∀ c ∈ outside .plain tree.print, isWhitespace c = false := by
  have whole := tight_print tree [] (by simp [outside])
  rwa [List.append_nil] at whole

end

section
variable {items others : List (Str × Json)}

theorem mem_canonicalItems {item : Str × Json} (member : item ∈ (canonicalizeItems items).insertionSort fun a b =>
    utf16be a.1 ≤ utf16be b.1) : ∃ own ∈ items, item = (own.1, canonicalize own.2) := by
  rw [List.mem_insertionSort, canonicalizeItems_eq_map] at member
  obtain ⟨own, stored, rfl⟩ := List.mem_map.mp member
  exact ⟨own, stored, rfl⟩

theorem nodup_canonicalItems (unique : (items.map Prod.fst).Nodup) :
    (((canonicalizeItems items).insertionSort fun a b => utf16be a.1 ≤ utf16be b.1).map Prod.fst).Nodup := by
  have keys := (List.perm_insertionSort (fun a b : Str × Json => utf16be a.1 ≤ utf16be b.1)
    (canonicalizeItems items)).map Prod.fst
  rw [keys.nodup_iff, canonicalizeItems_eq_map, List.map_map]
  exact unique

/-- No two keys share their code units, so the sorted keys ascend. -/
theorem pairwise_canonicalItems (unique : (items.map Prod.fst).Nodup) (keys : ∀ item ∈ items, Scalar item.1) :
    ((canonicalizeItems items).insertionSort fun a b => utf16be a.1 ≤ utf16be b.1).Pairwise fun a b =>
      codeUnits a.1 < codeUnits b.1 := by
  have apart := List.pairwise_map.mp (nodup_canonicalItems unique)
  refine ((pairwise_sortedItems _).and apart).imp_of_mem ?_
  rintro a b first second ⟨before, apart⟩
  obtain ⟨own, stored, rfl⟩ := mem_canonicalItems first
  obtain ⟨own', stored', rfl⟩ := mem_canonicalItems second
  have different := fun same => apart (utf16be_injective (keys own stored) (keys own' stored') same)
  exact codeUnits_lt_of_utf16be (lt_of_le_of_ne before different)

theorem InProfile.canonicalize {value : Json} (inProfile : InProfile value) : InProfile (canonicalize value) := by
  induction inProfile with
  | null => exact .null
  | bool b => exact .bool b
  | int exact => exact .int exact
  | str scalar => exact .str scalar
  | list each ih =>
      rw [Jcs.canonicalize, canonicalizeAll_eq_map]
      exact .list (List.forall_mem_map.mpr ih)
  | dict unique keys each ih =>
      refine .dict (nodup_canonicalItems unique) (fun item member => ?_) fun item member => ?_
      · obtain ⟨own, stored, rfl⟩ := mem_canonicalItems member
        exact keys own stored
      · obtain ⟨own, stored, rfl⟩ := mem_canonicalItems member
        exact ih own stored

theorem ascending_canonical {value : Json} (inProfile : InProfile value) : Ascending (canonical value) := by
  induction inProfile with
  | null => exact .word _
  | bool b => exact .word _
  | int exact => exact .word _
  | str scalar => exact .str _
  | list each ih =>
      rw [canonical, Jcs.canonicalize, tree, treeAll_eq_map, canonicalizeAll_eq_map, List.map_map]
      exact .list (List.forall_mem_map.mpr ih)
  | dict unique keys each ih =>
      rw [canonical, Jcs.canonicalize, tree, treeItems_eq_map]
      refine .dict (List.pairwise_map.mpr (pairwise_canonicalItems unique keys)) fun item member => ?_
      obtain ⟨sorted, found, rfl⟩ := List.mem_map.mp member
      obtain ⟨own, stored, rfl⟩ := mem_canonicalItems found
      exact ih own stored

theorem lookup_eq_some_iff_mem {α : Type*} {items : List (Str × α)} (unique : (items.map Prod.fst).Nodup) {key : Str}
    {value : α} : items.lookup key = some value ↔ (key, value) ∈ items := by
  induction items with
  | nil => simp
  | cons item rest ih =>
      obtain ⟨named, stored⟩ := item
      obtain ⟨fresh, unique⟩ := List.nodup_cons.mp unique
      rw [List.lookup_cons, List.mem_cons, Prod.mk.injEq]
      by_cases here : key = named
      · subst here
        have absent : (key, value) ∉ rest := fun member => fresh (List.mem_map.mpr ⟨_, member, rfl⟩)
        simp [absent, eq_comm]
      · rw [beq_false_of_ne here, ih unique]
        simp [here]

/-- What a dictionary maps its keys to fixes its items up to their order. -/
theorem perm_of_lookup {α : Type*} {items others : List (Str × α)} (unique : (items.map Prod.fst).Nodup)
    (unique' : (others.map Prod.fst).Nodup) (same : ∀ key, items.lookup key = others.lookup key) :
    items.Perm others := by
  refine (List.perm_ext_iff_of_nodup unique.of_map unique'.of_map).mpr ?_
  rintro ⟨key, value⟩
  rw [← lookup_eq_some_iff_mem unique, ← lookup_eq_some_iff_mem unique', same]

theorem lookup_canonicalItems (items : List (Str × Json)) (key : Str) :
    ((canonicalizeItems items).insertionSort fun a b => utf16be a.1 ≤ utf16be b.1).lookup key =
      (items.lookup key).map canonicalize := by
  rw [lookup_insertionSort fun a b same => (congrArg utf16be same).le, canonicalizeItems_eq_map, lookup_map]

theorem Equal.symm {value other : Json} (same : Equal value other) : Equal other value := by
  induction same with
  | null => exact .null
  | bool b => exact .bool b
  | int n => exact .int n
  | str s => exact .str s
  | list length each ih => exact .list length.symm fun i item other first second => ih i other item second first
  | dict keys each ih =>
      exact .dict (fun key => (keys key).symm) fun key item other first second => ih key other item second first

theorem Equal.trans {first second third : Json} (same : Equal first second) (same' : Equal second third) :
    Equal first third := by
  induction same generalizing third with
  | null | bool b | int n | str s => exact same'
  | @list items others length each ih =>
      cases same' with
      | list length' each' =>
          refine .list (length.trans length') fun i item last here there => ?_
          have middle : i < others.length := length ▸ (List.getElem?_eq_some_iff.mp here).1
          have shared := List.getElem?_eq_getElem middle
          exact ih i item _ here shared (each' i _ last shared there)
  | dict keys each ih =>
      cases same' with
      | dict keys' each' =>
          refine .dict (fun key => (keys key).trans (keys' key)) fun key item last here there => ?_
          obtain ⟨middle, found⟩ := Option.isSome_iff_exists.mp ((keys key).symm.trans (here ▸ rfl))
          exact ih key item middle here found (each' key middle last found there)

/-- Sorting its keys leaves a value what it is. -/
theorem equal_canonicalize {value : Json} (loadable : Loadable value) : Equal value (canonicalize value) := by
  induction loadable with
  | null => exact .null
  | bool b => exact .bool b
  | int n => exact .int n
  | str s => exact .str s
  | list each ih =>
      rw [Jcs.canonicalize, canonicalizeAll_eq_map]
      refine .list (List.length_map _).symm fun i item other here there => ?_
      rw [List.getElem?_map, here, Option.map_some] at there
      exact Option.some.inj there ▸ ih item (List.mem_of_getElem? here)
  | dict unique each ih =>
      refine .dict (fun key => ?_) fun key item other here there => ?_
      · rw [lookup_canonicalItems, Option.isSome_map]
      · rw [lookup_canonicalItems, here, Option.map_some] at there
        exact Option.some.inj there ▸ ih _ ((lookup_eq_some_iff_mem unique).mp here)

theorem Equal.refl {value : Json} (loadable : Loadable value) : Equal value value :=
  (equal_canonicalize loadable).trans (equal_canonicalize loadable).symm

/-- Items in another order make the same object. -/
theorem Equal.of_perm (loadable : Loadable (.dict items)) (permuted : items.Perm others) :
    Equal (.dict items) (.dict others) := by
  cases loadable with
  | dict unique each =>
      have unique' := (permuted.map Prod.fst).nodup_iff.mp unique
      have lookups : ∀ key, items.lookup key = others.lookup key := by
        intro key
        refine Option.ext fun item => ?_
        rw [lookup_eq_some_iff_mem unique, lookup_eq_some_iff_mem unique', permuted.mem_iff]
      refine .dict (fun key => by rw [lookups]) fun key item other here there => ?_
      rw [lookups, there] at here
      cases here
      exact .refl (each _ (permuted.mem_iff.mpr ((lookup_eq_some_iff_mem unique').mp there)))

/-- The order of the keys is all that sorting forgets. -/
theorem canonicalize_of_equal {value other : Json} (same : Equal value other) (inProfile : InProfile value)
    (inProfile' : InProfile other) : canonicalize value = canonicalize other := by
  induction same with
  | null | bool b | int n | str s => rfl
  | @list items others length each ih =>
      cases inProfile with
      | list within =>
      cases inProfile' with
      | list within' =>
          rw [Jcs.canonicalize, Jcs.canonicalize, canonicalizeAll_eq_map, canonicalizeAll_eq_map]
          congr 1
          refine List.ext_getElem (by simp [length]) fun i here there => ?_
          rw [List.length_map] at here there
          rw [List.getElem_map, List.getElem_map]
          exact ih i _ _ (List.getElem?_eq_getElem here) (List.getElem?_eq_getElem there)
            (within _ (List.getElem_mem here)) (within' _ (List.getElem_mem there))
  | @dict items others keys each ih =>
      cases inProfile with
      | dict unique scalar within =>
      cases inProfile' with
      | dict unique' scalar' within' =>
          have lookups : ∀ key,
              ((canonicalizeItems items).insertionSort fun a b => utf16be a.1 ≤ utf16be b.1).lookup key =
              ((canonicalizeItems others).insertionSort fun a b => utf16be a.1 ≤ utf16be b.1).lookup key := by
            intro key
            rw [lookup_canonicalItems, lookup_canonicalItems]
            have there := keys key
            cases here : items.lookup key with
            | none =>
                rw [here] at there
                rw [Option.isSome_eq_false_iff.mp there.symm |> Option.isNone_iff_eq_none.mp]
            | some item =>
                rw [here] at there
                obtain ⟨other, found⟩ := Option.isSome_iff_exists.mp there.symm
                rw [found, Option.map_some, Option.map_some, ih key item other here found
                  (within _ ((lookup_eq_some_iff_mem unique).mp here))
                  (within' _ ((lookup_eq_some_iff_mem unique').mp found))]
          have permuted := perm_of_lookup (nodup_canonicalItems unique) (nodup_canonicalItems unique') lookups
          rw [Jcs.canonicalize, Jcs.canonicalize]
          exact congrArg _ (permuted.eq_of_pairwise (fun a b _ _ before after => absurd after before.asymm)
            (pairwise_canonicalItems unique scalar) (pairwise_canonicalItems unique' scalar'))

end

theorem InProfile.encodable {value : Json} (inProfile : InProfile value) : Encodable value := by
  induction inProfile with
  | null => exact .null
  | bool b => exact .bool b
  | int exact => exact .int exact
  | str scalar => exact .str scalar
  | list each ih => exact .list ih
  | dict unique keys each ih => exact .dict keys ih

section
variable [Interpreter] {value other : Json}

/-- The encoder writes the values of the profile that are not nested too deep. -/
theorem InProfile.jcsBytes (inProfile : InProfile value) (shallow : Shallow value) :
    ∃ bytes, jcsDumps value = .ok (canonical value).print ∧ jcsBytes value = .ok bytes ∧
      utf8 (canonical value).print = some bytes := by
  obtain ⟨bytes, encoded⟩ := jcsBytes_isOk_iff.mpr ⟨shallow, inProfile.encodable⟩
  obtain ⟨text, dumped, utf⟩ := jcsBytes_ok encoded
  obtain rfl := encode_ok _ _ (jcsDumps_eq_ok_iff.mp dumped).2
  exact ⟨bytes, dumped, encoded, utf⟩

/-- And raises `RecursionError` of the others. -/
theorem InProfile.raises (inProfile : InProfile value) (deep : ¬ Shallow value) :
    jcsDumps value = .error .recursionError ∧ Jcs.jcsBytes value = .error .recursionError := by
  obtain ⟨text, encoded, _⟩ :=
    (encode_scalar_iff (Jcs.canonicalize value)).mpr (encodable_canonicalize_iff.mpr inProfile.encodable)
  have raised := jcsDumps_of_not_shallow encoded deep
  exact ⟨raised, by rw [Jcs.jcsBytes, raised]; rfl⟩

/-- The canonical text of a value that is not nested too deep is canonical, and its bytes tell
values apart. -/
theorem canonicalText (parseFloat : Str → Float64) (inProfile : InProfile value) (inProfile' : InProfile other) :
    (Shallow value →
      (∃ text bytes, jcsDumps value = .ok text ∧ jcsBytes value = .ok bytes ∧
        (∃ parts, text = parts.print ∧ Ascending parts) ∧
        (∀ c ∈ outside .plain text, isWhitespace c = false) ∧
        ∃ back, loads parseFloat text = .ok back ∧ Equal back value) ∧
      (jcsBytes value = jcsBytes other → Equal value other)) ∧
    (¬ Shallow value → jcsDumps value = .error .recursionError ∧ jcsBytes value = .error .recursionError) ∧
    (Equal value other → jcsDumps value = jcsDumps other) := by
  refine ⟨fun shallow => ?_, inProfile.raises, fun same =>
    jcsDumps_congr (canonicalize_of_equal same inProfile inProfile')⟩
  obtain ⟨bytes, dumped, encoded, utf⟩ := inProfile.jcsBytes shallow
  have back : loads parseFloat _ = _ := (loads_of_boundlessDumps inProfile.loadable (jcsDumps_eq_ok_iff.mp dumped).2).1
  refine ⟨⟨_, bytes, dumped, encoded, ⟨_, rfl, ascending_canonical inProfile⟩, no_whitespace_print _, _, back,
    (equal_canonicalize inProfile.loadable).symm⟩, fun same => ?_⟩
  obtain ⟨shallow', _⟩ := jcsBytes_isOk_iff.mp ⟨bytes, same ▸ encoded⟩
  obtain ⟨bytes', dumped', encoded', utf'⟩ := inProfile'.jcsBytes shallow'
  rw [encoded, encoded', Except.ok.injEq] at same
  subst same
  have texts := utf8_injective utf utf'
  have back' : loads parseFloat _ = _ :=
    (loads_of_boundlessDumps inProfile'.loadable (jcsDumps_eq_ok_iff.mp dumped').2).1
  rw [texts, back', Except.ok.injEq] at back
  have sorted := equal_canonicalize inProfile.loadable
  rw [← back] at sorted
  exact sorted.trans (equal_canonicalize inProfile'.loadable).symm

end

section
open Cpython

/-- U+1F600 stands before U+FF46, though its code point is the larger one. -/
theorem canonicalText_astral :
    let astral : Str × Json := ([0x1F600], .list [.bool true, .int 1])
    let fullwidth : Str × Json := ([0xFF46], .null)
    (∃ text bytes, jcsDumps (.dict [fullwidth, astral]) = .ok text ∧
      jcsBytes (.dict [fullwidth, astral]) = .ok bytes ∧ (∃ parts, text = parts.print ∧ Ascending parts) ∧
      (∀ c ∈ outside .plain text, isWhitespace c = false) ∧
      ∃ back, loads (fun _ => .nan) text = .ok back ∧ Equal back (.dict [fullwidth, astral])) ∧
    jcsDumps (.dict [fullwidth, astral]) = jcsDumps (.dict [astral, fullwidth]) := by
  intro astral fullwidth
  have keys : ∀ item ∈ [fullwidth, astral], Scalar item.1 := by
    refine List.forall_mem_cons.mpr ⟨?_, List.forall_mem_singleton.mpr ?_⟩
    · exact List.forall_mem_singleton.mpr (Or.inr (by decide))
    · exact List.forall_mem_singleton.mpr (Or.inr (by decide))
  have each : ∀ item ∈ [fullwidth, astral], InProfile item.2 := by
    refine List.forall_mem_cons.mpr ⟨.null, List.forall_mem_singleton.mpr (.list ?_)⟩
    exact List.forall_mem_cons.mpr ⟨.bool true, List.forall_mem_singleton.mpr (.int (by decide))⟩
  have swapped : [fullwidth, astral].Perm [astral, fullwidth] := .swap _ _ []
  have first : InProfile (.dict [fullwidth, astral]) := .dict (by decide) keys each
  have second : InProfile (.dict [astral, fullwidth]) :=
    .dict (by decide) (fun item member => keys item (swapped.mem_iff.mpr member))
      fun item member => each item (swapped.mem_iff.mpr member)
  have canonical := canonicalText (fun _ => .nan) first second
  exact ⟨(canonical.1 (shallow_of_depth (by decide))).1, canonical.2.2 (.of_perm first.loadable swapped)⟩

/-- So many lists in each other. -/
def nested : Nat → Json
  | 0 => .null
  | levels + 1 => .list [nested levels]

/-- The stack does not last for 400 lists. -/
theorem not_canonicalText_nested : InProfile (nested 400) ∧ jcsDumps (nested 400) = .error .recursionError := by
  have inProfile : ∀ levels, InProfile (nested levels) := by
    intro levels
    induction levels with
    | zero => exact .null
    | succ levels ih => exact .list (List.forall_mem_singleton.mpr ih)
  exact ⟨inProfile 400, ((inProfile 400).raises (by decide +kernel)).1⟩

end

end Argentum.Jcs
