import Argentum.Trail.Jcs

/-! What the canonical encoder accepts: integers that a double holds exactly, finite floats
and text of Unicode scalar values, at every level. Everything else raises `ValueError`. -/
namespace Argentum.Jcs
open Text JsonText

/-- A text of Unicode scalar values: no surrogate stands in it. -/
def Scalar (text : Str) : Prop := ∀ c ∈ text, c.val < 0xD800 ∨ 0xDFFF < c.val

/-- The values that have a canonical text. -/
inductive Encodable : Json → Prop
  | null : Encodable .null
  | bool (b : Bool) : Encodable (.bool b)
  | int {n : Int} (exact : -(2 ^ 53 - 1) ≤ n ∧ n ≤ 2 ^ 53 - 1) : Encodable (.int n)
  | float (negative : Bool) (text : FloatRepr) : Encodable (.float (.finite negative text))
  | str {s : Str} (scalar : Scalar s) : Encodable (.str s)
  | list {items : List Json} (each : ∀ item ∈ items, Encodable item) : Encodable (.list items)
  | dict {items : List (Str × Json)} (keys : ∀ item ∈ items, Scalar item.1)
      (each : ∀ item ∈ items, Encodable item.2) : Encodable (.dict items)

theorem encodable_str_iff {text : Str} : Encodable (.str text) ↔ Scalar text := by
  refine ⟨fun encodable => ?_, .str⟩
  cases encodable with
  | str scalar => exact scalar

theorem encodable_list_iff {items : List Json} : Encodable (.list items) ↔ ∀ item ∈ items, Encodable item := by
  refine ⟨fun encodable => ?_, .list⟩
  cases encodable with
  | list each => exact each

theorem encodable_dict_iff {items : List (Str × Json)} :
    Encodable (.dict items) ↔ ∀ item ∈ items, Scalar item.1 ∧ Encodable item.2 := by
  refine ⟨fun encodable => ?_, fun each => .dict (fun item member => (each item member).1)
    fun item member => (each item member).2⟩
  cases encodable with
  | dict keys each => exact fun item member => ⟨keys item member, each item member⟩

section
variable {text other : Str}

theorem utf8Char_isSome_iff {c : CodePoint} :
    (∃ head, utf8Char c = some head) ↔ c.val < 0xD800 ∨ 0xDFFF < c.val := by
  unfold utf8Char
  split
  · exact ⟨fun _ => Or.inl (by omega), fun _ => ⟨_, rfl⟩⟩
  split
  · exact ⟨fun _ => Or.inl (by omega), fun _ => ⟨_, rfl⟩⟩
  split
  · constructor
    · rintro ⟨_, encoded⟩
      contradiction
    · intro apart
      omega
  split
  · exact ⟨fun _ => by omega, fun _ => ⟨_, rfl⟩⟩
  · exact ⟨fun _ => by omega, fun _ => ⟨_, rfl⟩⟩

theorem utf8_isSome_iff : (∃ bytes, utf8 text = some bytes) ↔ Scalar text := by
  induction text with
  | nil => exact ⟨fun _ => List.forall_mem_nil _, fun _ => ⟨[], rfl⟩⟩
  | cons c rest ih =>
      rw [Scalar, List.forall_mem_cons, ← Scalar, ← ih, ← utf8Char_isSome_iff]
      constructor
      · rintro ⟨bytes, encoded⟩
        obtain ⟨head, tail, first, later, _⟩ := utf8_cons encoded
        exact ⟨⟨head, first⟩, tail, later⟩
      · rintro ⟨⟨head, first⟩, tail, later⟩
        exact ⟨head ++ tail, by rw [utf8, first, later]; rfl⟩

theorem scalar_append_iff : Scalar (text ++ other) ↔ Scalar text ∧ Scalar other := List.forall_mem_append

theorem scalar_cons_iff {c : CodePoint} (ascii : c.val < 128) : Scalar (c :: text) ↔ Scalar text := by
  rw [Scalar, List.forall_mem_cons]
  exact and_iff_right (Or.inl (Nat.lt_trans ascii (by decide)))

theorem scalar_ascii (ascii : (text.all fun c => c.val < 128) = true) : Scalar text := by
  intro c member
  have small := of_decide_eq_true (List.all_eq_true.mp ascii c member)
  exact Or.inl (Nat.lt_trans small (by decide))

theorem scalar_hexOf {bytes : Bytes} : Scalar (hexOf bytes) := by
  intro c member
  have digits : ∀ n : Fin 16, (hexDigit n).val < 0xD800 ∨ 0xDFFF < (hexDigit n).val := by decide
  obtain ⟨n, rfl⟩ := hexOf_digits bytes c member
  exact digits n

/-- An object with ASCII names can be encoded where its values can. -/
theorem encodable_dict_iff_of_ascii {items : List (Str × Json)}
    (ascii : (items.all fun item => item.1.all fun c => c.val < 128) = true) :
    Encodable (.dict items) ↔ ∀ item ∈ items, Encodable item.2 := by
  rw [encodable_dict_iff]
  exact forall₂_congr fun item member => and_iff_right (scalar_ascii (List.all_eq_true.mp ascii item member))

theorem scalar_word {text : Str} (wordy : Wordy text) : Scalar text := by
  intro c member
  have word := wordy c member
  simp only [wordChar, Bool.or_eq_true, Bool.and_eq_true, decide_eq_true_eq, beq_iff_eq] at word
  rcases word with (((word | word) | rfl) | rfl) | rfl
  · omega
  · omega
  · exact Or.inl (by decide)
  · exact Or.inl (by decide)
  · exact Or.inl (by decide)

theorem scalar_escape_iff {c : CodePoint} : Scalar (escape c) ↔ c.val < 0xD800 ∨ 0xDFFF < c.val := by
  have digit : ∀ n : Fin 16, (hexDigit n).val < 128 := by decide
  unfold escape
  iterate 7
    split
    · rename_i named
      rw [named]
      exact ⟨fun _ => Or.inl (by decide), fun _ => scalar_ascii rfl⟩
  split
  · rename_i small
    refine ⟨fun _ => Or.inl (by omega), fun _ => ?_⟩
    have start : Scalar [backslash, 117, 48, 48] := scalar_ascii rfl
    refine scalar_append_iff.mpr ⟨start, ?_⟩
    exact (scalar_cons_iff (digit _)).mpr ((scalar_cons_iff (digit _)).mpr (List.forall_mem_nil _))
  · exact List.forall_mem_singleton

theorem scalar_quote_iff : Scalar (quote text) ↔ Scalar text := by
  have closes : Scalar [doubleQuote] := scalar_ascii rfl
  rw [quote, scalar_append_iff, scalar_cons_iff (by decide), and_iff_left closes, Scalar, List.forall_mem_flatMap]
  exact forall₂_congr fun c _ => scalar_escape_iff

theorem scalar_join_iff {texts : List Str} : Scalar (join comma texts) ↔ ∀ text ∈ texts, Scalar text := by
  cases texts with
  | nil => exact ⟨fun _ => List.forall_mem_nil _, fun _ => List.forall_mem_nil _⟩
  | cons text rest =>
      rw [join_cons, scalar_append_iff, List.forall_mem_cons, Scalar, Scalar, List.forall_mem_flatMap]
      exact and_congr_right fun _ => forall₂_congr fun text _ => scalar_cons_iff (by decide)

/-- The brackets around the texts of the parts add no surrogate. -/
theorem scalar_bracket_iff {texts : List Str} {left right : CodePoint} (ascii : left.val < 128 ∧ right.val < 128) :
    Scalar (left :: join comma texts ++ [right]) ↔ ∀ text ∈ texts, Scalar text := by
  have closes : Scalar [right] := (scalar_cons_iff ascii.2).mpr (List.forall_mem_nil _)
  rw [scalar_append_iff, scalar_cons_iff ascii.1, and_iff_left closes, scalar_join_iff]

theorem bracket_isOk_iff {parts : Except PyError (List Str)} {left right : CodePoint}
    (ascii : left.val < 128 ∧ right.val < 128) :
    (∃ text, (do let texts ← parts; return left :: join comma texts ++ [right] : Except PyError Str) = .ok text ∧
      Scalar text) ↔ ∃ texts, parts = .ok texts ∧ ∀ text ∈ texts, Scalar text := by
  constructor
  · rintro ⟨text, encoded, scalar⟩
    obtain ⟨texts, inner, encoded⟩ := bind_ok encoded
    rw [← Except.ok.inj encoded, scalar_bracket_iff ascii] at scalar
    exact ⟨texts, inner, scalar⟩
  · rintro ⟨texts, inner, scalar⟩
    exact ⟨_, by rw [inner]; rfl, (scalar_bracket_iff ascii).mpr scalar⟩

theorem encodeItem_scalar_iff {item : Str × Json}
    (each : (∃ text, encode item.2 = .ok text ∧ Scalar text) ↔ Encodable item.2) :
    (∃ text, encodeItem item = .ok text ∧ Scalar text) ↔ Scalar item.1 ∧ Encodable item.2 := by
  rw [← each]
  constructor
  · rintro ⟨text, encoded, scalar⟩
    obtain ⟨inner, first, encoded⟩ := bind_ok encoded
    rw [← Except.ok.inj encoded, scalar_append_iff, scalar_cons_iff (by decide), scalar_quote_iff] at scalar
    exact ⟨scalar.1, inner, first, scalar.2⟩
  · rintro ⟨key, inner, first, scalar⟩
    refine ⟨_, by rw [encodeItem, first]; rfl, ?_⟩
    rw [scalar_append_iff, scalar_cons_iff (by decide), scalar_quote_iff]
    exact ⟨key, scalar⟩

/-- The encoder writes text without surrogates for the encodable values and for no others. -/
theorem encode_scalar_iff (value : Json) : (∃ text, encode value = .ok text ∧ Scalar text) ↔ Encodable value := by
  induction value using Json.induct with
  | null => exact ⟨fun _ => .null, fun _ => ⟨_, rfl, scalar_ascii rfl⟩⟩
  | bool b => cases b <;> exact ⟨fun _ => .bool _, fun _ => ⟨_, rfl, scalar_ascii rfl⟩⟩
  | int n =>
      constructor
      · rintro ⟨text, encoded, _⟩
        rw [encode] at encoded
        split at encoded
        · rename_i exact
          exact .int exact
        · contradiction
      · rintro ⟨⟩
        rename_i exact
        exact ⟨_, if_pos exact, scalar_word (wordy_intText n)⟩
  | float x =>
      cases x with
      | nan | inf =>
          constructor
          · rintro ⟨_, encoded, _⟩
            contradiction
          · intro finite
            cases finite
      | finite negative text =>
          refine ⟨fun _ => .float negative text, fun _ => ?_⟩
          have encoded : ∃ written, ecmaNumberString (.finite negative text) = .ok written := by
            rw [ecmaNumberString]
            split
            · exact ⟨_, rfl⟩
            · exact ⟨_, rfl⟩
          obtain ⟨written, encoded⟩ := encoded
          exact ⟨written, encoded, scalar_word (wordy_ecmaNumberString encoded).1⟩
  | str s =>
      constructor
      · rintro ⟨text, encoded, scalar⟩
        cases encoded
        exact .str (scalar_quote_iff.mp scalar)
      · rintro ⟨⟩
        rename_i scalar
        exact ⟨_, rfl, scalar_quote_iff.mpr scalar⟩
  | list items each =>
      have parts : (∃ texts, encodeAll items = .ok texts ∧ ∀ text ∈ texts, Scalar text) ↔
          ∀ item ∈ items, Encodable item := by
        rw [encodeAll_eq_mapOk, mapOk_isOk_iff]
        exact forall₂_congr each
      rw [encodable_list_iff, ← parts]
      exact bracket_isOk_iff (by decide)
  | dict items each =>
      have parts : (∃ texts, encodeItems items = .ok texts ∧ ∀ text ∈ texts, Scalar text) ↔
          ∀ item ∈ items, Scalar item.1 ∧ Encodable item.2 := by
        rw [encodeItems_eq_mapOk, mapOk_isOk_iff]
        exact forall₂_congr fun item inside => encodeItem_scalar_iff (each item inside)
      rw [encodable_dict_iff, ← parts]
      exact bracket_isOk_iff (by decide)

end

theorem encodable_canonicalize_iff {value : Json} : Encodable (canonicalize value) ↔ Encodable value := by
  induction value using Json.induct with
  | null | bool | int | float | str => rfl
  | list items each =>
      rw [canonicalize, canonicalizeAll_eq_map, encodable_list_iff, encodable_list_iff, List.forall_mem_map]
      exact forall₂_congr each
  | dict items each =>
      rw [canonicalize, canonicalizeItems_eq_map, encodable_dict_iff, encodable_dict_iff]
      simp only [List.mem_insertionSort, List.forall_mem_map]
      exact forall₂_congr fun item member => and_congr_right fun _ => each item member

/-- The encodable values have bytes. -/
theorem boundlessBytes_isOk_iff {value : Json} : (∃ bytes, boundlessBytes value = .ok bytes) ↔ Encodable value := by
  rw [← encodable_canonicalize_iff, ← encode_scalar_iff]
  simp only [boundlessBytes_eq_ok_iff, ← utf8_isSome_iff, boundlessDumps]
  constructor
  · rintro ⟨bytes, text, encoded, utf⟩
    exact ⟨text, encoded, bytes, utf⟩
  · rintro ⟨text, encoded, bytes, utf⟩
    exact ⟨bytes, text, encoded, utf⟩

/-- `jcs_bytes` gives bytes for the encodable values that are not nested too deep, and raises
for the others. -/
theorem jcsBytes_isOk_iff [Interpreter] {value : Json} :
    (∃ bytes, jcsBytes value = .ok bytes) ↔ Shallow value ∧ Encodable value := by
  simp only [jcsBytes_eq_ok_iff_boundless, exists_and_left, boundlessBytes_isOk_iff]

end Argentum.Jcs
