import Argentum.Core.Methods
import Argentum.Conformance.Disclosure
import Argentum.Trail.Equality

/-! Disclosures that open some of the fields committed to: the verifier recomputes the vector and
the root, and the digest of every opened field. What it accepts opens committed fields with what
they were committed with, and one root stands for one record, or two hashed texts collide. -/
namespace Argentum.Disclosure
open Text Jcs Dumps Sha256 Trail JsonText

section
variable [Interpreter]

def fieldDigest (field : Str) (value salt : Json) : Except PyError Str := dumpsHash (preimage field value salt)

/-- `next(e["digest"] for e in published_vector if e["field"] == field)`, which raises where a
subscript does and where the entries run out. -/
def storedDigest (field : Str) : List Json → Option Json
  | [] => none
  | e :: rest => do
      let name ← (e.item (ofString "field")).toOption
      if name.eq (.str field) then (e.item (ofString "digest")).toOption else storedDigest field rest

/-- What can be subscripted of the published vector. -/
def publishedEntries : Json → List Json
  | .list entries => entries
  | _ => []

def openedMatches (published : Json) (item : Str × Json) : Option Bool := do
  let value ← (item.2.item (ofString "value")).toOption
  let salt ← (item.2.item (ofString "salt")).toOption
  let recomputed ← (fieldDigest item.1 value salt).toOption
  let stored ← storedDigest item.1 (publishedEntries published)
  return (Json.str recomputed).eq stored

/-- `verify_pos`; nothing is returned where it raises. -/
def verifyPos (record salts : Fields) (published root : Json) (opened : Fields) : Option Bool := do
  let computed ← (commitmentVector record salts).toOption
  let vectorOk := (Json.list (computed.map Entry.json)).eq published
  let recomputed ← (dumpsHash published).toOption
  let rootOk := (Json.str recomputed).eq root
  let matched ← opened.mapM (openedMatches published)
  return vectorOk && rootOk && matched.all id

/-- An opening states a value and a salt that `json.dumps` writes as those of the record, where the
stack lasts. -/
def Opens (record salts : Fields) (item : Str × Json) : Prop :=
  ∃ value salt stored, item.2.item (ofString "value") = .ok value ∧ item.2.item (ofString "salt") = .ok salt ∧
    Interpreter.dumps.Admits (preimage item.1 value salt) ∧ (item.1, stored) ∈ record ∧ Delegation.jcs value = Delegation.jcs stored ∧
    Delegation.jcs salt = Delegation.jcs ((Json.dict salts).get item.1)

/-- The published vector and root are those of the record. -/
def Publishes (record salts : Fields) (published root : Json) : Prop := ∃ entries digest,
  commitmentVector record salts = .ok entries ∧ (Json.list (entries.map Entry.json)).eq published = true ∧
    disclosureRef entries = .ok digest ∧ root = .str digest

end

/-- The values of the JSON profile stand in an opening. -/
def OpeningProfile (item : Str × Json) : Prop := ∀ value salt, item.2.item (ofString "value") = .ok value →
  item.2.item (ofString "salt") = .ok salt → JcsProfile value ∧ JcsProfile salt

/-- The preimage that an opening states. -/
def openedPreimage (item : Str × Json) : Json :=
  preimage item.1 (item.2.get (ofString "value")) (item.2.get (ofString "salt"))

/-- The bytes hashed for values. -/
def hashedTexts [Interpreter] (values : List Json) : List Bytes :=
  values.filterMap fun value => (dumpsBytes value).toOption

section
variable {record salts : Fields} {published root value value' salt salt' : Json} {opened : Fields}
  {entries : List (Entry Str)} {field field' : Str} {values : List Json}

theorem toOption_eq_some_iff {α : Type} {action : Except PyError α} {x : α} :
    action.toOption = some x ↔ action = .ok x := by
  cases action <;> simp [Except.toOption]

/-- A text with keys sorted says what is written, key by key. -/
theorem jcs_preimage_iff (profile : JcsProfile value) (profile' : JcsProfile value') (salted : JcsProfile salt)
    (salted' : JcsProfile salt') :
    Delegation.jcs (preimage field value salt) = Delegation.jcs (preimage field' value' salt') ↔
      field = field' ∧ Delegation.jcs value = Delegation.jcs value' ∧ Delegation.jcs salt = Delegation.jcs salt' := by
  have written : ∀ {first second : Json}, JcsProfile first → JcsProfile second →
      (Delegation.jcs first = Delegation.jcs second ↔ dumpsTree (sortKeys first) = dumpsTree (sortKeys second)) := by
    intro first second ofFirst ofSecond
    rw [Delegation.jcs, Delegation.jcs, ← print_dumpsTree ofFirst.sortKeys, ← print_dumpsTree ofSecond.sortKeys]
    exact ⟨Tree.print_injective, fun same => by rw [same]⟩
  have order : ∀ field value salt, sortItems [(ofString "field", Json.str field), (ofString "salt", salt),
      (ofString "value", value)] =
        [(ofString "field", .str field), (ofString "salt", salt), (ofString "value", value)] :=
    fun _ _ _ => List.Pairwise.insertionSort_eq (by simp only [List.pairwise_cons, List.forall_mem_cons]; decide)
  rw [written (jcsProfile_preimage profile salted) (jcsProfile_preimage profile' salted'), written profile profile',
    written salted salted', preimage, preimage, dumpsTree_dict, dumpsTree_dict, order, order]
  simp [sortKeys, dumpsTree]
  tauto

/-- What equals an entry has its two items, in either order. -/
theorem same_entry {entry : Entry Str} {other : Json} (same : entry.json.same other = true) :
    other = entry.json ∨
      other = .dict [(ofString "digest", .str entry.digest), (ofString "field", .str entry.field)] := by
  have apart : ofString "field" ≠ ofString "digest" := by decide
  cases other with
  | dict items =>
      rw [Entry.json, Json.same, Bool.and_eq_true, decide_eq_true_iff, Json.sameItems_iff, List.forall_mem_cons,
        List.forall_mem_singleton] at same
      obtain ⟨two, ⟨name, named, isName⟩, digest, found, isDigest⟩ := same
      obtain rfl := Json.str_eq.mp isName
      obtain rfl := Json.str_eq.mp isDigest
      obtain ⟨⟨first, x⟩, ⟨second, y⟩, rfl⟩ := List.length_eq_two.mp two.symm
      simp only [List.lookup_cons, List.lookup_nil] at named found
      grind [Entry.json]
  | null | bool | int | float | str | list => simp [Entry.json, Json.same] at same

theorem sortKeys_of_same {entry : Entry Str} {other : Json} (same : entry.json.same other = true) :
    sortKeys other = sortKeys entry.json := by
  have before : ofString "digest" ≤ ofString "field" := by decide
  have after : ¬ ofString "field" ≤ ofString "digest" := by decide
  have order : ∀ a b : Json, sortItems [(ofString "digest", a), (ofString "field", b)] =
      sortItems [(ofString "field", b), (ofString "digest", a)] := fun _ _ => by simp [sortItems, before, after]
  obtain rfl | rfl := same_entry same
  · rfl
  · rw [Entry.json, sortKeys, sortKeys, sortKeysItems_eq_map, sortKeysItems_eq_map]
    exact congrArg Json.dict (order _ _)

theorem items_of_same {entry : Entry Str} {other : Json} (same : entry.json.same other = true) :
    other.item (ofString "field") = .ok (.str entry.field) ∧
      other.item (ofString "digest") = .ok (.str entry.digest) := by
  obtain rfl | rfl := same_entry same <;> exact ⟨rfl, rfl⟩

theorem same_entries (same : (Json.list (entries.map Entry.json)).eq published = true) :
    ∃ others, published = .list others ∧
      List.Forall₂ (fun entry other => entry.json.same other = true) entries others := by
  cases published with
  | list others => exact ⟨others, rfl, List.forall₂_map_left_iff.mp (Json.sameAll_iff.mp same)⟩
  | null | bool | int | float | str | dict => cases same

/-- Equal vectors have one text. -/
theorem jcs_of_same (same : (Json.list (entries.map Entry.json)).eq published = true) :
    Delegation.jcs published = Delegation.jcs (.list (entries.map Entry.json)) := by
  obtain ⟨others, rfl, each⟩ := same_entries same
  have sorted : sortKeysAll others = sortKeysAll (entries.map Entry.json) := by
    induction each with
    | nil => rfl
    | cons first _ ih =>
        rw [List.map_cons, sortKeysAll, sortKeysAll, sortKeys_of_same first, ih ?_]
        exact Json.sameAll_iff.mpr (List.forall₂_map_left_iff.mpr ‹_›)
  rw [Delegation.jcs, Delegation.jcs, sortKeys, sortKeys, sorted]

/-- What equals a vector is not nested too deep. -/
theorem admits_of_same [Interpreter] (same : (Json.list (entries.map Entry.json)).eq published = true) :
    Interpreter.dumps.Admits published := by
  obtain ⟨others, rfl, each⟩ := same_entries same
  refine (Interpreter.room _ (depth_list_le_iff.mpr fun other member => ?_)).2.2
  obtain ⟨i, inside, rfl⟩ := List.getElem_of_mem member
  have same := same_entry (each.get (each.length_eq ▸ inside) inside)
  rw [List.get_eq_getElem, List.get_eq_getElem] at same
  obtain same | same := same <;> rw [same] <;> exact Nat.le_of_ble_eq_true rfl

theorem dumpsHash_of_same [Interpreter] (same : (Json.list (entries.map Entry.json)).eq published = true) :
    dumpsHash published = disclosureRef entries := by
  rw [disclosureRef, disclosureRefBy, dumpsHash, dumpsHash, Delegation.jcsWithin, Delegation.jcsWithin,
    if_pos (admits_of_same same), if_pos (Interpreter.room _ (depth_entries entries)).2.2, jcs_of_same same]

/-- The digest read for a field is that of its entry. -/
theorem storedDigest_eq_some_iff {others : List Json} {stored : Json}
    (each : List.Forall₂ (fun entry other => entry.json.same other = true) entries others)
    (unique : (entries.map Entry.field).Nodup) :
    storedDigest field others = some stored ↔ ∃ entry ∈ entries, entry.field = field ∧ stored = .str entry.digest := by
  induction each with
  | nil => simp [storedDigest]
  | @cons entry other rest _ first _ ih =>
      obtain ⟨fresh, unique⟩ := List.nodup_cons.mp unique
      obtain ⟨name, digest⟩ := items_of_same first
      rw [storedDigest, name, digest]
      by_cases own : entry.field = field
      · have others : ∀ entry ∈ rest, entry.field ≠ field := fun later member named =>
          fresh (own ▸ named ▸ List.mem_map_of_mem member)
        have read : (Json.str entry.field).eq (.str field) = true := Json.str_eq.mpr (by rw [own])
        simp only [Except.toOption, bind, Option.bind_some, read, if_true, Option.some.injEq, List.mem_cons]
        constructor
        · rintro rfl
          exact ⟨entry, .inl rfl, own, rfl⟩
        · rintro ⟨found, rfl | later, named, rfl⟩
          · rfl
          · exact absurd named (others found later)
      · have read : (Json.str entry.field).eq (.str field) = false := by
          rw [Bool.eq_false_iff, ne_eq, Json.str_eq, Json.str.injEq, eq_comm]
          exact own
        simp only [Except.toOption, bind, Option.bind_some, read, Bool.false_eq_true, if_false, ih unique,
          List.exists_mem_cons_iff, own, false_and, false_or]

theorem mapM_all_iff {α : Type} {f : α → Option Bool} {xs : List α} :
    (∃ results, xs.mapM f = some results ∧ results.all id = true) ↔ ∀ x ∈ xs, f x = some true := by
  induction xs with
  | nil => simp
  | cons x rest ih =>
      rw [List.forall_mem_cons, ← ih]
      simp only [List.mapM_cons, bind, Option.bind_eq_some_iff, pure, Option.some.injEq]
      constructor
      · rintro ⟨_, ⟨b, first, results, later, rfl⟩, all⟩
        obtain ⟨rfl, all⟩ := (Bool.and_eq_true _ _).mp all
        exact ⟨first, results, later, all⟩
      · rintro ⟨first, results, later, all⟩
        exact ⟨_, ⟨true, first, results, later, rfl⟩, all⟩

/-- A disclosure is accepted iff what is published is the record's and every opening has its
digest. -/
theorem verifyPos_eq_true_iff [Interpreter] : verifyPos record salts published root opened = some true ↔
    Publishes record salts published root ∧ ∀ item ∈ opened, openedMatches published item = some true := by
  rw [← mapM_all_iff]
  simp only [verifyPos, bind, Option.bind_eq_some_iff, toOption_eq_some_iff, pure, Option.some.injEq, Bool.and_eq_true,
    Json.str_eq]
  constructor
  · rintro ⟨entries, computed, digest, hashed, results, matched, ⟨same, rooted⟩, all⟩
    exact ⟨⟨entries, digest, computed, same, (dumpsHash_of_same same).symm.trans hashed, rooted⟩, results, matched, all⟩
  · rintro ⟨⟨entries, digest, computed, same, hashed, rooted⟩, results, matched, all⟩
    exact ⟨entries, computed, digest, (dumpsHash_of_same same).trans hashed, results, matched, ⟨same, rooted⟩, all⟩

/-- Hashes that are one are of one text, where no texts collide. -/
theorem jcs_of_dumpsHash [Interpreter] {digest : Str} (free : ¬ Collides (hashedTexts values)) (member : value ∈ values)
    (member' : value' ∈ values) (hashed : dumpsHash value = .ok digest) (hashed' : dumpsHash value' = .ok digest) :
    Delegation.jcs value = Delegation.jcs value' := by
  obtain ⟨bytes, encoded, rfl⟩ := dumpsHash_eq_ok_iff.mp hashed
  obtain ⟨bytes', encoded', same⟩ := dumpsHash_eq_ok_iff.mp hashed'
  have listed : bytes ∈ hashedTexts values := List.mem_filterMap.mpr ⟨value, member, toOption_eq_some_iff.mpr encoded⟩
  have listed' : bytes' ∈ hashedTexts values :=
    List.mem_filterMap.mpr ⟨value', member', toOption_eq_some_iff.mpr encoded'⟩
  obtain rfl := eq_of_not_collides free listed listed' (hexOf_injective same.symm)
  exact utf8_injective (encodeUtf8_eq_ok_iff.mp (dumpsBytes_eq_ok_iff.mp encoded).2)
    (encodeUtf8_eq_ok_iff.mp (dumpsBytes_eq_ok_iff.mp encoded').2)

/-- An opening matches iff its preimage has the digest of a committed field. -/
theorem openedMatches_iff [Interpreter] {item : Str × Json} (disclosable : Disclosable record salts)
    (publishes : Publishes record salts published root) : openedMatches published item = some true ↔
      ∃ value salt stored digest, item.2.item (ofString "value") = .ok value ∧
        item.2.item (ofString "salt") = .ok salt ∧ (item.1, stored) ∈ record ∧
        dumpsHash (preimage item.1 value salt) = .ok digest ∧
        dumpsHash (preimageOf salts (item.1, stored)) = .ok digest := by
  obtain ⟨entries, _, computed, same, _⟩ := publishes
  obtain ⟨others, rfl, each⟩ := same_entries same
  obtain ⟨hashed, rfl⟩ := (commitmentVectorBy_eq_ok_iff disclosable).mp computed
  have fields : ((sortItems record).map (entryOf dumpsHash salts)).map Entry.field =
      (sortItems record).map Prod.fst := by
    rw [List.map_map]
    rfl
  have unique : (((sortItems record).map (entryOf dumpsHash salts)).map Entry.field).Nodup := by
    rw [fields]
    exact ((List.perm_insertionSort _ record).map _).nodup_iff.mpr disclosable.unique
  simp only [openedMatches, bind, Option.bind_eq_some_iff, toOption_eq_some_iff, pure, Option.some.injEq,
    publishedEntries, storedDigest_eq_some_iff each unique, Json.str_eq, fieldDigest]
  constructor
  · rintro ⟨value, read, salt, salted, digest, recomputed, stored, ⟨entry, listed, named, rfl⟩, matched⟩
    obtain ⟨⟨name, own⟩, member, rfl⟩ := List.mem_map.mp listed
    obtain rfl : name = item.1 := named
    have inside := (List.mem_insertionSort _).mp member
    obtain ⟨made, hash⟩ := hashed _ inside
    obtain rfl := (digestOf_eq hash).symm.trans (Json.str.inj matched)
    exact ⟨value, salt, own, _, read, salted, inside, recomputed, hash⟩
  · rintro ⟨value, salt, own, digest, read, salted, inside, recomputed, hash⟩
    refine ⟨value, read, salt, salted, digest, recomputed, .str digest,
      ⟨entryOf dumpsHash salts (item.1, own), ?_, rfl, ?_⟩, rfl⟩
    · exact List.mem_map_of_mem ((List.mem_insertionSort _).mpr inside)
    · rw [entryOf, digestOf_eq hash]

/-- An opening matches iff it opens what was committed, where no texts collide. -/
theorem openedMatches_iff_opens [Interpreter] {item : Str × Json} (disclosable : Disclosable record salts)
    (publishes : Publishes record salts published root) (profile : OpeningProfile item)
    (free : ¬ Collides (hashedTexts values)) (committed : ∀ own ∈ record, preimageOf salts own ∈ values)
    (stated : openedPreimage item ∈ values) : openedMatches published item = some true ↔ Opens record salts item := by
  rw [openedMatches_iff disclosable publishes]
  obtain ⟨_, _, computed, _⟩ := publishes
  have hashed := ((commitmentVectorBy_eq_ok_iff disclosable).mp computed).1
  have written : ∀ {value salt stored}, item.2.item (ofString "value") = .ok value →
      item.2.item (ofString "salt") = .ok salt → (item.1, stored) ∈ record →
      (Delegation.jcs (preimage item.1 value salt) = Delegation.jcs (preimageOf salts (item.1, stored)) ↔
        Delegation.jcs value = Delegation.jcs stored ∧
          Delegation.jcs salt = Delegation.jcs ((Json.dict salts).get item.1)) := by
    intro value salt stored read salted inside
    obtain ⟨profiled, profiledSalt⟩ := profile value salt read salted
    obtain ⟨own, found, ownProfile⟩ := disclosable.covered _ inside
    have ownSalt : (Json.dict salts).get item.1 = own := by rw [Json.get, found, Option.getD_some]
    rw [preimageOf, ownSalt, jcs_preimage_iff profiled (disclosable.values _ inside) profiledSalt ownProfile,
      and_iff_right rfl]
  constructor
  · rintro ⟨value, salt, stored, digest, read, salted, inside, recomputed, hash⟩
    rw [openedPreimage, Json.get_of_item read, Json.get_of_item salted] at stated
    have same := jcs_of_dumpsHash free stated (committed _ inside) recomputed hash
    have admits := (dumpsBytes_eq_ok_iff.mp (dumpsHash_eq_ok_iff.mp recomputed).choose_spec.1).1
    exact ⟨value, salt, stored, read, salted, admits, inside, (written read salted inside).mp same⟩
  · rintro ⟨value, salt, stored, read, salted, admits, inside, same⟩
    obtain ⟨digest, hash⟩ := hashed _ inside
    obtain ⟨bytes, encoded, hashes⟩ := dumpsHash_eq_ok_iff.mp hash
    obtain ⟨_, encoded⟩ := dumpsBytes_eq_ok_iff.mp encoded
    rw [← (written read salted inside).mpr same] at encoded
    exact ⟨value, salt, stored, digest, read, salted, inside,
      dumpsHash_eq_ok_iff.mpr ⟨bytes, dumpsBytes_eq_ok_iff.mpr ⟨admits, encoded⟩, hashes⟩, hash⟩

/-- A disclosure is accepted iff what is published is the record's and what is opened was committed,
or two hashed texts collide. -/
theorem verifyPos_iff_opens [Interpreter] (disclosable : Disclosable record salts) (profile : ∀ item ∈ opened, OpeningProfile item) :
    (verifyPos record salts published root opened = some true ↔
        Publishes record salts published root ∧ ∀ item ∈ opened, Opens record salts item) ∨
      Collides (hashedTexts (record.map (preimageOf salts) ++ opened.map openedPreimage)) := by
  by_cases free : Collides (hashedTexts (record.map (preimageOf salts) ++ opened.map openedPreimage))
  · exact Or.inr free
  · refine Or.inl ?_
    rw [verifyPos_eq_true_iff]
    refine and_congr_right fun publishes => forall₂_congr fun item member => ?_
    exact openedMatches_iff_opens disclosable publishes (profile item member) free
      (fun own inside => List.mem_append_left _ (List.mem_map_of_mem inside))
      (List.mem_append_right _ (List.mem_map_of_mem member))

/-- The fields of a record with the texts of their values and salts, in the order of the vector. -/
def committedTexts (record salts : Fields) : List (Str × Str × Str) := (sortItems record).map fun item =>
  (item.1, Delegation.jcs item.2, Delegation.jcs ((Json.dict salts).get item.1))

/-- Vectors with one text are one. -/
theorem entries_of_jcs {entries' : List (Entry Str)}
    (same : Delegation.jcs (.list (entries.map Entry.json)) = Delegation.jcs (.list (entries'.map Entry.json))) :
    entries = entries' := by
  have order : ∀ field digest : Json, sortItems [(ofString "field", field), (ofString "digest", digest)] =
      [(ofString "digest", digest), (ofString "field", field)] := by
    have after : ¬ ofString "field" ≤ ofString "digest" := by decide
    exact fun _ _ => by simp [sortItems, after]
  have written : ∀ entry : Entry Str, dumpsTree (sortKeys entry.json) =
      .dict [(ofString "digest", .str entry.digest), (ofString "field", .str entry.field)] := by
    intro entry
    rw [Entry.json, dumpsTree_dict, order]
    simp [sortKeys, dumpsTree]
  rw [Delegation.jcs, Delegation.jcs, ← print_dumpsTree (jcsProfile_entries _).sortKeys,
    ← print_dumpsTree (jcsProfile_entries _).sortKeys] at same
  have trees := Tree.print_injective same
  rw [sortKeys, sortKeys, dumpsTree, dumpsTree, dumpsTreeAll_eq_map, dumpsTreeAll_eq_map, sortKeysAll_eq_map,
    sortKeysAll_eq_map, List.map_map, List.map_map, List.map_map, List.map_map] at trees
  refine List.map_injective_iff.mpr (fun first second alike => ?_) (Tree.list.inj trees)
  simp only [Function.comp_apply, written] at alike
  obtain ⟨⟩ := first
  obtain ⟨⟩ := second
  simpa [and_comm] using alike

/-- Records published under one root commit to the same fields with the same values and salts, where
no texts collide. -/
theorem committedTexts_of_root [Interpreter] {record' salts' : Fields} {published' : Json} (disclosable : Disclosable record salts)
    (disclosable' : Disclosable record' salts') (publishes : Publishes record salts published root)
    (publishes' : Publishes record' salts' published' root) (free : ¬ Collides (hashedTexts values))
    (committed : ∀ own ∈ record, preimageOf salts own ∈ values)
    (committed' : ∀ own ∈ record', preimageOf salts' own ∈ values) (vector : published ∈ values)
    (vector' : published' ∈ values) : committedTexts record salts = committedTexts record' salts' := by
  obtain ⟨entries, digest, computed, same, hashed, rfl⟩ := publishes
  obtain ⟨entries', digest', computed', same', hashed', one⟩ := publishes'
  obtain rfl := Json.str.inj one
  have texts := jcs_of_dumpsHash free vector vector' ((dumpsHash_of_same same).trans hashed)
    ((dumpsHash_of_same same').trans hashed')
  rw [jcs_of_same same, jcs_of_same same'] at texts
  obtain ⟨made, rfl⟩ := (commitmentVectorBy_eq_ok_iff disclosable).mp computed
  obtain ⟨made', listed⟩ := (commitmentVectorBy_eq_ok_iff disclosable').mp computed'
  rw [committedTexts, committedTexts]
  refine map_eq_of_map_eq (fun x member y member' alike => ?_) ((entries_of_jcs texts).trans listed)
  have inside := (List.mem_insertionSort _).mp member
  have inside' := (List.mem_insertionSort _).mp member'
  obtain ⟨digest, hash⟩ := made x inside
  obtain ⟨digest', hash'⟩ := made' y inside'
  obtain ⟨field, digests⟩ := Entry.mk.inj alike
  rw [digestOf_eq hash, digestOf_eq hash'] at digests
  subst digests
  have preimages := jcs_of_dumpsHash free (committed x inside) (committed' y inside') hash hash'
  obtain ⟨salt, found, salted⟩ := disclosable.covered x inside
  obtain ⟨salt', found', salted'⟩ := disclosable'.covered y inside'
  have own : (Json.dict salts).get x.1 = salt := by rw [Json.get, found, Option.getD_some]
  have own' : (Json.dict salts').get y.1 = salt' := by rw [Json.get, found', Option.getD_some]
  rw [preimageOf, preimageOf, own, own', jcs_preimage_iff (disclosable.values x inside) (disclosable'.values y inside')
    salted salted'] at preimages
  rw [own, own', preimages.1, preimages.2.1, preimages.2.2]

/-- What two accepted disclosures of one root have in common: the records they were made for, and
what they open of a field, value and salt. -/
def NoEquivocation (record salts opened record' salts' opened' : Fields) : Prop :=
  committedTexts record salts = committedTexts record' salts' ∧ ∀ item ∈ opened, ∀ item' ∈ opened', item.1 = item'.1 →
    Delegation.jcs (item.2.get (ofString "value")) = Delegation.jcs (item'.2.get (ofString "value")) ∧
    Delegation.jcs (item.2.get (ofString "salt")) = Delegation.jcs (item'.2.get (ofString "salt"))

/-- The values that the two disclosures have hashed. -/
def disclosedValues (record salts opened : Fields) (published : Json) : List Json :=
  published :: record.map (preimageOf salts) ++ opened.map openedPreimage

theorem mem_disclosedValues : value ∈ disclosedValues record salts opened published ↔
    value = published ∨ (∃ own ∈ record, preimageOf salts own = value) ∨
      ∃ item ∈ opened, openedPreimage item = value := by
  simp [disclosedValues]

section
variable [Interpreter]

/-- What an opening states stands in the committed texts. -/
theorem Opens.committed {item : Str × Json} (opens : Opens record salts item) :
    (item.1, Delegation.jcs (item.2.get (ofString "value")), Delegation.jcs (item.2.get (ofString "salt"))) ∈
      committedTexts record salts := by
  obtain ⟨value, salt, stored, read, salted, _, inside, same, sameSalt⟩ := opens
  rw [Json.get_of_item read, Json.get_of_item salted, same, sameSalt]
  exact List.mem_map.mpr ⟨_, (List.mem_insertionSort _).mpr inside, rfl⟩

omit [Interpreter] in
/-- A record commits to one value and one salt of a field. -/
theorem committedTexts_unique (disclosable : Disclosable record salts) {first second : Str × Str × Str}
    (member : first ∈ committedTexts record salts) (member' : second ∈ committedTexts record salts)
    (named : first.1 = second.1) : first = second := by
  obtain ⟨own, inside, rfl⟩ := List.mem_map.mp member
  obtain ⟨own', inside', rfl⟩ := List.mem_map.mp member'
  rw [List.inj_on_of_nodup_map disclosable.unique ((List.mem_insertionSort _).mp inside)
    ((List.mem_insertionSort _).mp inside') named]

/-- Openings of one field agree where the records do. -/
theorem Opens.agree {record' salts' : Fields} {item item' : Str × Json} (opens : Opens record salts item)
    (texts : committedTexts record salts = committedTexts record' salts') (disclosable' : Disclosable record' salts')
    (opens' : Opens record' salts' item') (named : item.1 = item'.1) :
    Delegation.jcs (item.2.get (ofString "value")) = Delegation.jcs (item'.2.get (ofString "value")) ∧
      Delegation.jcs (item.2.get (ofString "salt")) = Delegation.jcs (item'.2.get (ofString "salt")) := by
  have same := committedTexts_unique disclosable' (texts ▸ opens.committed) opens'.committed named
  simp only [Prod.mk.injEq] at same
  exact same.2

/-- Two disclosures accepted under one root are of one record and agree on every field that both open,
value and salt, or two hashed texts collide. -/
theorem noEquivocation {record' salts' opened' : Fields} {published' : Json} (disclosable : Disclosable record salts)
    (disclosable' : Disclosable record' salts') (profile : ∀ item ∈ opened, OpeningProfile item)
    (profile' : ∀ item ∈ opened', OpeningProfile item)
    (accepted : verifyPos record salts published root opened = some true)
    (accepted' : verifyPos record' salts' published' root opened' = some true) :
    NoEquivocation record salts opened record' salts' opened' ∨
      Collides (hashedTexts (disclosedValues record salts opened published ++
        disclosedValues record' salts' opened' published')) := by
  obtain ⟨publishes, matched⟩ := verifyPos_eq_true_iff.mp accepted
  obtain ⟨publishes', matched'⟩ := verifyPos_eq_true_iff.mp accepted'
  by_cases free : Collides (hashedTexts (disclosedValues record salts opened published ++
    disclosedValues record' salts' opened' published'))
  · exact Or.inr free
  · have listed := fun {x} member => List.mem_append_left (disclosedValues record' salts' opened' published')
      (mem_disclosedValues.mpr member : x ∈ disclosedValues record salts opened published)
    have listed' := fun {x} member => List.mem_append_right (disclosedValues record salts opened published)
      (mem_disclosedValues.mpr member : x ∈ disclosedValues record' salts' opened' published')
    have committed := fun own inside => listed (.inr (.inl ⟨own, inside, rfl⟩))
    have committed' := fun own inside => listed' (.inr (.inl ⟨own, inside, rfl⟩))
    have texts := committedTexts_of_root disclosable disclosable' publishes publishes' free committed committed'
      (listed (.inl rfl)) (listed' (.inl rfl))
    refine Or.inl ⟨texts, fun item member item' member' named => ?_⟩
    have opens := (openedMatches_iff_opens disclosable publishes (profile item member) free committed
      (listed (.inr (.inr ⟨item, member, rfl⟩)))).mp (matched item member)
    have opens' := (openedMatches_iff_opens disclosable' publishes' (profile' item' member') free committed'
      (listed' (.inr (.inr ⟨item', member', rfl⟩)))).mp (matched' item' member')
    exact opens.agree texts disclosable' opens' named

end
end

section
open Cpython

/-- What is published of the record of two fields. -/
def unsortedSalts : Fields := saltsOf [astralName, ofString "a"]

def unsortedVector : List (Entry Str) := (sortItems unsorted).map (entryOf dumpsHash unsortedSalts)

def unsortedRoot : Str := (disclosureRef unsortedVector).toOption.getD []

/-- An opening of one field, with the keys of its value in the other order. -/
def oneOpened : Fields := [(astralName, .dict [
  (ofString "salt", .str (ofString "00")), (ofString "value", .dict [(ofString "a", .int 1), (ofString "b", .int 2)])])]

/-- An opening of both. -/
def bothOpened : Fields := unsorted.map fun item =>
  (item.1, .dict [(ofString "value", item.2), (ofString "salt", .str (ofString "00"))])

theorem openingProfile_field {field : Str} {items : Fields} {value salt : Json}
    (read : (Json.dict items).item (ofString "value") = .ok value)
    (salted : (Json.dict items).item (ofString "salt") = .ok salt) (profile : JcsProfile value)
    (profile' : JcsProfile salt) : OpeningProfile (field, .dict items) := by
  intro _ _ read' salted'
  rw [← Except.ok.inj (read.symm.trans read'), ← Except.ok.inj (salted.symm.trans salted')]
  exact ⟨profile, profile'⟩

theorem openingProfile_one : ∀ item ∈ oneOpened, OpeningProfile item := by
  refine List.forall_mem_singleton.mpr (openingProfile_field rfl rfl (.dict (by decide) ?_) (.str _))
  exact List.forall_mem_cons.mpr ⟨.int (by decide), List.forall_mem_singleton.mpr (.int (by decide))⟩

theorem openingProfile_both : ∀ item ∈ bothOpened, OpeningProfile item :=
  List.forall_mem_map.mpr fun item member =>
    openingProfile_field rfl rfl (disclosable_unsorted.values item member) (.str _)

theorem accepted_one : verifyPos unsorted unsortedSalts (.list (unsortedVector.map Entry.json)) (.str unsortedRoot)
    oneOpened = some true := by decide +kernel

theorem accepted_both : verifyPos unsorted unsortedSalts (.list (unsortedVector.map Entry.json)) (.str unsortedRoot)
    bothOpened = some true := by decide +kernel

theorem verifyPos_iff_opens_one : Publishes unsorted unsortedSalts (.list (unsortedVector.map Entry.json))
    (.str unsortedRoot) ∧ ∀ item ∈ oneOpened, Opens unsorted unsortedSalts item := by
  have free : ¬ Collides (hashedTexts (unsorted.map (preimageOf unsortedSalts) ++ oneOpened.map openedPreimage)) := by
    unfold Collides
    decide +kernel
  exact ((verifyPos_iff_opens disclosable_unsorted openingProfile_one).resolve_right free).mp accepted_one

theorem noEquivocation_both : NoEquivocation unsorted unsortedSalts oneOpened unsorted unsortedSalts bothOpened := by
  refine (noEquivocation disclosable_unsorted disclosable_unsorted openingProfile_one openingProfile_both accepted_one
    accepted_both).resolve_right ?_
  unfold Collides
  decide +kernel

end

end Argentum.Disclosure
