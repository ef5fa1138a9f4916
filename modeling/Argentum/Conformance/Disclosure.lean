import Argentum.Core.Lists
import Argentum.Trail.Log
import Argentum.Trail.Merkle
import Argentum.Conformance.Delegation
import Argentum.Conformance.Ecma

/-! Salted commitments to the fields of a record, as the verifiers in Python and in JavaScript
compute them and as the specification has them with the canonical encoder. In Python the keys are
sorted by code points, and a lone surrogate has no bytes. -/
namespace Argentum.Disclosure
open Text Jcs Dumps Sha256 Trail

/-- A commitment, with a field name of the language. -/
structure Entry (σ : Type) where
  field : σ
  digest : Str

abbrev Fields := List (Str × Json)

def preimage (field : Str) (value salt : Json) : Json :=
  .dict [(ofString "field", .str field), (ofString "salt", salt), (ofString "value", value)]

def Entry.json (entry : Entry Str) : Json :=
  .dict [(ofString "field", .str entry.field), (ofString "digest", .str entry.digest)]

section
variable (hash : Json → Except PyError Str)

def commitment (salts : Fields) (item : Str × Json) : Except PyError (Entry Str) := do
  let salt ← (Json.dict salts).item item.1
  return ⟨item.1, ← hash (preimage item.1 item.2 salt)⟩

/-- The commitments to the fields, sorted by field name. -/
def commitmentVectorBy (record salts : Fields) : Except PyError (List (Entry Str)) := do
  return (← mapOk (commitment hash salts) record).insertionSort fun a b => a.field ≤ b.field

def disclosureRefBy (vector : List (Entry Str)) : Except PyError Str := hash (.list (vector.map Entry.json))

end

section
variable [Interpreter]

/-- `jcs(obj).encode()` of verify.py: `json.dumps` with sorted keys. -/
def dumpsBytes (value : Json) : Except PyError Bytes := do encodeUtf8 (← Delegation.jcsWithin value)

/-- `sha256hex(jcs(obj))` of verify.py. -/
def dumpsHash (value : Json) : Except PyError Str := do Delegation.sha256hex (← Delegation.jcsWithin value)

def commitmentVector : Fields → Fields → Except PyError (List (Entry Str)) := commitmentVectorBy dumpsHash

def disclosureRef : List (Entry Str) → Except PyError Str := disclosureRefBy dumpsHash

/-- The construction of the specification, over the canonical encoder. -/
def specifiedVector : Fields → Fields → Except PyError (List (Entry Str)) := commitmentVectorBy sha256Jcs

def specifiedRef : List (Entry Str) → Except PyError Str := disclosureRefBy sha256Jcs

end

namespace Js
open Ecma

variable [Engine]

/-- `sha256Hex(jcs(value))`, nothing where the engine throws for want of stack. -/
def jcsHash (value : JsValue) : Option Str := if Engine.lasts value then some (sha256Hex (jcs value)) else none

def fieldDigest (field : JsString) (value salt : JsValue) : Option Str :=
  jcsHash (.object [(codeUnits (ofString "field"), .string field), (codeUnits (ofString "salt"), salt),
    (codeUnits (ofString "value"), value)])

def commitmentVector (record salts : List (JsString × JsValue)) : Option (List (Entry JsString)) := do
  let entries ← record.mapM fun item => do
    return ⟨item.1, ← fieldDigest item.1 item.2 ((salts.lookup item.1).getD .undefined)⟩
  return entries.insertionSort fun a b => a.field ≤ b.field

def disclosureRef (vector : List (Entry JsString)) : Option Str :=
  jcsHash (.array (vector.map fun entry => .object [(codeUnits (ofString "field"), .string entry.field),
    (codeUnits (ofString "digest"), .string (codeUnits entry.digest))]))

end Js

/-- The entry of the same field in JavaScript. -/
def Entry.units (entry : Entry Str) : Entry Ecma.JsString := ⟨codeUnits entry.field, entry.digest⟩

/-- The verifiers and the specification have the same entries in the same order, and the same root. -/
def SameCommitments [Interpreter] [Ecma.Engine] (record salts : Fields) : Prop := ∃ entries root,
  (commitmentVector record salts = .ok entries ∧ disclosureRef entries = .ok root) ∧
  (Js.commitmentVector (Ecma.ofJsonItems record) (Ecma.ofJsonItems salts) = some (entries.map Entry.units) ∧
    Js.disclosureRef (entries.map Entry.units) = some root) ∧
  specifiedVector record salts = .ok entries ∧ specifiedRef entries = .ok root

/-- A record of JSON values and the salts that cover its fields, both of them maps in either
language. -/
structure Disclosable (record salts : Fields) : Prop where
  fields : (record.map fun item => codeUnits item.1).Nodup
  names : (salts.map fun item => codeUnits item.1).Nodup
  values : ∀ item ∈ record, JcsProfile item.2
  covered : ∀ item ∈ record, ∃ salt, salts.lookup item.1 = some salt ∧ JcsProfile salt

/-- The preimage of the commitment to a field. -/
def preimageOf (salts : Fields) (item : Str × Json) : Json :=
  preimage item.1 item.2 ((Json.dict salts).get item.1)

/-- Nothing that is committed to is nested too deep for one of the three, no lone surrogate stands in
it, nothing in it is written in two ways, and no two fields cross. -/
structure Ordinary [Interpreter] [Ecma.Engine] (record salts : Fields) : Prop where
  shallow : ∀ item ∈ record, Interpreter.dumps.Admits (preimageOf salts item) ∧
    Ecma.Engine.lasts (Ecma.ofJson (preimageOf salts item)) = true ∧ Shallow (preimageOf salts item)
  encodable : ∀ item ∈ record, Scalar item.1 ∧ Jcs.Encodable item.2 ∧ Jcs.Encodable ((Json.dict salts).get item.1)
  agreeing : ∀ item ∈ record, Agreeing item.2 ∧ Agreeing ((Json.dict salts).get item.1)
  uncrossed : ∀ a ∈ record, ∀ b ∈ record, crossed a.1 b.1 = false

/-- The bytes of the preimages that are hashed for the fields, by either encoder. -/
def hashedPreimages [Interpreter] (record salts : Fields) : List Bytes := record.flatMap fun item =>
  [dumpsBytes (preimageOf salts item), jcsBytes (preimageOf salts item)].filterMap Except.toOption

section
variable {hash : Json → Except PyError Str} {record salts : Fields} {field : Str} {value salt : Json}
  {entries : List (Entry Str)}

theorem jcsProfile_preimage (profile : JcsProfile value) (profile' : JcsProfile salt) :
    JcsProfile (preimage field value salt) := by
  have names : [ofString "field", ofString "salt", ofString "value"].Nodup := by decide
  exact .dict names (by simp [profile, profile', JcsProfile.str])

theorem encodable_preimage_iff : Jcs.Encodable (preimage field value salt) ↔
    Scalar field ∧ Jcs.Encodable value ∧ Jcs.Encodable salt := by
  rw [preimage, encodable_dict_iff_of_ascii rfl]
  simp only [List.forall_mem_cons, List.not_mem_nil, false_implies, implies_true, and_true, encodable_str_iff]
  tauto

theorem agreeing_preimage_iff : Agreeing (preimage field value salt) ↔ Agreeing value ∧ Agreeing salt := by
  have names : ∀ a ∈ [ofString "field", ofString "salt", ofString "value"],
      ∀ b ∈ [ofString "field", ofString "salt", ofString "value"], crossed a b = false := by decide
  have keys : ∀ a ∈ [(ofString "field", Json.str field), (ofString "salt", salt), (ofString "value", value)],
      ∀ b ∈ [(ofString "field", Json.str field), (ofString "salt", salt), (ofString "value", value)],
      crossed a.1 b.1 = false := fun a member b member' =>
    names a.1 (List.mem_map_of_mem (f := Prod.fst) member) b.1 (List.mem_map_of_mem (f := Prod.fst) member')
  rw [preimage, agreeing_dict_iff, and_iff_right keys]
  simp only [List.forall_mem_cons, List.not_mem_nil, Agreeing.str, true_and]
  tauto

theorem Disclosable.commitment_eq (disclosable : Disclosable record salts) : ∀ item ∈ record,
    commitment hash salts item = do return ⟨item.1, ← hash (preimageOf salts item)⟩ := by
  intro item member
  obtain ⟨salt, found, _⟩ := disclosable.covered item member
  have read : (Json.dict salts).item item.1 = .ok salt := by rw [Json.item, found]
  have got : (Json.dict salts).get item.1 = salt := by rw [Json.get, found, Option.getD_some]
  rw [commitment, read, preimageOf, got]
  rfl

/-- The digest where the hash is made. -/
def digestOf (hash : Json → Except PyError Str) (salts : Fields) (item : Str × Json) : Str :=
  (hash (preimageOf salts item)).toOption.getD []

def entryOf (hash : Json → Except PyError Str) (salts : Fields) (item : Str × Json) : Entry Str :=
  ⟨item.1, digestOf hash salts item⟩

theorem digestOf_eq {item : Str × Json} {digest : Str} (hashed : hash (preimageOf salts item) = .ok digest) :
    digestOf hash salts item = digest := by
  rw [digestOf, hashed]
  rfl

/-- Where the vector is computed every hash is made, and the entries stand as the fields are sorted. -/
theorem commitmentVectorBy_eq_ok_iff (disclosable : Disclosable record salts) :
    commitmentVectorBy hash record salts = .ok entries ↔
      (∀ item ∈ record, ∃ digest, hash (preimageOf salts item) = .ok digest) ∧
        entries = (sortItems record).map (entryOf hash salts) := by
  have sorted : (sortItems record).map (entryOf hash salts) =
      (record.map (entryOf hash salts)).insertionSort fun a b => a.field ≤ b.field :=
    List.map_insertionSort (fun a b : Str × Json => a.1 ≤ b.1) (fun a b : Entry Str => a.field ≤ b.field) _ _
      fun _ _ _ _ => Iff.rfl
  have made : ∀ made, mapOk (commitment hash salts) record = .ok made ↔
      (∀ item ∈ record, ∃ digest, hash (preimageOf salts item) = .ok digest) ∧
        made = record.map (entryOf hash salts) := by
    intro made
    have returns : ∀ item (entry : Entry Str), (do return ⟨item.1, ← hash (preimageOf salts item)⟩) = Except.ok entry →
        entry = entryOf hash salts item := by
      intro item entry committed
      obtain ⟨digest, hashed, committed⟩ := bind_ok committed
      rw [← Except.ok.inj committed, entryOf, digestOf_eq hashed]
    rw [mapOk_congr disclosable.commitment_eq, mapOk_eq_map_iff returns]
    refine and_congr_left' (forall₂_congr fun item _ => ⟨?_, ?_⟩)
    · rintro ⟨entry, committed⟩
      obtain ⟨digest, hashed, _⟩ := bind_ok committed
      exact ⟨digest, hashed⟩
    · rintro ⟨digest, hashed⟩
      exact ⟨_, bind_ok_iff.mpr ⟨digest, hashed, rfl⟩⟩
  rw [sorted]
  constructor
  · intro computed
    obtain ⟨all, mapped, computed⟩ := bind_ok computed
    obtain ⟨hashed, rfl⟩ := (made all).mp mapped
    exact ⟨hashed, (Except.ok.inj computed).symm⟩
  · rintro ⟨hashed, rfl⟩
    exact bind_ok_iff.mpr ⟨_, (made _).mpr ⟨hashed, rfl⟩, rfl⟩

theorem Disclosable.profile (disclosable : Disclosable record salts) :
    ∀ item ∈ record, JcsProfile (preimageOf salts item) := by
  intro item member
  obtain ⟨salt, found, profile⟩ := disclosable.covered item member
  rw [preimageOf, Json.get, found, Option.getD_some]
  exact jcsProfile_preimage (disclosable.values item member) profile

section
variable [Interpreter]

theorem dumpsBytes_eq_ok_iff {bytes : Bytes} : dumpsBytes value = .ok bytes ↔
    Interpreter.dumps.Admits value ∧ encodeUtf8 (Delegation.jcs value) = .ok bytes := by
  rw [dumpsBytes, Delegation.jcsWithin]
  split
  · rename_i admits
    rw [ok_bind, and_iff_right admits]
  · rename_i deep
    exact iff_of_false (fun raised => by cases raised) fun both => deep both.1

theorem dumpsHash_eq_ok_iff {digest : Str} :
    dumpsHash value = .ok digest ↔ ∃ bytes, dumpsBytes value = .ok bytes ∧ hexOf (sha256 bytes) = digest := by
  simp only [dumpsBytes_eq_ok_iff]
  rw [dumpsHash, Delegation.jcsWithin]
  split
  · rename_i admits
    rw [ok_bind, Delegation.sha256hex, bind_ok_iff]
    simp [pure, Except.pure, admits]
  · rename_i deep
    exact iff_of_false (fun raised => by cases raised) fun ⟨_, both, _⟩ => deep both.1

/-- `json.dumps` has bytes to hash iff the stack lasts and the value has a canonical text. -/
theorem dumpsHash_isOk_iff (profile : JcsProfile value) :
    (∃ digest, dumpsHash value = .ok digest) ↔ Interpreter.dumps.Admits value ∧ Jcs.Encodable value := by
  have scalar : Scalar (Delegation.jcs value) ↔ Jcs.Encodable value := by
    rw [Delegation.jcs, scalar_dumps_iff profile.sortKeys, encodable_sortKeys_iff]
  rw [← scalar, ← encodeUtf8_isOk_iff]
  simp only [dumpsHash_eq_ok_iff, dumpsBytes_eq_ok_iff]
  constructor
  · rintro ⟨_, bytes, ⟨admits, encoded⟩, _⟩
    exact ⟨admits, bytes, encoded⟩
  · rintro ⟨admits, bytes, encoded⟩
    exact ⟨_, bytes, ⟨admits, encoded⟩, rfl⟩

theorem sha256Jcs_isOk_iff : (∃ digest, sha256Jcs value = .ok digest) ↔ Shallow value ∧ Jcs.Encodable value := by
  rw [← jcsBytes_isOk_iff]
  constructor
  · rintro ⟨digest, hashed⟩
    obtain ⟨bytes, encoded, _⟩ := sha256Jcs_eq_ok_iff.mp hashed
    exact ⟨bytes, encoded⟩
  · rintro ⟨bytes, encoded⟩
    exact ⟨_, sha256Jcs_eq_ok_iff.mpr ⟨bytes, encoded, rfl⟩⟩

/-- The two hashes of a value that agrees are one, where the stack lasts for both. -/
theorem dumpsHash_eq (profile : JcsProfile value) (agreeing : Agreeing value)
    (admits : Interpreter.dumps.Admits value) (shallow : Shallow value) : dumpsHash value = sha256Jcs value := by
  have same := (encodeUtf8_sortKeys_iff profile).mpr (Or.inr agreeing)
  rw [dumpsHash, Delegation.jcsWithin, if_pos admits, ok_bind, Delegation.sha256hex, Delegation.jcs, same,
    ← boundlessBytes_eq profile, sha256Jcs, jcsBytes_of_shallow shallow]

/-- JavaScript hashes the canonical bytes. -/
theorem sha256Hex_ofJson {digest : Str} (profile : JcsProfile value) (hashed : sha256Jcs value = .ok digest) :
    Ecma.sha256Hex (Ecma.jcs (Ecma.ofJson value)) = digest := by
  obtain ⟨bytes, encoded, rfl⟩ := sha256Jcs_eq_ok_iff.mp hashed
  obtain ⟨_, encodable⟩ := jcsBytes_isOk_iff.mp ⟨bytes, encoded⟩
  have written := (jcsBytes_eq_ok_iff_boundless.mp encoded).2
  rw [boundlessBytes_eq profile, encodeUtf8_eq_ok_iff] at written
  rw [Ecma.sha256Hex, Ecma.jcs_ofJson profile encodable, Ecma.utf8Bytes_codeUnits written]

end

theorem Js.jcsHash_eq_some_iff [Ecma.Engine] {value : Ecma.JsValue} {digest : Str} : Js.jcsHash value = some digest ↔
    Ecma.Engine.lasts value = true ∧ Ecma.sha256Hex (Ecma.jcs value) = digest := by
  rw [Js.jcsHash]
  split <;> simp [*]

/-- A map has the same values in JavaScript. -/
theorem lookup_ofJsonItems {items : Fields} {key : Str} (unique : (items.map fun item => codeUnits item.1).Nodup)
    (found : items.lookup key = some value) :
    (Ecma.ofJsonItems items).lookup (codeUnits key) = some (Ecma.ofJson value) := by
  rw [Ecma.ofJsonItems_eq_map]
  induction items with
  | nil => cases found
  | cons item rest ih =>
      obtain ⟨name, stored⟩ := item
      obtain ⟨apart, unique⟩ := List.nodup_cons.mp unique
      rw [List.lookup_cons] at found
      rw [List.map_cons, List.lookup_cons]
      split at found
      · rename_i same
        obtain rfl := beq_iff_eq.mp same
        obtain rfl := Option.some.inj found
        rw [beq_self_eq_true]
      · have other : (codeUnits key == codeUnits name) = false := by
          obtain ⟨front, back, rfl, _⟩ := List.lookup_eq_some_iff.mp found
          exact beq_false_of_ne fun same => apart (List.mem_map.mpr ⟨(key, value), by simp, same⟩)
        rw [other]
        exact ih unique found

/-- JavaScript has the entries of the fields as it sorts them, where its stack lasts for each. -/
theorem Js.commitmentVector_eq_some_iff [Ecma.Engine] (disclosable : Disclosable record salts)
    {entries : List (Entry Ecma.JsString)} :
    Js.commitmentVector (Ecma.ofJsonItems record) (Ecma.ofJsonItems salts) = some entries ↔
      (∀ item ∈ record, Ecma.Engine.lasts (Ecma.ofJson (preimageOf salts item)) = true) ∧
        entries = (record.insertionSort fun a b => utf16be a.1 ≤ utf16be b.1).map fun item =>
          ⟨codeUnits item.1, Ecma.sha256Hex (Ecma.jcs (Ecma.ofJson (preimageOf salts item)))⟩ := by
  have entry : ∀ item ∈ record, (do
      return (⟨codeUnits item.1, ← Js.fieldDigest (codeUnits item.1) (Ecma.ofJson item.2)
        (((Ecma.ofJsonItems salts).lookup (codeUnits item.1)).getD .undefined)⟩ : Entry Ecma.JsString)) =
      if Ecma.Engine.lasts (Ecma.ofJson (preimageOf salts item)) then
        some ⟨codeUnits item.1, Ecma.sha256Hex (Ecma.jcs (Ecma.ofJson (preimageOf salts item)))⟩
      else none := by
    intro item member
    obtain ⟨salt, found, _⟩ := disclosable.covered item member
    rw [preimageOf, Json.get, found, lookup_ofJsonItems disclosable.names found, Option.getD_some, Option.getD_some,
      Js.fieldDigest, Js.jcsHash]
    simp only [preimage, Ecma.ofJson, Ecma.ofJsonItems]
    split <;> rfl
  rw [Js.commitmentVector, Ecma.ofJsonItems_eq_map record, List.mapM_map, List.map_insertionSort
    (fun a b : Str × Json => utf16be a.1 ≤ utf16be b.1) (fun a b : Entry Ecma.JsString => a.field ≤ b.field) _ _
    fun _ _ _ _ => Ecma.codeUnits_le_iff.symm]
  constructor
  · intro computed
    obtain ⟨made, mapped, sorted⟩ := Option.bind_eq_some_iff.mp computed
    obtain ⟨lasts, rfl⟩ := (mapM_guard_eq_some_iff entry).mp mapped
    exact ⟨lasts, (Option.some.inj sorted).symm⟩
  · rintro ⟨lasts, rfl⟩
    exact Option.bind_eq_some_iff.mpr ⟨_, (mapM_guard_eq_some_iff entry).mpr ⟨lasts, rfl⟩, rfl⟩

theorem jcsProfile_entries (entries : List (Entry Str)) : JcsProfile (.list (entries.map Entry.json)) := by
  have names : [ofString "field", ofString "digest"].Nodup := by decide
  refine .list (List.forall_mem_map.mpr fun entry _ => .dict names ?_)
  exact List.forall_mem_cons.mpr ⟨.str _, List.forall_mem_singleton.mpr (.str _)⟩

theorem agreeing_entries (entries : List (Entry Str)) : Agreeing (.list (entries.map Entry.json)) := by
  have names : ∀ a ∈ [ofString "field", ofString "digest"], ∀ b ∈ [ofString "field", ofString "digest"],
      crossed a b = false := by decide
  refine .list (List.forall_mem_map.mpr fun entry _ => .dict (fun a member b member' => ?_) ?_)
  · exact names a.1 (List.mem_map_of_mem (f := Prod.fst) member) b.1 (List.mem_map_of_mem (f := Prod.fst) member')
  · exact List.forall_mem_cons.mpr ⟨.str _, List.forall_mem_singleton.mpr (.str _)⟩

theorem depth_entries (entries : List (Entry Str)) : (Json.list (entries.map Entry.json)).depth ≤ 3 :=
  depth_list_le_iff.mpr (List.forall_mem_map.mpr fun _ _ => Nat.le_of_ble_eq_true rfl)

/-- The two verifiers hash a vector as the specification does. -/
theorem disclosureRef_eq [Interpreter] (entries : List (Entry Str)) : disclosureRef entries = specifiedRef entries :=
  dumpsHash_eq (jcsProfile_entries entries) (agreeing_entries entries)
    (Interpreter.room _ (depth_entries entries)).2.2 (shallow_of_depth (depth_entries entries))

theorem Js.disclosureRef_eq [Interpreter] [Ecma.Engine] {root : Str} (hashed : specifiedRef entries = .ok root) :
    Js.disclosureRef (entries.map Entry.units) = some root := by
  have same : Ecma.JsValue.array ((entries.map Entry.units).map fun entry =>
      .object [(codeUnits (ofString "field"), .string entry.field),
        (codeUnits (ofString "digest"), .string (codeUnits entry.digest))]) =
      Ecma.ofJson (.list (entries.map Entry.json)) := by
    rw [Ecma.ofJson, Ecma.ofJsonAll_eq_map, List.map_map, List.map_map]
    rfl
  rw [Js.disclosureRef, same, Js.jcsHash_eq_some_iff]
  exact ⟨Ecma.Engine.room _ (depth_entries entries), sha256Hex_ofJson (jcsProfile_entries entries) hashed⟩

/-- A digest has bytes, and a vector of named fields is hashed. -/
theorem specifiedRef_isOk [Interpreter] (names : ∀ entry ∈ entries, Scalar entry.field ∧ Scalar entry.digest) :
    ∃ root, specifiedRef entries = .ok root := by
  refine sha256Jcs_isOk_iff.mpr ⟨shallow_of_depth (depth_entries entries), .list (List.forall_mem_map.mpr
    fun entry member => (encodable_dict_iff_of_ascii rfl).mpr ?_)⟩
  obtain ⟨field, digest⟩ := names entry member
  exact List.forall_mem_cons.mpr ⟨.str field, List.forall_mem_singleton.mpr (.str digest)⟩

/-- An entry is hashed where its digest was. -/
theorem scalar_entryOf [Interpreter] {item : Str × Json} {digest : Str} (scalar : Scalar item.1)
    (hashed : sha256Jcs (preimageOf salts item) = .ok digest) :
    Scalar (entryOf sha256Jcs salts item).field ∧ Scalar (entryOf sha256Jcs salts item).digest := by
  obtain ⟨bytes, _, rfl⟩ := sha256Jcs_eq_ok_iff.mp hashed
  exact ⟨scalar, by rw [entryOf, digestOf_eq hashed]; exact scalar_hexOf⟩

/-- The entries in JavaScript are those of the specification, in the order of the UTF-16 names. -/
theorem Js.commitmentVector_eq_units [Interpreter] [Ecma.Engine] (disclosable : Disclosable record salts)
    {entries : List (Entry Ecma.JsString)}
    (hashed : ∀ item ∈ record, ∃ digest, sha256Jcs (preimageOf salts item) = .ok digest) :
    Js.commitmentVector (Ecma.ofJsonItems record) (Ecma.ofJsonItems salts) = some entries ↔
      (∀ item ∈ record, Ecma.Engine.lasts (Ecma.ofJson (preimageOf salts item)) = true) ∧
        entries =
        ((record.insertionSort fun a b => utf16be a.1 ≤ utf16be b.1).map (entryOf sha256Jcs salts)).map Entry.units := by
  have units : ((record.insertionSort fun a b => utf16be a.1 ≤ utf16be b.1).map fun item =>
      (⟨codeUnits item.1, Ecma.sha256Hex (Ecma.jcs (Ecma.ofJson (preimageOf salts item)))⟩ : Entry Ecma.JsString)) =
      ((record.insertionSort fun a b => utf16be a.1 ≤ utf16be b.1).map (entryOf sha256Jcs salts)).map Entry.units := by
    rw [List.map_map]
    refine List.map_congr_left fun item member => ?_
    have stored := (List.mem_insertionSort _).mp member
    obtain ⟨digest, made⟩ := hashed item stored
    rw [sha256Hex_ofJson (disclosable.profile item stored) made, Function.comp_apply, entryOf, digestOf_eq made]
    rfl
  rw [Js.commitmentVector_eq_some_iff disclosable, units]

theorem Disclosable.unique (disclosable : Disclosable record salts) : (record.map Prod.fst).Nodup := by
  have fields := disclosable.fields
  rw [← Function.comp_def, ← List.map_map] at fields
  exact fields.of_map

/-- What is ordinary is committed to alike. -/
theorem Ordinary.same [Interpreter] [Ecma.Engine] (ordinary : Ordinary record salts) (disclosable : Disclosable record salts) :
    SameCommitments record salts := by
  have encodable : ∀ item ∈ record, Jcs.Encodable (preimageOf salts item) :=
    fun item member => encodable_preimage_iff.mpr (ordinary.encodable item member)
  have alike : ∀ item ∈ record, dumpsHash (preimageOf salts item) = sha256Jcs (preimageOf salts item) :=
    fun item member => dumpsHash_eq (disclosable.profile item member)
      (agreeing_preimage_iff.mpr (ordinary.agreeing item member)) (ordinary.shallow item member).1
      (ordinary.shallow item member).2.2
  have order := (sorted_eq_iff Prod.fst
    (fun a inside b inside' => List.inj_on_of_nodup_map disclosable.unique inside inside')
    fun item member => (ordinary.encodable item member).1).mpr ordinary.uncrossed
  have entries : (sortItems record).map (entryOf dumpsHash salts) =
      (sortItems record).map (entryOf sha256Jcs salts) := by
    refine List.map_congr_left fun item member => ?_
    have stored := (List.mem_insertionSort _).mp member
    rw [entryOf, entryOf, digestOf, digestOf, alike item stored]
  have hashed : ∀ item ∈ record, ∃ digest, sha256Jcs (preimageOf salts item) = .ok digest :=
    fun item member => sha256Jcs_isOk_iff.mpr ⟨(ordinary.shallow item member).2.2, encodable item member⟩
  obtain ⟨root, rooted⟩ : ∃ root, specifiedRef ((sortItems record).map (entryOf sha256Jcs salts)) = .ok root := by
    refine specifiedRef_isOk (List.forall_mem_map.mpr fun item member => ?_)
    have stored := (List.mem_insertionSort _).mp member
    obtain ⟨digest, made⟩ := hashed item stored
    exact scalar_entryOf (ordinary.encodable item stored).1 made
  refine ⟨(sortItems record).map (entryOf sha256Jcs salts), root, ⟨?_, (disclosureRef_eq _).trans rooted⟩,
    ⟨?_, Js.disclosureRef_eq rooted⟩, (commitmentVectorBy_eq_ok_iff disclosable).mpr ⟨hashed, rfl⟩, rooted⟩
  · refine (commitmentVectorBy_eq_ok_iff disclosable).mpr ⟨fun item member => ?_, entries.symm⟩
    rw [alike item member]
    exact hashed item member
  · rw [Js.commitmentVector_eq_units disclosable hashed, ← order, sortItems]
    exact ⟨fun item member => (ordinary.shallow item member).2.1, rfl⟩

/-- A field with one digest by either encoder agrees, or two preimages collide. -/
theorem agreeing_of_digestOf [Interpreter] {item : Str × Json} {digest digest' : Str} (member : item ∈ record)
    (profile : JcsProfile (preimageOf salts item)) (free : ¬ Collides (hashedPreimages record salts))
    (dumped : dumpsHash (preimageOf salts item) = .ok digest) (hashed : sha256Jcs (preimageOf salts item) = .ok digest')
    (same : digestOf dumpsHash salts item = digestOf sha256Jcs salts item) : Agreeing (preimageOf salts item) := by
  have encodable := (sha256Jcs_isOk_iff.mp ⟨digest', hashed⟩).2
  rw [digestOf_eq dumped, digestOf_eq hashed] at same
  obtain ⟨bytes, encoded, rfl⟩ := dumpsHash_eq_ok_iff.mp dumped
  obtain ⟨bytes', encoded', rfl⟩ := sha256Jcs_eq_ok_iff.mp hashed
  have listed : ∀ x ∈ [bytes, bytes'], x ∈ hashedPreimages record salts := by
    intro x inside
    refine List.mem_flatMap.mpr ⟨item, member, ?_⟩
    rw [encoded, encoded']
    exact inside
  obtain rfl := eq_of_not_collides free (listed bytes (by simp)) (listed bytes' (by simp)) (hexOf_injective same)
  have written := (jcsBytes_eq_ok_iff_boundless.mp encoded').2
  rw [boundlessBytes_eq profile] at written
  have encoded := (dumpsBytes_eq_ok_iff.mp encoded).2
  rw [Delegation.jcs] at encoded
  exact ((encodeUtf8_sortKeys_iff profile).mp (encoded.trans written.symm)).resolve_left (not_not.mpr encodable)

/-- What is committed to alike is ordinary, or two preimages collide. -/
theorem SameCommitments.ordinary [Interpreter] [Ecma.Engine] (same : SameCommitments record salts) (disclosable : Disclosable record salts)
    (free : ¬ Collides (hashedPreimages record salts)) : Ordinary record salts := by
  obtain ⟨entries, root, ⟨computed, _⟩, ⟨js, _⟩, specified, _⟩ := same
  obtain ⟨dumped, rfl⟩ := (commitmentVectorBy_eq_ok_iff disclosable).mp computed
  obtain ⟨hashed, listed⟩ := (commitmentVectorBy_eq_ok_iff disclosable).mp specified
  obtain ⟨lasts, js⟩ := (Js.commitmentVector_eq_units disclosable hashed).mp js
  have encodable : ∀ item ∈ record, Jcs.Encodable (preimageOf salts item) :=
    fun item member => (sha256Jcs_isOk_iff.mp (hashed item member)).2
  have plain : ∀ item ∈ record, Scalar item.1 ∧ Jcs.Encodable item.2 ∧ Jcs.Encodable ((Json.dict salts).get item.1) :=
    fun item member => encodable_preimage_iff.mp (encodable item member)
  have agreeing : ∀ item ∈ record, Agreeing (preimageOf salts item) := by
    intro item member
    have stored := (List.mem_insertionSort fun a b : Str × Json => a.1 ≤ b.1).mpr member
    have digests := congrArg Entry.digest (List.map_inj_left.mp listed item stored)
    obtain ⟨_, made⟩ := dumped item member
    obtain ⟨_, made'⟩ := hashed item member
    exact agreeing_of_digestOf member (disclosable.profile item member) free made made' digests
  have shallow : ∀ item ∈ record, Interpreter.dumps.Admits (preimageOf salts item) ∧
      Ecma.Engine.lasts (Ecma.ofJson (preimageOf salts item)) = true ∧ Shallow (preimageOf salts item) :=
    fun item member => ⟨((dumpsHash_isOk_iff (disclosable.profile item member)).mp (dumped item member)).1,
      lasts item member, (sha256Jcs_isOk_iff.mp (hashed item member)).1⟩
  refine ⟨shallow, plain, fun item member => agreeing_preimage_iff.mp (agreeing item member), ?_⟩
  -- the entries stand in one order, and so do the fields
  have fields := congrArg (List.map Entry.field) js.symm
  simp only [List.map_map] at fields
  have names : (record.insertionSort fun a b => utf16be a.1 ≤ utf16be b.1) = sortItems record := by
    refine eq_of_map_eq (fun a inside b inside' => ?_) fields
    exact List.inj_on_of_nodup_map disclosable.fields ((List.mem_insertionSort _).mp inside)
      ((List.mem_insertionSort _).mp inside')
  exact (sorted_eq_iff Prod.fst
    (fun a inside b inside' => List.inj_on_of_nodup_map disclosable.unique inside inside')
    fun item member => (plain item member).1).mp names.symm

/-- The verifiers and the specification commit alike to what is ordinary and to nothing else, or two
preimages collide. -/
theorem sameCommitments_iff [Interpreter] [Ecma.Engine] (disclosable : Disclosable record salts) :
    (SameCommitments record salts ↔ Ordinary record salts) ∨ Collides (hashedPreimages record salts) := by
  by_cases free : Collides (hashedPreimages record salts)
  · exact Or.inr free
  · exact Or.inl ⟨fun same => same.ordinary disclosable free, fun ordinary => ordinary.same disclosable⟩

end

section
open Cpython Node

/-- A private use character, and an astral one that UTF-16 sorts before it. -/
def privateUse : Str := [0xE000]

def astralName : Str := [0x1F600]

def saltsOf (names : List Str) : Fields := names.map fun name => (name, .str (ofString "00"))

/-- An astral name before an ASCII one, and an object whose keys are not in their order. -/
def unsorted : Fields :=
  [(astralName, .dict [(ofString "b", .int 2), (ofString "a", .int 1)]), (ofString "a", .int 1)]

/-- Two fields that cross. -/
def crossedFields : Fields := [(privateUse, .int 1), (astralName, .int 2)]

/-- A field whose value has keys that cross. -/
def crossedKeys : Fields := [(ofString "a", .dict crossedFields)]

theorem disclosable_unsorted : Disclosable unsorted (saltsOf [astralName, ofString "a"]) where
  fields := by decide
  names := by decide
  values := by
    refine List.forall_mem_cons.mpr ⟨.dict (by decide) ?_, List.forall_mem_singleton.mpr (.int (by decide))⟩
    exact List.forall_mem_cons.mpr ⟨.int (by decide), List.forall_mem_singleton.mpr (.int (by decide))⟩
  covered := List.forall_mem_cons.mpr ⟨⟨_, rfl, .str _⟩, List.forall_mem_singleton.mpr ⟨_, rfl, .str _⟩⟩

theorem disclosable_fields : Disclosable crossedFields (saltsOf [privateUse, astralName]) where
  fields := by decide
  names := by decide
  values := List.forall_mem_cons.mpr ⟨.int (by decide), List.forall_mem_singleton.mpr (.int (by decide))⟩
  covered := List.forall_mem_cons.mpr ⟨⟨_, rfl, .str _⟩, List.forall_mem_singleton.mpr ⟨_, rfl, .str _⟩⟩

theorem disclosable_field {value : Json} (profile : JcsProfile value) :
    Disclosable [(ofString "a", value)] (saltsOf [ofString "a"]) where
  fields := List.nodup_singleton _
  names := by decide
  values := List.forall_mem_singleton.mpr profile
  covered := List.forall_mem_singleton.mpr ⟨_, rfl, .str _⟩

theorem sameCommitments_unsorted : SameCommitments unsorted (saltsOf [astralName, ofString "a"]) := by
  have salt : Jcs.Encodable (.str (ofString "00")) := .str (scalar_ascii rfl)
  have free : ¬ Collides (hashedPreimages unsorted (saltsOf [astralName, ofString "a"])) := by
    unfold Collides
    decide +kernel
  refine ((sameCommitments_iff disclosable_unsorted).resolve_right free).mpr ⟨by decide, ?_, ?_, by decide⟩
  · refine List.forall_mem_cons.mpr ⟨⟨List.forall_mem_singleton.mpr (by decide), encodable_dict_iff.mpr ?_, salt⟩,
      List.forall_mem_singleton.mpr ⟨scalar_ascii rfl, .int (by decide), salt⟩⟩
    exact List.forall_mem_cons.mpr ⟨⟨scalar_ascii rfl, .int (by decide)⟩,
      List.forall_mem_singleton.mpr ⟨scalar_ascii rfl, .int (by decide)⟩⟩
  · refine List.forall_mem_cons.mpr ⟨⟨.dict (by decide) ?_, .str _⟩, List.forall_mem_singleton.mpr ⟨.int 1, .str _⟩⟩
    exact List.forall_mem_cons.mpr ⟨.int 2, List.forall_mem_singleton.mpr (.int 1)⟩

/-- The vectors stand in two orders, the digests of crossing keys differ, and the specification has
no digest of 400 lists in each other. -/
theorem not_sameCommitments : ¬ SameCommitments crossedFields (saltsOf [privateUse, astralName]) ∧
    ¬ SameCommitments crossedKeys (saltsOf [ofString "a"]) ∧
    ¬ SameCommitments [(ofString "a", nested 400)] (saltsOf [ofString "a"]) := by
  have keys := disclosable_field (.dict (by decide) disclosable_fields.values)
  refine ⟨fun same => ?_, fun same => ?_, fun same => ?_⟩
  · obtain ⟨entries, root, ⟨computed, _⟩, ⟨js, _⟩, _⟩ := same
    obtain ⟨_, rfl⟩ := (commitmentVectorBy_eq_ok_iff disclosable_fields).mp computed
    obtain ⟨_, js⟩ := (Js.commitmentVector_eq_some_iff disclosable_fields).mp js
    have fields := congrArg (List.map Entry.field) js
    simp only [List.map_map] at fields
    exact absurd fields (by decide)
  · obtain ⟨entries, root, ⟨computed, _⟩, _, specified, _⟩ := same
    obtain ⟨_, rfl⟩ := (commitmentVectorBy_eq_ok_iff keys).mp computed
    obtain ⟨_, listed⟩ := (commitmentVectorBy_eq_ok_iff keys).mp specified
    have digests := congrArg (List.map Entry.digest) listed
    exact absurd digests (by decide +kernel)
  · obtain ⟨entries, root, _, _, specified, _⟩ := same
    obtain ⟨hashed, _⟩ := (commitmentVectorBy_eq_ok_iff (disclosable_field (.nested 400))).mp specified
    obtain ⟨shallow, _⟩ := sha256Jcs_isOk_iff.mp (hashed _ List.mem_cons_self)
    exact absurd shallow (by decide +kernel)

end

end Argentum.Disclosure
