import Argentum.Mycelium.Recompute
import Argentum.Trail.Digests
import Argentum.Trail.SortKeys

/-! The three derivations of a reference from an agent, an action, a scope and a time: the
canonical one, the second one under a tag, and that of the evidence anchor, under a tag of its
own and over normalized text. What is hashed says which derivation it was and of what. -/
namespace Argentum.Mycelium
open Argentum Text JsonText Calendar

/-- `mycelium.action-ref:v2:` -/
def v2DomainTag : Str := ofString "mycelium.action-ref:v2:"

/-- The bytes of ASCII text. -/
def asciiBytes (text : Str) : Bytes := text.map fun c => byte c.val

def computeActionRefV2 (agentId actionType scope timestamp : Str) : Except Raised (Except OutOfProfile Str) := do
  match ← validateDomain (.str agentId) (.str actionType) (.str scope) timestamp false with
  | some refused => return .error refused
  | none => do
      let canonical ← fromPy (jcsEncode [(ofString "agent_id", .str agentId), (ofString "action_type", .str actionType),
        (ofString "scope", .str scope), (ofString "timestamp", .str timestamp)])
      return .ok (ofString "v2:" ++ hexOf (Sha256.sha256 (asciiBytes v2DomainTag ++ canonical)))

/-- `_format_timestamp_rfc3339`, where `time.gmtime` takes the seconds: their year is a C `int`,
counted from 1900. -/
def formatTimestampRfc3339 (timestamp : Int) : Option Str :=
  let day := timestamp / 86400
  let second := (timestamp % 86400).toNat
  if -2 ^ 31 ≤ civilYear day - 1900 ∧ civilYear day - 1900 < 2 ^ 31 then
    some (Jcs.intText (civilYear day) ++ 45 :: padded 2 (civilMonth day).toNat ++
      45 :: padded 2 (dayOfMonth day).toNat ++
      84 :: padded 2 (second / 3600) ++ 58 :: padded 2 (second / 60 % 60) ++ 58 :: padded 2 (second % 60) ++
      ofString ".000Z")
  else none

def anchorTag : Str := ofString "mycelium-evidence-anchor:v1:"

/-- The four fields of a preimage, in the order they are written in. -/
def fields (agentId actionType scope timestamp : Str) : List (Str × Json) :=
  [(ofString "agent_id", .str agentId), (ofString "action_type", .str actionType), (ofString "scope", .str scope),
    (ofString "timestamp", .str timestamp)]

/-- What the `_compute_action_ref` of the evidence anchor hashes, none where it raises. `nfc`
stands for `unicodedata.normalize("NFC", ·)`. -/
def anchorPreimage (nfc : Str → Str) (agentId actionType scope : Str) (timestamp : Int) : Option Bytes := do
  let formatted ← formatTimestampRfc3339 timestamp
  let payload := fields (nfc agentId) (nfc actionType) (nfc scope) formatted
  let domainTagged := anchorTag ++ Dumps.dumps (.dict (Dumps.sortItems payload))
  (Dumps.encodeUtf8 domainTagged).toOption

/-- The derivations, and what each is made of. -/
inductive Derivation where
  | v1 (agentId actionType scope timestamp : Str)
  | v2 (agentId actionType scope timestamp : Str)
  | anchor (agentId actionType scope : Str) (timestamp : Int)

namespace Derivation

/-- The bytes that are hashed, none where the derivation raises. -/
def preimage (nfc : Str → Str) : Derivation → Option Bytes
  | .v1 agentId actionType scope timestamp => (jcsEncode (fields agentId actionType scope timestamp)).toOption
  | .v2 agentId actionType scope timestamp =>
      (jcsEncode (fields agentId actionType scope timestamp)).toOption.map (asciiBytes v2DomainTag ++ ·)
  | .anchor agentId actionType scope timestamp => anchorPreimage nfc agentId actionType scope timestamp

def digest (nfc : Str → Str) (derivation : Derivation) : Option Str :=
  (derivation.preimage nfc).map fun bytes => hexOf (Sha256.sha256 bytes)

/-- One derivation, of the same four values; the anchor tells text apart by its normal form. -/
def Same (nfc : Str → Str) : Derivation → Derivation → Prop
  | .v1 agentId actionType scope timestamp, .v1 agentId' actionType' scope' timestamp' =>
      agentId = agentId' ∧ actionType = actionType' ∧ scope = scope' ∧ timestamp = timestamp'
  | .v2 agentId actionType scope timestamp, .v2 agentId' actionType' scope' timestamp' =>
      agentId = agentId' ∧ actionType = actionType' ∧ scope = scope' ∧ timestamp = timestamp'
  | .anchor agentId actionType scope timestamp, .anchor agentId' actionType' scope' timestamp' =>
      nfc agentId = nfc agentId' ∧ nfc actionType = nfc actionType' ∧ nfc scope = nfc scope' ∧ timestamp = timestamp'
  | _, _ => False

end Derivation

section
variable {text other : Str} {bytes : Bytes}
  {agentId actionType scope timestamp agentId' actionType' scope' timestamp' : Str}

theorem asciiBytes_append (ascii : text.all (fun c => c.val < 0x80) = true) (encoded : utf8 other = some bytes) :
    utf8 (text ++ other) = some (asciiBytes text ++ bytes) := by
  induction text with
  | nil => exact encoded
  | cons c rest ih =>
      rw [List.all_cons, Bool.and_eq_true, decide_eq_true_eq] at ascii
      rw [List.cons_append, utf8, ih ascii.2, utf8Char, if_pos ascii.1]
      rfl

theorem toOption_encodeUtf8 (text : Str) : (Dumps.encodeUtf8 text).toOption = utf8 text := by
  rw [Dumps.encodeUtf8]
  cases utf8 text <;> rfl

theorem jcsProfile_fields (agentId actionType scope timestamp : Str) :
    Dumps.JcsProfile (.dict (fields agentId actionType scope timestamp)) := by
  refine .dict (by simp only [fields, List.map_cons, List.map_nil]; decide) ?_
  simp only [fields, List.forall_mem_cons, List.not_mem_nil, false_implies, implies_true, and_true]
  exact ⟨.str _, .str _, .str _, .str _⟩

theorem sortKeys_fields (agentId actionType scope timestamp : Str) :
    Dumps.sortKeys (.dict (fields agentId actionType scope timestamp)) =
      .dict (Dumps.sortItems (fields agentId actionType scope timestamp)) := rfl

/-- The text of the four fields is that of no other four. -/
theorem dumps_fields_injective
    (same : Dumps.dumps (.dict (Dumps.sortItems (fields agentId actionType scope timestamp))) =
    Dumps.dumps (.dict (Dumps.sortItems (fields agentId' actionType' scope' timestamp')))) :
    agentId = agentId' ∧ actionType = actionType' ∧ scope = scope' ∧ timestamp = timestamp' := by
  rw [← sortKeys_fields, ← sortKeys_fields, ← Dumps.print_dumpsTree (jcsProfile_fields _ _ _ _).sortKeys,
    ← Dumps.print_dumpsTree (jcsProfile_fields _ _ _ _).sortKeys] at same
  have trees := Tree.print_injective same
  have tree : ∀ agentId actionType scope timestamp, Dumps.dumpsTree (Dumps.sortKeys
      (.dict (fields agentId actionType scope timestamp))) = .dict [(ofString "action_type", .str actionType),
        (ofString "agent_id", .str agentId), (ofString "scope", .str scope), (ofString "timestamp", .str timestamp)] :=
    fun _ _ _ _ => rfl
  simp only [tree, Tree.dict.injEq, List.cons.injEq, Prod.mk.injEq, Tree.str.injEq, true_and, and_true] at trees
  exact ⟨trees.2.1, trees.1, trees.2.2⟩

/-- `_jcs_encode` gives the bytes of `jcs_bytes`. -/
theorem jcsEncode_eq_boundlessBytes (agentId actionType scope timestamp : Str) :
    jcsEncode (fields agentId actionType scope timestamp) =
      Jcs.boundlessBytes (preimage agentId actionType scope timestamp) := by
  have keys : ∀ a ∈ (fields agentId actionType scope timestamp).map Prod.fst,
      ∀ b ∈ (fields agentId actionType scope timestamp).map Prod.fst, Dumps.crossed a b = false := by
    simp only [fields, List.map_cons, List.map_nil]
    decide
  have profile := jcsProfile_fields agentId actionType scope timestamp
  refine Eq.trans ((Dumps.encodeUtf8_sortKeys_iff profile).mpr (Or.inr (.dict ?_ ?_)))
    (Dumps.boundlessBytes_eq profile).symm
  · exact fun a inside b inside' => keys _ (List.mem_map_of_mem inside) _ (List.mem_map_of_mem inside')
  · simp only [fields, List.forall_mem_cons, List.not_mem_nil, false_implies, implies_true, and_true]
    exact ⟨.str _, .str _, .str _, .str _⟩

/-- The stack lasts for four texts in a dictionary. -/
theorem jcsEncode_eq_jcsBytes [Interpreter] (agentId actionType scope timestamp : Str) :
    jcsEncode (fields agentId actionType scope timestamp) =
      Jcs.jcsBytes (preimage agentId actionType scope timestamp) := by
  have flat : (preimage agentId actionType scope timestamp).depth ≤ 3 := Nat.le_of_ble_eq_true rfl
  rw [Jcs.jcsBytes_of_shallow (Jcs.shallow_of_depth flat), jcsEncode_eq_boundlessBytes]

theorem padded_injective {width m n : Nat} (small : m < 10 ^ width) (small' : n < 10 ^ width)
    (same : padded width m = padded width n) : m = n := by
  rw [← digitsValue_padded small, same, digitsValue_padded small']

/-- A time that is written says which second it is. -/
theorem formatTimestampRfc3339_injective {m n : Int} {formatted : Str}
    (first : formatTimestampRfc3339 m = some formatted) (second : formatTimestampRfc3339 n = some formatted) :
    m = n := by
  simp only [formatTimestampRfc3339, Option.ite_none_right_eq_some, Option.some.injEq] at first second
  have same := first.2.trans second.2.symm
  obtain ⟨same, _⟩ := List.append_inj' same rfl
  obtain ⟨same, seconds⟩ := List.append_inj' same rfl
  obtain ⟨same, minutes⟩ := List.append_inj' same rfl
  obtain ⟨same, hours⟩ := List.append_inj' same rfl
  obtain ⟨same, days⟩ := List.append_inj' same rfl
  obtain ⟨years, months⟩ := List.append_inj' same rfl
  have two : ∀ {a b : Nat} {c : CodePoint}, a < 100 → b < 100 → c :: padded 2 a = c :: padded 2 b → a = b :=
    fun small small' same => @padded_injective 2 _ _ small small' (List.tail_eq_of_cons_eq same)
  have month := civilMonth_range (m / 86400)
  have month' := civilMonth_range (n / 86400)
  have day := dayOfMonth_range (m / 86400)
  have day' := dayOfMonth_range (n / 86400)
  have date : m / 86400 = n / 86400 := by
    rw [← dayNumber_civil (m / 86400), ← dayNumber_civil (n / 86400), Jcs.intText_injective years,
      show civilMonth (m / 86400) = civilMonth (n / 86400) by
        have := two (by omega) (by omega) months
        omega,
      show dayOfMonth (m / 86400) = dayOfMonth (n / 86400) by
        have := two (by omega) (by omega) days
        omega]
  have hour := two (by omega) (by omega) hours
  have minute := two (by omega) (by omega) minutes
  have second := two (by omega) (by omega) seconds
  omega

end

/-- `json.dumps` of the four fields. -/
def fieldsText (agentId actionType scope timestamp : Str) : Str :=
  Dumps.dumps (.dict (Dumps.sortItems (fields agentId actionType scope timestamp)))

namespace Derivation
variable {nfc : Str → Str} {bytes : Bytes} {first second : Derivation}

/-- The text whose UTF-8 bytes are hashed. -/
def taggedText (nfc : Str → Str) : Derivation → Option Str
  | .v1 agentId actionType scope timestamp => some (fieldsText agentId actionType scope timestamp)
  | .v2 agentId actionType scope timestamp => some (v2DomainTag ++ fieldsText agentId actionType scope timestamp)
  | .anchor agentId actionType scope timestamp => do
      return anchorTag ++ fieldsText (nfc agentId) (nfc actionType) (nfc scope) (← formatTimestampRfc3339 timestamp)

theorem taggedText_of_preimage {derivation : Derivation} (hashed : derivation.preimage nfc = some bytes) :
    ∃ text, derivation.taggedText nfc = some text ∧ utf8 text = some bytes := by
  cases derivation with
  | v1 agentId actionType scope timestamp =>
      refine ⟨_, rfl, ?_⟩
      rwa [preimage, jcsEncode, toOption_encodeUtf8] at hashed
  | v2 agentId actionType scope timestamp =>
      refine ⟨_, rfl, ?_⟩
      rw [preimage, jcsEncode, toOption_encodeUtf8] at hashed
      obtain ⟨canonical, encoded, rfl⟩ := Option.map_eq_some_iff.mp hashed
      exact asciiBytes_append rfl encoded
  | anchor agentId actionType scope timestamp =>
      obtain ⟨formatted, written, hashed⟩ := Option.bind_eq_some_iff.mp hashed
      refine ⟨anchorTag ++ fieldsText (nfc agentId) (nfc actionType) (nfc scope) formatted, ?_, ?_⟩
      · rw [taggedText, written]
        rfl
      · rwa [toOption_encodeUtf8] at hashed

/-- The tags keep the texts of the derivations apart. -/
theorem tags_apart (rest other : Str) : v2DomainTag ++ rest ≠ anchorTag ++ other ∧
    (∀ agentId actionType scope timestamp, v2DomainTag ++ rest ≠ fieldsText agentId actionType scope timestamp) ∧
    ∀ agentId actionType scope timestamp, anchorTag ++ other ≠ fieldsText agentId actionType scope timestamp := by
  have split : v2DomainTag = ofString "mycelium." ++ ofString "action-ref:v2:" := by decide
  have split' : anchorTag = ofString "mycelium-" ++ ofString "evidence-anchor:v1:" := by decide
  have opens : v2DomainTag = 109 :: v2DomainTag.tail := by decide
  have opens' : anchorTag = 109 :: anchorTag.tail := by decide
  refine ⟨fun same => ?_, fun _ _ _ _ same => ?_, fun _ _ _ _ same => ?_⟩
  · rw [split, split', List.append_assoc, List.append_assoc] at same
    exact absurd (List.append_inj_left same (by decide)) (by decide)
  · rw [opens, List.cons_append] at same
    exact absurd (List.head_eq_of_cons_eq same) (by decide)
  · rw [opens', List.cons_append] at same
    exact absurd (List.head_eq_of_cons_eq same) (by decide)

/-- A text is that of one derivation, of the same values. -/
theorem same_of_taggedText {text : Str} (written : first.taggedText nfc = some text)
    (written' : second.taggedText nfc = some text) :
    first.Same nfc second := by
  cases first with
  | v1 agentId actionType scope timestamp =>
      cases written
      cases second with
      | v1 => exact dumps_fields_injective (Option.some.inj written').symm
      | v2 => exact absurd (Option.some.inj written') ((tags_apart _ []).2.1 _ _ _ _)
      | anchor =>
          obtain ⟨formatted, _, same⟩ := Option.bind_eq_some_iff.mp written'
          exact absurd (Option.some.inj same) ((tags_apart [] _).2.2 _ _ _ _)
  | v2 agentId actionType scope timestamp =>
      cases written
      cases second with
      | v1 => exact absurd (Option.some.inj written').symm ((tags_apart _ []).2.1 _ _ _ _)
      | v2 => exact dumps_fields_injective (List.append_cancel_left (Option.some.inj written').symm)
      | anchor =>
          obtain ⟨formatted, _, same⟩ := Option.bind_eq_some_iff.mp written'
          exact absurd (Option.some.inj same).symm (tags_apart _ _).1
  | anchor agentId actionType scope timestamp =>
      obtain ⟨formatted, shown, same⟩ := Option.bind_eq_some_iff.mp written
      cases same
      cases second with
      | v1 => exact absurd (Option.some.inj written').symm ((tags_apart [] _).2.2 _ _ _ _)
      | v2 => exact absurd (Option.some.inj written') (tags_apart _ _).1
      | anchor =>
          obtain ⟨formatted', shown', same⟩ := Option.bind_eq_some_iff.mp written'
          obtain ⟨agent, action, extent, rfl⟩ :=
            dumps_fields_injective (List.append_cancel_left (Option.some.inj same).symm)
          exact ⟨agent, action, extent, formatTimestampRfc3339_injective shown shown'⟩

/-- What is hashed says which derivation it was, and of which values. -/
theorem same_of_preimage (hashed : first.preimage nfc = some bytes) (hashed' : second.preimage nfc = some bytes) :
    first.Same nfc second := by
  obtain ⟨text, written, encoded⟩ := taggedText_of_preimage hashed
  obtain ⟨text', written', encoded'⟩ := taggedText_of_preimage hashed'
  obtain rfl := utf8_injective encoded encoded'
  exact same_of_taggedText written written'

end Derivation

section
variable {agentId actionType scope timestamp actionRef : Str}

theorem ascii_padded (width n : Nat) : (padded width n).all (fun c => c.val < 0x80) = true := by
  refine List.all_eq_true.mpr fun c member => ?_
  have digit := List.all_eq_true.mp (isDigit_padded width n) c member
  simp only [isDigit, Bool.and_eq_true, decide_eq_true_eq] at digit ⊢
  omega

theorem ascii_of_isInstant (instant : IsInstant timestamp) : timestamp.all (fun c => c.val < 0x80) = true := by
  obtain ⟨fields, ms, _, _, rfl⟩ := instant
  simp only [rfc3339, List.all_append, List.all_cons, List.all_nil, ascii_padded]
  rfl

/-- The canonical encoder takes every four fields of the domain. -/
theorem jcsEncode_isOk (domain : InDomain agentId actionType scope timestamp false) :
    ∃ bytes, jcsEncode (fields agentId actionType scope timestamp) = .ok bytes := by
  have instant : IsInstant timestamp := domain.instant.resolve_right fun ⟨allowed, _⟩ => by cases allowed
  rw [jcsEncode_eq_boundlessBytes]
  refine Jcs.boundlessBytes_isOk_iff.mpr ((Jcs.encodable_dict_iff_of_ascii rfl).mpr ?_)
  simp only [List.forall_mem_cons, List.not_mem_nil, false_implies, implies_true, and_true, Jcs.encodable_str_iff]
  exact ⟨Jcs.scalar_ascii domain.asciiAgent, Jcs.scalar_ascii domain.asciiAction, Jcs.scalar_ascii domain.asciiScope,
    Jcs.scalar_ascii (ascii_of_isInstant instant)⟩

/-- The reference that is returned is the digest of the four fields. -/
theorem computeActionRef_eq_ok (computed : computeActionRef agentId actionType scope timestamp = .ok (.ok actionRef)) :
    ∃ bytes, jcsEncode (fields agentId actionType scope timestamp) = .ok bytes ∧
      actionRef = hexOf (Sha256.sha256 bytes) := by
  obtain ⟨checked, _, computed⟩ := bind_ok computed
  cases checked with
  | some refused => cases computed
  | none =>
      obtain ⟨bytes, encoded, computed⟩ := bind_ok computed
      cases computed
      exact ⟨bytes, fromPy_eq_ok encoded, rfl⟩

theorem computeActionRefV2_eq_ok
    (computed : computeActionRefV2 agentId actionType scope timestamp = .ok (.ok actionRef)) :
    ∃ bytes, jcsEncode (fields agentId actionType scope timestamp) = .ok bytes ∧
      actionRef = ofString "v2:" ++ hexOf (Sha256.sha256 (asciiBytes v2DomainTag ++ bytes)) := by
  obtain ⟨checked, _, computed⟩ := bind_ok computed
  cases checked with
  | some refused => cases computed
  | none =>
      obtain ⟨bytes, encoded, computed⟩ := bind_ok computed
      cases computed
      exact ⟨bytes, fromPy_eq_ok encoded, rfl⟩

theorem validateDomain_of_inDomain (domain : InDomain agentId actionType scope timestamp false) :
    validateDomain (.str agentId) (.str actionType) (.str scope) timestamp false = .ok none := by
  have instant : IsInstant timestamp := domain.instant.resolve_right fun ⟨allowed, _⟩ => by cases allowed
  rw [validateDomain_of_fields domain.toFieldsInDomain]
  exact (validateTimestamp_of_not_epochMs (Bool.false_and _)).1.mpr instant

theorem isDigest_sha256 (bytes : Bytes) : Trail.isDigest (hexOf (Sha256.sha256 bytes)) = true := by
  have digits : ∀ n : Fin 16, Trail.isLowerHex (hexDigit n) = true := by decide
  refine Trail.isDigest_iff.mpr ⟨by rw [length_hexOf, Sha256.length_sha256], List.all_eq_true.mpr fun c member => ?_⟩
  obtain ⟨n, rfl⟩ := hexOf_digits _ c member
  exact digits n

theorem actionRefVersion_v2 (bytes : Bytes) :
    Trail.actionRefVersion (ofString "v2:" ++ hexOf (Sha256.sha256 bytes)) = .ok .v2 := by
  have tagged : (ofString "v2:").isPrefixOf (ofString "v2:" ++ hexOf (Sha256.sha256 bytes)) = true :=
    List.isPrefixOf_iff_prefix.mpr (List.prefix_append _ _)
  have dropped : (ofString "v2:" ++ hexOf (Sha256.sha256 bytes)).drop 3 = hexOf (Sha256.sha256 bytes) := rfl
  rw [Trail.actionRefVersion, tagged, dropped, isDigest_sha256]
  rfl

end

/-- The references of the three derivations: what they hash is written in one way, exists on
the whole domain, tells derivations and values apart, and the version is told from the text. -/
structure Separated [Interpreter] (nfc : Str → Str) : Prop where
  encoders : ∀ agentId actionType scope timestamp,
    jcsEncode (fields agentId actionType scope timestamp) = Jcs.jcsBytes (preimage agentId actionType scope timestamp)
  returns : ∀ agentId actionType scope timestamp, InDomain agentId actionType scope timestamp false →
    ∃ digest digest', (Derivation.v1 agentId actionType scope timestamp).digest nfc = some digest ∧
      computeActionRef agentId actionType scope timestamp = .ok (.ok digest) ∧
      (Derivation.v2 agentId actionType scope timestamp).digest nfc = some digest' ∧
      computeActionRefV2 agentId actionType scope timestamp = .ok (.ok (ofString "v2:" ++ digest'))
  preimages : ∀ (first second : Derivation) bytes, first.preimage nfc = some bytes →
    second.preimage nfc = some bytes → first.Same nfc second
  digests : ∀ (first second : Derivation) digest, first.digest nfc = some digest → second.digest nfc = some digest →
    first.Same nfc second ∨ ∃ m n, first.preimage nfc = some m ∧ second.preimage nfc = some n ∧ m ≠ n ∧
      Sha256.sha256 m = Sha256.sha256 n
  versions : ∀ agentId actionType scope timestamp actionRef,
    (computeActionRef agentId actionType scope timestamp = .ok (.ok actionRef) →
      Trail.actionRefVersion actionRef = .ok .v1) ∧
    (computeActionRefV2 agentId actionType scope timestamp = .ok (.ok actionRef) →
      Trail.actionRefVersion actionRef = .ok .v2)

/-- Preimages are told apart by derivation and by values, so digests are too, or SHA-256 collides. -/
theorem separated [Interpreter] (nfc : Str → Str) : Separated nfc where
  encoders := jcsEncode_eq_jcsBytes
  returns agentId actionType scope timestamp domain := by
    obtain ⟨bytes, encoded⟩ := jcsEncode_isOk domain
    have admitted := validateDomain_of_inDomain domain
    refine ⟨hexOf (Sha256.sha256 bytes), hexOf (Sha256.sha256 (asciiBytes v2DomainTag ++ bytes)), ?_, ?_, ?_, ?_⟩
    · rw [Derivation.digest, Derivation.preimage, encoded]
      rfl
    · rw [computeActionRef, admitted]
      change (fromPy (jcsEncode (fields agentId actionType scope timestamp)) >>= _) = _
      rw [encoded]
      rfl
    · rw [Derivation.digest, Derivation.preimage, encoded]
      rfl
    · rw [computeActionRefV2, admitted]
      change (fromPy (jcsEncode (fields agentId actionType scope timestamp)) >>= _) = _
      rw [encoded]
      rfl
  preimages first second bytes := Derivation.same_of_preimage
  digests first second digest shown shown' := by
    obtain ⟨m, hashed, rfl⟩ := Option.map_eq_some_iff.mp shown
    obtain ⟨n, hashed', same⟩ := Option.map_eq_some_iff.mp shown'
    by_cases equal : m = n
    · subst equal
      exact Or.inl (Derivation.same_of_preimage hashed hashed')
    · exact Or.inr ⟨m, n, hashed, hashed', equal, (hexOf_injective same).symm⟩
  versions agentId actionType scope timestamp actionRef := by
    constructor
    · intro computed
      obtain ⟨bytes, _, rfl⟩ := computeActionRef_eq_ok computed
      exact Trail.actionRefVersion_v1_iff.mpr (isDigest_sha256 bytes)
    · intro computed
      obtain ⟨bytes, _, rfl⟩ := computeActionRefV2_eq_ok computed
      exact actionRefVersion_v2 _

end Argentum.Mycelium
