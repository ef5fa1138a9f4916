import Argentum.Core.Timestamp
import Argentum.Conformance.References

/-! The verifier of signer records. Times are compared as they are written, a record needs some
key material whatever its source, and a vector without records has no leg that fails. -/
namespace Argentum.KeySource
open Text References Delegation

namespace Key

def signerId : Str := ofString "signer_id"
def keySource : Str := ofString "key_source"
def signatureInputHash : Str := ofString "signature_input_hash"
def keyResolutionTime : Str := ofString "key_resolution_time"
def verificationResult : Str := ofString "verification_result"
def publicKeyHash : Str := ofString "public_key_hash"
def keyResolutionEvidenceHash : Str := ofString "key_resolution_evidence_hash"
def fixtureCertificationTime : Str := ofString "fixture_certification_time"
def signerRecords : Str := ofString "signer_records"

end Key

/-- `UNBOUND_SIGNER_IDS` -/
def unboundSignerIds : List Str := [ofString "anonymous-key-holder"]

/-- A failure, with the values its message shows. -/
inductive Failure where
  | keySourceAmbiguous (signerId : Json)
  | signatureInputDrift (signerId shown : Json) (canonical : Str)
  | signerIdentityUnbound (signerId : Json)
  | staleExternalKey (signerId keyResolutionTime fixtureCertificationTime : Json)
  | multisigOverclaimOrUnverifiable (signerId verificationResult : Json)
  | missingKeyMaterial (signerId : Json)

/-- The message cuts the hash that is there, which only a sequence allows. -/
def signatureInputBound (sid sigInput : Json) (canonicalEnvelopeRef : Str) : Except PyError (List Failure) :=
  if sigInput.eq (.str canonicalEnvelopeRef) then .ok []
  else do return [.signatureInputDrift sid (← sigInput.leading 16) (canonicalEnvelopeRef.take 16)]

/-- `sid in UNBOUND_SIGNER_IDS` -/
def signerIdentityBound (sid : Json) : Except PyError (List Failure) :=
  if sid.hashable then
    .ok (if unboundSignerIds.any (fun unbound => sid.eq (.str unbound)) then [.signerIdentityUnbound sid] else [])
  else .error .typeError

def keyResolutionNotStale (record sid fixtureCertificationTime : Json) : Except PyError (List Failure) :=
  if fixtureCertificationTime.truthy then do
    let keyTime ← record.fetchD Key.keyResolutionTime (.str [])
    if keyTime.truthy then
      let found ← keyTime.order fixtureCertificationTime
      return if found = some .gt then [.staleExternalKey sid keyTime fixtureCertificationTime] else []
    else return []
  else .ok []

def verifySignerRecord (canonicalEnvelopeRef : Str) (fixtureCertificationTime record : Json) :
    Except PyError (List Failure) := do
  let sid ← record.fetchD Key.signerId (.str [])
  let keySource ← record.fetch Key.keySource
  let sigInput ← record.fetchD Key.signatureInputHash (.str [])
  let drift ← signatureInputBound sid sigInput canonicalEnvelopeRef
  let unbound ← signerIdentityBound sid
  let stale ← keyResolutionNotStale record sid fixtureCertificationTime
  let vr ← record.fetchD Key.verificationResult (.str [])
  let publicKeyHash ← record.fetch Key.publicKeyHash
  let keyResolutionEvidenceHash ← record.fetch Key.keyResolutionEvidenceHash
  let hasKey := publicKeyHash.truthy || keyResolutionEvidenceHash.truthy
  return (if keySource.truthy then [] else [.keySourceAmbiguous sid]) ++ drift ++ unbound ++ stale ++
    (if vr.eq (.str (ofString "pass")) then [] else [.multisigOverclaimOrUnverifiable sid vr]) ++
    (if hasKey then [] else [.missingKeyMaterial sid])

def verifyVector (vector : Json) (canonicalEnvelopeRef : Str) : Except PyError (Bool × List Failure) := do
  let certTime ← vector.fetch Key.fixtureCertificationTime
  let records ← vector.fetchD Key.signerRecords (.list [])
  let failures ← collect (verifySignerRecord canonicalEnvelopeRef certTime) (← records.elements)
  return (failures.isEmpty, failures)

abbrev Accepted (vector : Json) (canonicalEnvelopeRef : Str) : Prop := Passes (verifyVector vector canonicalEnvelopeRef)

/-- The four values of `key_source`, and the hash that a record with the value carries. -/
def keyMaterial : List (Str × Str) :=
  [(ofString "embedded", Key.publicKeyHash), (ofString "pinned_registry", Key.publicKeyHash),
    (ofString "published_jwks", Key.keyResolutionEvidenceHash),
    (ofString "cached_prior", Key.keyResolutionEvidenceHash)]

/-- The key was resolved later than the fixture was certified, where both times are there. -/
def ResolvedLater (certTime record : Json) : Prop := ∃ key certified : Timestamp,
  record.get Key.keyResolutionTime = .str key.text ∧ certTime = .str certified.text ∧ certified.instant < key.instant

/-- A record that names its source, its signer and what is signed, and carries what the source
asks for. -/
structure Declares (record : Json) : Prop where
  keyMaterial : ∃ keySource hash, (keySource, hash) ∈ keyMaterial ∧ record.get Key.keySource = .str keySource ∧
    (record.get hash).truthy = true
  signer : ∃ signerId, record.get Key.signerId = .str signerId ∧ signerId ≠ []
  signatureInput : record.get Key.signatureInputHash ≠ .null

/-- A leg that is recomputable from the fixture alone. -/
structure RecomputableLeg (canonicalEnvelopeRef : Str) (certTime record : Json) : Prop where
  keyMaterial : ∃ keySource hash, (keySource, hash) ∈ keyMaterial ∧ record.get Key.keySource = .str keySource ∧
    (record.get hash).truthy = true
  signer : ∃ signerId, record.get Key.signerId = .str signerId ∧ signerId ≠ [] ∧ signerId ∉ unboundSignerIds
  signatureInput : record.get Key.signatureInputHash = .str canonicalEnvelopeRef
  result : record.get Key.verificationResult = .str (ofString "pass")
  notStale : ¬ ResolvedLater certTime record

/-- There is a leg, and every leg is recomputable. -/
def Recomputable (vector : Json) (canonicalEnvelopeRef : Str) : Prop := ∃ records,
  vector.get Key.signerRecords = .list records ∧ records ≠ [] ∧
    ∀ record ∈ records, RecomputableLeg canonicalEnvelopeRef (vector.get Key.fixtureCertificationTime) record

def AcceptsRecomputable (vector : Json) (canonicalEnvelopeRef : Str) : Prop :=
  Accepted vector canonicalEnvelopeRef ↔ Recomputable vector canonicalEnvelopeRef

/-- A time is a timestamp, or is not there. -/
def IsTime (time : Json) : Prop := time = .null ∨ ∃ t : Timestamp, time = .str t.text

/-- The times of a vector are timestamps. -/
structure Timed (vector : Json) : Prop where
  certified : IsTime (vector.get Key.fixtureCertificationTime)
  resolved : ∀ records, vector.get Key.signerRecords = .list records →
    ∀ record ∈ records, IsTime (record.get Key.keyResolutionTime)

/-- What the verifier asks of a record, its time apart: it is signed over the envelope and passes,
has a source and some key material, and its signer is not an unbound one. An absent hash counts
as the empty text. -/
structure Plausible (canonicalEnvelopeRef : Str) (record : Json) : Prop where
  object : record.isDict = true
  keySource : (record.get Key.keySource).truthy = true
  signatureInput : record.getD Key.signatureInputHash (.str []) = .str canonicalEnvelopeRef
  signer : (record.get Key.signerId).hashable = true ∧
    ∀ unbound ∈ unboundSignerIds, record.get Key.signerId ≠ .str unbound
  result : record.get Key.verificationResult = .str (ofString "pass")
  keyMaterial : (record.get Key.publicKeyHash).truthy = true ∨ (record.get Key.keyResolutionEvidenceHash).truthy = true

/-- The key time is written after the certification time. -/
def WrittenLater (certTime record : Json) : Prop := ∃ key certified,
  record.get Key.keyResolutionTime = .str key ∧ certTime = .str certified ∧ certified < key

/-- The two times share a second, and their fractions are not written in the order of their values. -/
def TimesMisread (certTime record : Json) : Prop := ∃ key certified : Timestamp,
  record.get Key.keyResolutionTime = .str key.text ∧ certTime = .str certified.text ∧ key.Misread certified

/-- The records that the loop takes are plausible. -/
structure PlausibleLegs (vector : Json) (canonicalEnvelopeRef : Str) (records : List Json) : Prop where
  object : vector.isDict = true
  taken : (vector.getD Key.signerRecords (.list [])).elements = .ok records
  each : ∀ record ∈ records, Plausible canonicalEnvelopeRef record

/-- There is a record, every one declares what its source asks for, and no time is misread; or the
vector is refused for a time that is written later, and some record is one to refuse. -/
def Decided (certTime : Json) (records : List Json) : Prop :=
  (records ≠ [] ∧ ∀ record ∈ records, Declares record ∧ ¬ TimesMisread certTime record) ∨
    (∃ record ∈ records, WrittenLater certTime record) ∧
      ∃ record ∈ records, ¬ Declares record ∨ ResolvedLater certTime record

section
variable {vector record certTime : Json} {canonicalEnvelopeRef : Str} {records : List Json}

theorem signatureInputBound_nil_iff {sid sigInput : Json} :
    signatureInputBound sid sigInput canonicalEnvelopeRef = .ok [] ↔ sigInput = .str canonicalEnvelopeRef := by
  rw [signatureInputBound, ← Json.eq_str]
  split
  · rename_i same
    exact iff_of_true rfl same
  · rename_i apart
    refine iff_of_false (fun clean => ?_) apart
    obtain ⟨shown, _, found⟩ := bind_ok clean
    cases found

theorem signerIdentityBound_nil_iff {sid : Json} : signerIdentityBound sid = .ok [] ↔
    sid.hashable = true ∧ ∀ unbound ∈ unboundSignerIds, sid ≠ .str unbound := by
  unfold signerIdentityBound
  split
  · rename_i hashed
    rw [and_iff_right hashed]
    simp [ite_eq_right_iff]
  · rename_i unhashed
    exact iff_of_false (fun clean => by cases clean) fun bound => unhashed bound.1

/-- An absent signer is the empty text, which is hashed and not among the unbound. -/
theorem signer_default (object : record.isDict = true) :
    ((record.getD Key.signerId (.str [])).hashable = true ∧
      ∀ unbound ∈ unboundSignerIds, record.getD Key.signerId (.str []) ≠ .str unbound) ↔
    (record.get Key.signerId).hashable = true ∧
      ∀ unbound ∈ unboundSignerIds, record.get Key.signerId ≠ .str unbound := by
  have names : ∀ unbound ∈ unboundSignerIds, unbound ≠ [] := by decide
  refine and_congr ?_ (forall₂_congr fun unbound member => not_congr (Json.getD_str_iff (names unbound member)))
  obtain ⟨items, rfl⟩ := Json.isDict_iff.mp object
  rw [Json.getD, Json.get]
  cases items.lookup Key.signerId <;> simp [Json.hashable]

/-- A text is greater where the other is less. -/
theorem order_str (s t : Str) : ∃ found, Json.order (.str s) (.str t) = .ok (some found) ∧ (found = .gt ↔ t < s) := by
  refine ⟨if s < t then .lt else if t < s then .gt else .eq, rfl, ?_⟩
  split_ifs with less more
  · exact iff_of_false nofun less.asymm
  · exact iff_of_true rfl more
  · exact iff_of_false nofun more

theorem keyResolutionNotStale_nil_iff {sid : Json} (object : record.isDict = true) (certified : IsTime certTime)
    (resolved : IsTime (record.get Key.keyResolutionTime)) :
    keyResolutionNotStale record sid certTime = .ok [] ↔ ¬ WrittenLater certTime record := by
  rcases certified with rfl | ⟨certified, rfl⟩
  · exact iff_of_true rfl fun ⟨_, _, _, absent, _⟩ => by cases absent
  have given : (Json.str certified.text).truthy = true := by simp [Json.truthy, certified.text_ne_nil]
  rw [keyResolutionNotStale, if_pos given, Json.fetchD_of_isDict object]
  rcases resolved with absent | ⟨key, written⟩
  · have empty : (record.getD Key.keyResolutionTime (.str [])).truthy = false := by
      obtain ⟨items, rfl⟩ := Json.isDict_iff.mp object
      rw [Json.get] at absent
      rw [Json.getD]
      cases found : items.lookup Key.keyResolutionTime with
      | none => rfl
      | some time =>
          rw [found, Option.getD_some] at absent
          rw [absent]
          rfl
    refine iff_of_true (by simp [bind, Except.bind, empty]; rfl) ?_
    rintro ⟨_, _, there, _⟩
    rw [absent] at there
    cases there
  · have present := Json.ne_null_of_eq written rfl
    have full : (Json.str key.text).truthy = true := by simp [Json.truthy, key.text_ne_nil]
    have later : WrittenLater (.str certified.text) record ↔ certified.text < key.text := by
      constructor
      · rintro ⟨_, _, there, there', less⟩
        obtain rfl := Json.str.inj (there.symm.trans written)
        obtain rfl := Json.str.inj there'
        exact less
      · exact fun less => ⟨key.text, certified.text, written, rfl, less⟩
    obtain ⟨found, ordered, greater_iff⟩ := order_str key.text certified.text
    rw [Json.getD_eq_get present, written, later, ← greater_iff]
    simp only [bind, Except.bind, full, if_true, ordered, Option.some.injEq]
    split
    · rename_i greater
      exact iff_of_false (fun clean => by cases clean) (not_not.mpr greater)
    · rename_i upTo
      exact iff_of_true rfl upTo

theorem pass_iff : record.getD Key.verificationResult (.str []) = .str (ofString "pass") ↔
    record.get Key.verificationResult = .str (ofString "pass") := Json.getD_str_iff (by decide)

/-- A record without a failure is plausible, and its key time is not written later. -/
theorem verifySignerRecord_nil_iff (certified : IsTime certTime)
    (resolved : IsTime (record.get Key.keyResolutionTime)) :
    verifySignerRecord canonicalEnvelopeRef certTime record = .ok [] ↔
      Plausible canonicalEnvelopeRef record ∧ ¬ WrittenLater certTime record := by
  constructor
  · intro clean
    obtain ⟨sid, named, clean⟩ := bind_ok clean
    obtain ⟨object, rfl⟩ := Json.fetchD_ok_iff.mp named
    obtain ⟨keySource, sourced, clean⟩ := bind_ok clean
    obtain ⟨_, rfl⟩ := Json.fetch_ok_iff.mp sourced
    obtain ⟨sigInput, signed, clean⟩ := bind_ok clean
    obtain ⟨_, rfl⟩ := Json.fetchD_ok_iff.mp signed
    obtain ⟨drift, bound, clean⟩ := bind_ok clean
    obtain ⟨unbound, known, clean⟩ := bind_ok clean
    obtain ⟨stale, timed, clean⟩ := bind_ok clean
    obtain ⟨vr, resulted, clean⟩ := bind_ok clean
    obtain ⟨_, rfl⟩ := Json.fetchD_ok_iff.mp resulted
    obtain ⟨publicKeyHash, hashed, clean⟩ := bind_ok clean
    obtain ⟨_, rfl⟩ := Json.fetch_ok_iff.mp hashed
    obtain ⟨evidence, evidenced, clean⟩ := bind_ok clean
    obtain ⟨_, rfl⟩ := Json.fetch_ok_iff.mp evidenced
    have empty := Except.ok.inj clean
    simp only [List.append_eq_nil_iff, ite_eq_left_iff, imp_false, not_not, List.cons_ne_nil] at empty
    obtain ⟨⟨⟨⟨⟨source, rfl⟩, rfl⟩, rfl⟩, result⟩, material⟩ := empty
    exact ⟨⟨object, source, signatureInputBound_nil_iff.mp bound,
      (signer_default object).mp (signerIdentityBound_nil_iff.mp known), pass_iff.mp (Json.eq_str.mp result),
      Bool.or_eq_true_iff.mp material⟩, (keyResolutionNotStale_nil_iff object certified resolved).mp timed⟩
  · rintro ⟨⟨object, source, signed, signer, result, material⟩, notLater⟩
    have known := signerIdentityBound_nil_iff.mpr ((signer_default object).mpr signer)
    have timed : keyResolutionNotStale record (record.getD Key.signerId (.str [])) certTime = .ok [] :=
      (keyResolutionNotStale_nil_iff object certified resolved).mpr notLater
    have pass := Json.eq_str.mpr (pass_iff.mpr result)
    have bound : signatureInputBound (record.getD Key.signerId (.str []))
        (record.getD Key.signatureInputHash (.str [])) canonicalEnvelopeRef = .ok [] :=
      signatureInputBound_nil_iff.mpr signed
    simp only [verifySignerRecord, Json.fetchD_of_isDict object, Json.fetch_of_isDict object, known, timed, bound,
      source, pass, Bool.or_eq_true_iff.mpr material, bind, Except.bind, if_true]
    rfl

/-- The loop takes the records of a list, or texts. -/
theorem records_cases (object : vector.isDict = true)
    (taken : (vector.getD Key.signerRecords (.list [])).elements = .ok records) :
    vector.get Key.signerRecords = .list records ∨ ∀ record ∈ records, ∃ text, record = .str text := by
  obtain ⟨items, rfl⟩ := Json.isDict_iff.mp object
  rw [Json.getD] at taken
  rw [Json.get]
  cases found : items.lookup Key.signerRecords with
  | none =>
      rw [found] at taken
      cases taken
      exact Or.inr (List.forall_mem_nil _)
  | some value =>
      rw [found, Option.getD_some] at taken
      rw [Option.getD_some]
      cases value with
      | list own => exact Or.inl (congrArg Json.list (Except.ok.inj taken))
      | dict own =>
          obtain rfl := Except.ok.inj taken
          exact Or.inr (List.forall_mem_map.mpr fun item _ => ⟨item.1, rfl⟩)
      | str own =>
          obtain rfl := Except.ok.inj taken
          exact Or.inr (List.forall_mem_map.mpr fun c _ => ⟨[c], rfl⟩)
      | null | bool | int | float => cases taken

theorem Timed.taken (timed : Timed vector) (object : vector.isDict = true)
    (taken : (vector.getD Key.signerRecords (.list [])).elements = .ok records) :
    ∀ record ∈ records, IsTime (record.get Key.keyResolutionTime) := by
  rcases records_cases object taken with given | texts
  · exact timed.resolved records given
  · intro record member
    obtain ⟨text, rfl⟩ := texts record member
    exact Or.inl rfl

/-- Records that are plausible come from a list. -/
theorem PlausibleLegs.eq_list (legs : PlausibleLegs vector canonicalEnvelopeRef records) (full : records ≠ []) :
    vector.get Key.signerRecords = .list records := by
  refine (records_cases legs.object legs.taken).resolve_right fun texts => ?_
  obtain ⟨first, member⟩ := List.exists_mem_of_ne_nil records full
  obtain ⟨text, rfl⟩ := texts first member
  cases (legs.each _ member).object

/-- The verifier accepts plausible records of which no time is written later, and nothing else. -/
theorem accepted_iff (timed : Timed vector) : Accepted vector canonicalEnvelopeRef ↔
    ∃ records, PlausibleLegs vector canonicalEnvelopeRef records ∧
      ∀ record ∈ records, ¬ WrittenLater (vector.get Key.fixtureCertificationTime) record := by
  constructor
  · rintro ⟨failures, verified⟩
    obtain ⟨certTime, certified, verified⟩ := bind_ok verified
    obtain ⟨object, rfl⟩ := Json.fetch_ok_iff.mp certified
    obtain ⟨own, read, verified⟩ := bind_ok verified
    obtain ⟨_, rfl⟩ := Json.fetchD_ok_iff.mp read
    obtain ⟨records, taken, verified⟩ := bind_ok verified
    obtain ⟨found, collected, verified⟩ := bind_ok verified
    obtain ⟨clean, _⟩ := Prod.mk.inj (Except.ok.inj verified)
    obtain rfl := List.isEmpty_iff.mp clean
    have resolved := timed.taken object taken
    have each : ∀ record ∈ records, Plausible canonicalEnvelopeRef record ∧
        ¬ WrittenLater (vector.get Key.fixtureCertificationTime) record := fun record member =>
      (verifySignerRecord_nil_iff timed.certified (resolved record member)).mp
        (collect_nil_iff.mp collected record member)
    exact ⟨records, ⟨object, taken, fun record member => (each record member).1⟩,
      fun record member => (each record member).2⟩
  · rintro ⟨records, ⟨object, taken, each⟩, notLater⟩
    have resolved := timed.taken object taken
    have collected := collect_nil_iff.mpr fun record member =>
      (verifySignerRecord_nil_iff timed.certified (resolved record member)).mpr
        ⟨each record member, notLater record member⟩
    refine ⟨[], bind_ok_iff.mpr ⟨_, Json.fetch_of_isDict object _, ?_⟩⟩
    refine bind_ok_iff.mpr ⟨_, Json.fetchD_of_isDict object _ _, ?_⟩
    exact bind_ok_iff.mpr ⟨records, taken, bind_ok_iff.mpr ⟨[], collected, rfl⟩⟩

/-- A recomputable leg is a plausible record that declares what its source asks for. -/
theorem recomputableLeg_iff : RecomputableLeg canonicalEnvelopeRef certTime record ↔
    Plausible canonicalEnvelopeRef record ∧ Declares record ∧ ¬ ResolvedLater certTime record := by
  constructor
  · rintro ⟨⟨keySource, hash, listed, declared, material⟩, ⟨signerId, named, full, bound⟩, signed, result, notStale⟩
    have present := Json.ne_null_of_eq signed rfl
    refine ⟨⟨Json.isDict_of_get present, ?_, (Json.getD_eq_get present).trans signed, ?_, result, ?_⟩,
      ⟨⟨keySource, hash, listed, declared, material⟩, ⟨signerId, named, full⟩, present⟩, notStale⟩
    · have written : ∀ entry ∈ keyMaterial, (Json.str entry.1).truthy = true := by decide
      rw [declared]
      exact written _ listed
    · rw [named]
      exact ⟨rfl, fun unbound member same => bound (Json.str.inj same ▸ member)⟩
    · have hashes : ∀ entry ∈ keyMaterial, entry.2 = Key.publicKeyHash ∨ entry.2 = Key.keyResolutionEvidenceHash := by
        decide
      rcases hashes _ listed with rfl | rfl
      · exact Or.inl material
      · exact Or.inr material
  · rintro ⟨passing, ⟨material, ⟨signerId, named, full⟩, present⟩, notStale⟩
    refine ⟨material, ⟨signerId, named, full, fun member => passing.signer.2 signerId member named⟩, ?_,
      passing.result, notStale⟩
    rw [← Json.getD_eq_get present]
    exact passing.signatureInput

/-- A vector is recomputable where its records are plausible, are there and declare what their
sources ask for. -/
theorem recomputable_iff : Recomputable vector canonicalEnvelopeRef ↔
    ∃ records, PlausibleLegs vector canonicalEnvelopeRef records ∧ records ≠ [] ∧
      ∀ record ∈ records, Declares record ∧ ¬ ResolvedLater (vector.get Key.fixtureCertificationTime) record := by
  constructor
  · rintro ⟨records, given, full, each⟩
    have present := Json.ne_null_of_eq given rfl
    refine ⟨records, ⟨Json.isDict_of_get present, ?_, fun record member => ?_⟩, full, fun record member => ?_⟩
    · rw [Json.getD_eq_get present, given]
      rfl
    · exact (recomputableLeg_iff.mp (each record member)).1
    · exact (recomputableLeg_iff.mp (each record member)).2
  · rintro ⟨records, legs, full, each⟩
    exact ⟨records, legs.eq_list full, full,
      fun record member => recomputableLeg_iff.mpr ⟨legs.each record member, each record member⟩⟩

theorem PlausibleLegs.unique {others : List Json} (legs : PlausibleLegs vector canonicalEnvelopeRef records)
    (legs' : PlausibleLegs vector canonicalEnvelopeRef others) : records = others :=
  Except.ok.inj (legs.taken.symm.trans legs'.taken)

/-- A time that is not misread is written later iff it is. -/
theorem writtenLater_iff (certified : IsTime certTime) (resolved : IsTime (record.get Key.keyResolutionTime))
    (read : ¬ TimesMisread certTime record) : WrittenLater certTime record ↔ ResolvedLater certTime record := by
  have same : ∀ key certified : Timestamp, record.get Key.keyResolutionTime = .str key.text →
      certTime = .str certified.text → (certified.text < key.text ↔ certified.instant < key.instant) := by
    intro key certified there there'
    by_contra apart
    exact read ⟨key, certified, there, there', Timestamp.misread_iff.mpr apart⟩
  constructor
  · rintro ⟨key, written, there, there', less⟩
    rcases certified with absent | ⟨certified, given⟩
    · rw [absent] at there'
      cases there'
    rcases resolved with absent | ⟨own, given'⟩
    · rw [absent] at there
      cases there
    obtain rfl := Json.str.inj (there.symm.trans given')
    obtain rfl := Json.str.inj (there'.symm.trans given)
    exact ⟨own, certified, there, there', (same own certified there there').mp less⟩
  · rintro ⟨key, certified, there, there', less⟩
    exact ⟨key.text, certified.text, there, there', (same key certified there there').mpr less⟩

/-- A time that is misread is later in one way. -/
theorem TimesMisread.later (misread : TimesMisread certTime record) :
    WrittenLater certTime record ∨ ResolvedLater certTime record := by
  obtain ⟨key, certified, there, there', misread⟩ := misread
  by_contra neither
  refine Timestamp.misread_iff.mp misread (iff_of_false (fun written => neither (Or.inl ?_))
    fun later => neither (Or.inr ⟨key, certified, there, there', later⟩))
  exact ⟨key.text, certified.text, there, there', written⟩

/-- The verifier accepts exactly the recomputable vectors iff what it finds plausible is decided by
what it compares. -/
theorem acceptsRecomputable_iff (timed : Timed vector) : AcceptsRecomputable vector canonicalEnvelopeRef ↔
    ∀ records, PlausibleLegs vector canonicalEnvelopeRef records →
      Decided (vector.get Key.fixtureCertificationTime) records := by
  rw [AcceptsRecomputable, accepted_iff timed, recomputable_iff]
  constructor
  · intro same records legs
    by_cases accepted : ∀ record ∈ records, ¬ WrittenLater (vector.get Key.fixtureCertificationTime) record
    · obtain ⟨own, legs', full, each⟩ := same.mp ⟨records, legs, accepted⟩
      obtain rfl := legs'.unique legs
      refine Or.inl ⟨full, fun record member => ⟨(each record member).1, fun misread => ?_⟩⟩
      exact misread.later.elim (accepted record member) (each record member).2
    · simp only [not_forall, not_not, exists_prop] at accepted
      refine Or.inr ⟨accepted, ?_⟩
      by_contra every
      simp only [not_exists, not_and, not_or, not_not] at every
      obtain ⟨record, member, later⟩ := accepted
      obtain ⟨own, legs', each⟩ := same.mpr ⟨records, legs, List.ne_nil_of_mem member, every⟩
      obtain rfl := legs'.unique legs
      exact each record member later
  · intro decided
    have read : ∀ records, PlausibleLegs vector canonicalEnvelopeRef records → ∀ record ∈ records,
        ¬ TimesMisread (vector.get Key.fixtureCertificationTime) record →
        (WrittenLater (vector.get Key.fixtureCertificationTime) record ↔
          ResolvedLater (vector.get Key.fixtureCertificationTime) record) := fun records legs record member =>
      writtenLater_iff timed.certified (timed.taken legs.object legs.taken record member)
    constructor
    · rintro ⟨records, legs, accepted⟩
      rcases decided records legs with ⟨full, each⟩ | ⟨⟨record, member, later⟩, _⟩
      · refine ⟨records, legs, full, fun record member => ⟨(each record member).1, fun later => ?_⟩⟩
        exact accepted record member ((read records legs record member (each record member).2).mpr later)
      · exact absurd later (accepted record member)
    · rintro ⟨records, legs, full, every⟩
      refine ⟨records, legs, fun record member later => ?_⟩
      rcases decided records legs with ⟨_, each⟩ | ⟨_, other, within, undeclared | resolved⟩
      · exact (every record member).2 ((read records legs record member (each record member).2).mp later)
      · exact undeclared (every other within).1
      · exact (every other within).2 resolved

end

def onTheSecond : Timestamp := ⟨2026, 6, 18, 0, 0, 0, none, by decide, by decide, by decide, by decide, by decide⟩

def halfPast : Timestamp := { onTheSecond with fraction := some ⟨false, [⟨5, by decide⟩], by decide⟩ }

/-- An embedded key that was resolved at one time, in a fixture certified at another. -/
def embeddedAt (key certified : Timestamp) : Json := .dict [(Key.fixtureCertificationTime, .str certified.text),
  (Key.signerRecords, .list [.dict [(Key.signerId, .str (ofString "signer")),
    (Key.keySource, .str (ofString "embedded")), (Key.publicKeyHash, .str (ofString "hash")),
    (Key.signatureInputHash, .str (ofString "ref")), (Key.verificationResult, .str (ofString "pass")),
    (Key.keyResolutionTime, .str key.text)]])]

theorem timed_embeddedAt (key certified : Timestamp) : Timed (embeddedAt key certified) := by
  refine ⟨Or.inr ⟨certified, rfl⟩, fun records given record member => ?_⟩
  obtain rfl := Json.list.inj given
  obtain rfl := List.mem_singleton.mp member
  exact Or.inr ⟨key, rfl⟩

theorem instant_lt : onTheSecond.instant < halfPast.instant := by
  refine Timestamp.instant_lt_iff.mpr (Or.inr ⟨⟨rfl, rfl⟩, ?_⟩)
  norm_num [onTheSecond, halfPast, Timestamp.fractionValue, Timestamp.valueOf]

theorem acceptsRecomputable_sameSecond :
    AcceptsRecomputable (embeddedAt onTheSecond onTheSecond) (ofString "ref") := by
  refine (acceptsRecomputable_iff (timed_embeddedAt _ _)).mpr fun records legs => ?_
  obtain rfl := Except.ok.inj legs.taken
  refine Or.inl ⟨List.cons_ne_nil _ _, fun record member => ?_⟩
  obtain rfl := List.mem_singleton.mp member
  refine ⟨⟨⟨_, _, List.mem_cons_self, rfl, by decide⟩, ⟨_, rfl, by decide⟩, by rintro ⟨⟩⟩, ?_⟩
  rintro ⟨key, certified, there, there', misread⟩
  have same : key.text = certified.text := (Json.str.inj there).symm.trans (Json.str.inj there')
  refine Timestamp.misread_iff.mp misread ?_
  rw [same, Timestamp.instant_of_text same]
  exact iff_of_false (lt_irrefl _) (lt_irrefl _)

/-- A vector without records is accepted; a key resolved half a second after the certification is
accepted, and one resolved before it is not. -/
theorem not_acceptsRecomputable : ¬ AcceptsRecomputable (.dict []) (ofString "ref") ∧
    ¬ AcceptsRecomputable (embeddedAt halfPast onTheSecond) (ofString "ref") ∧
    ¬ AcceptsRecomputable (embeddedAt onTheSecond halfPast) (ofString "ref") := by
  refine ⟨fun same => ?_, fun same => ?_, fun same => ?_⟩
  · obtain ⟨records, given, _⟩ := same.mp (by decide)
    cases given
  · obtain ⟨records, given, _, each⟩ := same.mp (by decide +kernel)
    obtain rfl := Json.list.inj given
    exact (each _ List.mem_cons_self).notStale ⟨halfPast, onTheSecond, rfl, rfl, instant_lt⟩
  · refine absurd (same.mpr ⟨_, rfl, List.cons_ne_nil _ _, fun record member => ?_⟩) (by decide +kernel)
    obtain rfl := List.mem_singleton.mp member
    refine ⟨⟨_, _, List.mem_cons_self, rfl, by decide⟩, ⟨_, rfl, by decide, by decide⟩, rfl, rfl, ?_⟩
    rintro ⟨key, certified, there, there', later⟩
    rw [← Timestamp.instant_of_text (Json.str.inj there), ← Timestamp.instant_of_text (Json.str.inj there')] at later
    exact later.asymm instant_lt

end Argentum.KeySource
