import Argentum.Conformance.PeerReconciliation

/-! What an accepted reconciliation shows of its two parties. One step of the reading is about
one party, so exchanging the parties exchanges the halves of the reading, and the failures
of the two readings are empty together. The state other than UNRESOLVED shows two sound
halves wherever the flags are declared one way or the other. -/
namespace Argentum.PeerReconciliation
open Text Delegation References

/-- The other of two names, and any other name itself. -/
def exchangeName (first second key : Str) : Str :=
  if key = first then second else if key = second then first else key

def exchangeFields (first second : Str) : Json → Json
  | .dict items => .dict (items.map fun item => (exchangeName first second item.1, item.2))
  | value => value

def exchangeParties : Json → Json := exchangeFields Key.partyA Key.partyB

def exchangeFlags : Json → Json := exchangeFields Key.signatureValidA Key.signatureValidB

/-- What a field of the vector holds after the exchange. -/
def exchangedField (ref key : Str) (value : Json) : Json :=
  if key = Key.envelope then exchangeParties value
  else if key = Key.checks then exchangeFlags value
  else if key = Key.peerReconciliationRef then .str ref
  else value

/-- The vector with its parties and their declared flags exchanged, under the reference `ref`. -/
def exchange (vector : Json) (ref : Str) : Json :=
  match vector with
  | .dict items => .dict (items.map fun item => (item.1, exchangedField ref item.1 item.2))
  | value => value

abbrev envelopeOf (vector : Json) : Json := vector.get Key.envelope

/-- The reference of a vector is the hash of its envelope. -/
def Recomputes (vector : Json) : Prop :=
  ∃ ref, sha256hex (jcs (envelopeOf vector)) = .ok ref ∧ vector.get Key.peerReconciliationRef = .str ref

abbrev partyA (vector : Json) : Json := (envelopeOf vector).get Key.partyA

abbrev partyB (vector : Json) : Json := (envelopeOf vector).get Key.partyB

abbrev checksOf (vector : Json) : Json := vector.getD Key.checks (.dict [])

/-- A half of the reading is about a party and its declared flag. -/
structure Half.Of (half : Half) (party flag : Json) : Prop where
  valid : checkStructuralValidity party = .ok half.valid
  observed : half.observed = isObserved party
  signed : half.signed = flag.truthy
  bound : checkSignatureBinding party = .ok half.bound
  shown : shownFields party half.bound = .ok half.shown
  actionRef : half.actionRef = party.get Key.actionRef

/-- What is read of a vector, field by field. -/
structure ReadAs (vector : Json) (r : Reading) : Prop where
  object : vector.isDict = true
  hashed : sha256hex (jcs (envelopeOf vector)) = .ok r.computedRef
  declaredRef : vector.getD Key.peerReconciliationRef (.str []) = r.declaredRef
  envelope : (envelopeOf vector).isDict = true
  checks : (checksOf vector).isDict = true
  a : r.a.Of (partyA vector) ((checksOf vector).getD Key.signatureValidA (.bool false))
  b : r.b.Of (partyB vector) ((checksOf vector).getD Key.signatureValidB (.bool false))
  struct : (checksOf vector).getD Key.structuralValidity (.bool true) = r.declaredStruct
  binding : (checksOf vector).getD Key.signatureBinding (.bool true) = r.declaredBinding
  state : vector.getD Key.comparatorState (.str []) = r.declaredState
  chain : checkSupersedesChainIntegrity vector = .ok r.chain

/-- A vector after the exchange, seen from either of the two. -/
structure Exchanged (vector other : Json) : Prop where
  object : vector.isDict = true
  object' : other.isDict = true
  envelope : other.item Key.envelope = (vector.item Key.envelope).map exchangeParties
  checks : other.item Key.checks = (vector.item Key.checks).map exchangeFlags
  recomputes : Recomputes vector
  recomputes' : Recomputes other
  rest : ∀ key, key ≠ Key.envelope → key ≠ Key.checks → key ≠ Key.peerReconciliationRef →
    other.item key = vector.item key

section
variable {vector other value envelope : Json} {first second key : Str}

@[simp] theorem exchangeName_first : exchangeName first second first = second := if_pos rfl

@[simp] theorem exchangeName_second : exchangeName first second second = first := by
  unfold exchangeName
  split
  · rename_i same
    exact same
  · exact if_pos rfl

theorem exchangeName_other (apart : key ≠ first) (apart' : key ≠ second) : exchangeName first second key = key := by
  rw [exchangeName, if_neg apart, if_neg apart']

theorem exchangeName_exchangeName (first second key : Str) :
    exchangeName first second (exchangeName first second key) = key := by
  by_cases here : key = first
  · subst here
    rw [exchangeName_first, exchangeName_second]
  by_cases there : key = second
  · subst there
    rw [exchangeName_second, exchangeName_first]
  rw [exchangeName_other here there, exchangeName_other here there]

theorem lookup_exchangeName {items : List (Str × Json)} :
    (items.map fun item => (exchangeName first second item.1, item.2)).lookup key =
      items.lookup (exchangeName first second key) := by
  induction items with
  | nil => rfl
  | cons item rest ih =>
      obtain ⟨name, value⟩ := item
      rw [List.map_cons, List.lookup_cons, List.lookup_cons, ih]
      have same : (key == exchangeName first second name) = (exchangeName first second key == name) := by
        rw [Bool.eq_iff_iff, beq_iff_eq, beq_iff_eq]
        constructor
        · rintro rfl
          exact exchangeName_exchangeName first second name
        · rintro rfl
          exact (exchangeName_exchangeName first second key).symm
      rw [same]

theorem item_exchangeFields : (exchangeFields first second value).item key =
    value.item (exchangeName first second key) := by
  cases value with
  | dict items => rw [exchangeFields, Json.item, lookup_exchangeName, Json.item]
  | null | bool | int | float | str | list => rfl

theorem exchangeFields_exchangeFields (first second : Str) (value : Json) :
    exchangeFields first second (exchangeFields first second value) = value := by
  cases value with
  | dict items =>
      rw [exchangeFields, exchangeFields, List.map_map]
      congr 1
      refine (List.map_congr_left fun item _ => ?_).trans (List.map_id _)
      exact Prod.ext (exchangeName_exchangeName first second item.1) rfl
  | null | bool | int | float | str | list => rfl

theorem get_exchangeFields (key : Str) : (exchangeFields first second value).get key =
    value.get (exchangeName first second key) := by
  cases value with
  | dict items => rw [exchangeFields, Json.get, lookup_exchangeName, Json.get]
  | null | bool | int | float | str | list => rfl

theorem getD_exchangeFields {default : Json} (object : value.isDict = true) :
    (exchangeFields first second value).getD key default = value.getD (exchangeName first second key) default := by
  obtain ⟨items, rfl⟩ := Json.isDict_iff.mp object
  rw [exchangeFields, Json.getD, lookup_exchangeName, Json.getD]

theorem isDict_exchangeFields : (exchangeFields first second value).isDict = value.isDict := by
  cases value <;> rfl

theorem lookup_exchange {items : List (Str × Json)} {ref : Str} :
    (items.map fun item => (item.1, exchangedField ref item.1 item.2)).lookup key =
      (items.lookup key).map (exchangedField ref key) := by
  induction items with
  | nil => rfl
  | cons item rest ih =>
      obtain ⟨name, value⟩ := item
      rw [List.map_cons, List.lookup_cons, List.lookup_cons, ih]
      by_cases here : key = name
      · subst here
        simp
      · rw [beq_false_of_ne here]

theorem item_exchange {ref : Str} :
    (exchange vector ref).item key = (vector.item key).map (exchangedField ref key) := by
  cases vector with
  | dict items =>
      rw [exchange, Json.item, lookup_exchange, Json.item]
      cases items.lookup key <;> rfl
  | null | bool | int | float | str | list => rfl

/-- The two read one field alike, whatever the default. -/
theorem fields_of_item (object : vector.isDict = true) (object' : other.isDict = true)
    (same : other.item key = vector.item key) :
    (∀ default, other.getD key default = vector.getD key default) ∧ other.get key = vector.get key := by
  obtain ⟨items, rfl⟩ := Json.isDict_iff.mp object
  obtain ⟨others, rfl⟩ := Json.isDict_iff.mp object'
  have found : others.lookup key = items.lookup key := by
    rw [Json.item, Json.item] at same
    cases here : items.lookup key <;> cases there : others.lookup key <;> simp_all
  rw [Json.get, Json.get, found]
  refine ⟨fun default => ?_, rfl⟩
  rw [Json.getD, Json.getD, found]

theorem map_item_eq (f : Json → Json) (involutive : ∀ value, f (f value) = value)
    (same : other.item key = (vector.item key).map f) : vector.item key = (other.item key).map f := by
  rw [same]
  cases vector.item key with
  | error raised => rfl
  | ok value => exact congrArg Except.ok (involutive value).symm

theorem Exchanged.symm (exchanged : Exchanged vector other) : Exchanged other vector where
  object := exchanged.object'
  object' := exchanged.object
  envelope := map_item_eq _ (exchangeFields_exchangeFields _ _) exchanged.envelope
  checks := map_item_eq _ (exchangeFields_exchangeFields _ _) exchanged.checks
  recomputes := exchanged.recomputes'
  recomputes' := exchanged.recomputes
  rest := fun key apart apart' apart'' => (exchanged.rest key apart apart' apart'').symm

/-- The exchange under the recomputed reference is one. -/
theorem exchanged_exchange {ref : Str} (recomputes : Recomputes vector)
    (hashed : sha256hex (jcs (exchangeParties (envelopeOf vector))) = .ok ref) :
    Exchanged vector (exchange vector ref) := by
  obtain ⟨old, digest, declared⟩ := recomputes
  have present := Json.ne_null_of_eq declared rfl
  obtain ⟨items, rfl⟩ := Json.isDict_iff.mp (Json.isDict_of_get present)
  have envelope : (exchange (.dict items) ref).item Key.envelope = ((Json.dict items).item Key.envelope).map
      exchangeParties := item_exchange
  have reference : (exchange (.dict items) ref).item Key.peerReconciliationRef = .ok (.str ref) := by
    rw [item_exchange, Json.item_of_get present]
    rfl
  refine ⟨rfl, rfl, envelope, item_exchange, ⟨old, digest, declared⟩, ⟨ref, ?_, Json.get_of_item reference⟩,
    fun key apart apart' apart'' => ?_⟩
  · rw [← hashed]
    congr 2
    rw [Json.item] at envelope
    cases found : items.lookup Key.envelope with
    | none =>
        -- the hash of the missing envelope is that of null, which the exchange leaves alone
        rw [envelopeOf, envelopeOf, exchange, Json.get, Json.get, lookup_exchange, found]
        rfl
    | some value =>
        rw [found] at envelope
        rw [envelopeOf, Json.get_of_item envelope, envelopeOf, Json.get, found]
        rfl
  · rw [item_exchange]
    cases (Json.dict items).item key with
    | error raised => rfl
    | ok value =>
        refine congrArg Except.ok ?_
        rw [exchangedField, if_neg apart, if_neg apart', if_neg apart'']

/-- The reading of the vector after the exchange. -/
def Reading.exchanged (r : Reading) (ref : Str) : Reading :=
  { r with computedRef := ref, declaredRef := .str ref, a := r.b, b := r.a }

theorem contains_swap (x y value : Json) : Seen.contains [x, y] value = Seen.contains [y, x] value := by
  unfold Seen.contains Seen.member
  simp [Bool.or_comm]

theorem isDict_of_valid {party : Json} {valid : Bool} (checked : checkStructuralValidity party = .ok valid) :
    party.isDict = true := by
  obtain ⟨_, read, _⟩ := bind_ok checked
  exact (Json.fetch_ok_iff.mp read).1

/-- Which party is named first does not matter to the provenance. -/
theorem checkProvenance_exchange {partyA partyB prior : Json} (there : envelope.item Key.partyA = .ok partyA)
    (there' : envelope.item Key.partyB = .ok partyB) (object : partyA.isDict = true) (object' : partyB.isDict = true) :
    checkProvenance (exchangeParties envelope) prior = checkProvenance envelope prior := by
  have read := Json.fetch_of_isDict object Key.partyId
  have read' := Json.fetch_of_isDict object' Key.partyId
  have swapped : (exchangeParties envelope).item Key.partyA = .ok partyB := by
    rw [exchangeParties, item_exchangeFields, exchangeName_first, there']
  have swapped' : (exchangeParties envelope).item Key.partyB = .ok partyA := by
    rw [exchangeParties, item_exchangeFields, exchangeName_second, there]
  have parties : currentParties envelope =
      if (partyA.get Key.partyId).hashable && (partyB.get Key.partyId).hashable then
        .ok [partyA.get Key.partyId, partyB.get Key.partyId] else .error .typeError := by
    simp only [currentParties, there, there', read, read', bind, Except.bind]
    rfl
  have parties' : currentParties (exchangeParties envelope) =
      if (partyA.get Key.partyId).hashable && (partyB.get Key.partyId).hashable then
        .ok [partyB.get Key.partyId, partyA.get Key.partyId] else .error .typeError := by
    simp only [currentParties, swapped, swapped', read, read', bind, Except.bind]
    rw [Bool.and_comm]
    rfl
  rw [checkProvenance, checkProvenance, parties, parties']
  split
  · simp only [bind, Except.bind, contains_swap (partyB.get Key.partyId)]
  · rfl

theorem fetchD_congr {default : Json} (object : vector.isDict = true) (object' : other.isDict = true)
    (same : other.item key = vector.item key) : other.fetchD key default = vector.fetchD key default := by
  rw [Json.fetchD, Json.fetchD, object, object', (fields_of_item object object' same).1]

theorem getD_map {f : Json → Json} {default : Json} (object : vector.isDict = true) (object' : other.isDict = true)
    (same : other.item key = (vector.item key).map f) (fixed : f default = default) :
    other.getD key default = f (vector.getD key default) := by
  obtain ⟨items, rfl⟩ := Json.isDict_iff.mp object
  obtain ⟨others, rfl⟩ := Json.isDict_iff.mp object'
  rw [Json.item, Json.item] at same
  rw [Json.getD, Json.getD]
  cases here : items.lookup key with
  | none =>
      rw [here] at same
      cases there : others.lookup key with
      | none => exact fixed.symm
      | some value =>
          rw [there] at same
          cases same
  | some value =>
      rw [here] at same
      cases there : others.lookup key with
      | none =>
          rw [there] at same
          cases same
      | some value' =>
          rw [there] at same
          exact Except.ok.inj same

/-- The prior envelope is found and judged alike on both sides of an exchange. -/
theorem checkSupersedes_exchanged (exchanged : Exchanged vector other) {partyA partyB : Json}
    (found : vector.item Key.envelope = .ok envelope) (there : envelope.item Key.partyA = .ok partyA)
    (there' : envelope.item Key.partyB = .ok partyB) (object : partyA.isDict = true) (object' : partyB.isDict = true) :
    checkSupersedesChainIntegrity other = checkSupersedesChainIntegrity vector := by
  have found' : other.item Key.envelope = .ok (exchangeParties envelope) := by
    rw [exchanged.envelope, found]
    rfl
  have inside : envelope.isDict = true := by
    obtain ⟨items, rfl, _⟩ := Json.item_ok there
    rfl
  have inside' : (exchangeParties envelope).isDict = true := isDict_exchangeFields.trans inside
  have field : ∀ key, key ≠ Key.partyA → key ≠ Key.partyB → (exchangeParties envelope).item key = envelope.item key :=
    fun key apart apart' => by rw [exchangeParties, item_exchangeFields, exchangeName_other apart apart']
  have supersedes : (exchangeParties envelope).fetch Key.supersedes = envelope.fetch Key.supersedes :=
    fetchD_congr inside inside' (field _ (by decide) (by decide))
  have interaction : (exchangeParties envelope).get Key.interactionId = envelope.get Key.interactionId :=
    (fields_of_item inside inside' (field _ (by decide) (by decide))).2
  have known : other.fetchD Key.knownEnvelopes (.dict []) = vector.fetchD Key.knownEnvelopes (.dict []) :=
    fetchD_congr exchanged.object exchanged.object' (exchanged.rest _ (by decide) (by decide) (by decide))
  simp only [checkSupersedesChainIntegrity, found, found', supersedes, interaction, known,
    checkProvenance_exchange there there' object object', bind, Except.bind]

theorem read_ok_iff {r : Reading} : read vector = .ok r ↔ ReadAs vector r := by
  constructor
  · intro done
    obtain ⟨envelope, found, done⟩ := bind_ok done
    obtain ⟨computedRef, hashed, done⟩ := bind_ok done
    obtain ⟨declaredRef, declared, done⟩ := bind_ok done
    obtain ⟨partyA, there, done⟩ := bind_ok done
    obtain ⟨validA, structA, done⟩ := bind_ok done
    obtain ⟨partyB, there', done⟩ := bind_ok done
    obtain ⟨validB, structB, done⟩ := bind_ok done
    obtain ⟨checks, given, done⟩ := bind_ok done
    obtain ⟨declaredStruct, declaredS, done⟩ := bind_ok done
    obtain ⟨boundA, bindA, done⟩ := bind_ok done
    obtain ⟨boundB, bindB, done⟩ := bind_ok done
    obtain ⟨declaredBinding, declaredB, done⟩ := bind_ok done
    obtain ⟨shownA, showA, done⟩ := bind_ok done
    obtain ⟨shownB, showB, done⟩ := bind_ok done
    obtain ⟨declaredState, state, done⟩ := bind_ok done
    obtain ⟨chain, chained, done⟩ := bind_ok done
    obtain rfl := Except.ok.inj done
    obtain rfl := Json.get_of_item found
    obtain rfl := Json.get_of_item there
    obtain rfl := Json.get_of_item there'
    obtain ⟨object, rfl⟩ := Json.fetchD_ok_iff.mp given
    obtain ⟨inside, rfl⟩ := Json.fetchD_ok_iff.mp declaredS
    have envelope : (vector.get Key.envelope).isDict = true := by
      obtain ⟨items, shape, _⟩ := Json.item_ok there
      rw [shape]
      rfl
    exact ⟨object, hashed, (Json.fetchD_ok_iff.mp declared).2, envelope, inside, ⟨structA, rfl, rfl, bindA, showA, rfl⟩,
      ⟨structB, rfl, rfl, bindB, showB, rfl⟩, rfl, (Json.fetchD_ok_iff.mp declaredB).2,
      (Json.fetchD_ok_iff.mp state).2, chained⟩
  · rintro ⟨object, hashed, declaredRef, envelope, checks, a, b, struct, binding, state, chain⟩
    have field := Json.fetchD_of_isDict object
    have flag := Json.fetchD_of_isDict checks
    simp only [read, Json.item_of_isDict envelope, hashed, field, Json.item_of_isDict (isDict_of_valid a.valid),
      a.valid, Json.item_of_isDict (isDict_of_valid b.valid), b.valid, flag, a.bound, b.bound, a.shown, b.shown, chain,
      bind, Except.bind, ← a.observed, ← b.observed, ← a.signed, ← b.signed, ← a.actionRef, ← b.actionRef, declaredRef,
      struct, binding, state]
    rfl

/-- The exchange exchanges what is read of the two halves, and nothing else. -/
theorem ReadAs.exchanged {r : Reading} (read : ReadAs vector r) (exchanged : Exchanged vector other) :
    ∃ ref, ReadAs other (r.exchanged ref) := by
  obtain ⟨object, hashed, declaredRef, envelope, checks, a, b, struct, binding, state, chain⟩ := read
  obtain ⟨ref, digest, written⟩ := exchanged.recomputes'
  have whole : envelopeOf other = exchangeParties (envelopeOf vector) := by
    refine Json.get_of_item ?_
    rw [exchanged.envelope, Json.item_of_isDict envelope]
    rfl
  have party : ∀ key, (exchangeParties (envelopeOf vector)).get key =
      (envelopeOf vector).get (exchangeName Key.partyA Key.partyB key) := get_exchangeFields
  have first : partyA other = partyB vector := by
    rw [partyA, whole, party, exchangeName_first]
  have second : partyB other = partyA vector := by
    rw [partyB, whole, party, exchangeName_second]
  have flags : checksOf other = exchangeFlags (checksOf vector) :=
    getD_map object exchanged.object' exchanged.checks rfl
  have flag : ∀ key default, (checksOf other).getD key default =
      (checksOf vector).getD (exchangeName Key.signatureValidA Key.signatureValidB key) default := by
    intro key default
    rw [flags]
    exact getD_exchangeFields checks
  have declared : other.getD Key.peerReconciliationRef (.str []) = .str ref :=
    (Json.getD_str_iff (sha256hex_ne_nil digest)).mpr written
  refine ⟨ref, exchanged.object', digest, declared, ?_, ?_, ?_, ?_, ?_, ?_, ?_, ?_⟩
  · rw [whole]
    exact isDict_exchangeFields.trans envelope
  · rw [flags]
    exact isDict_exchangeFields.trans checks
  · rw [first, flag, exchangeName_first]
    exact b
  · rw [second, flag, exchangeName_second]
    exact a
  · exact (flag _ _).trans struct
  · exact (flag _ _).trans binding
  · have same := exchanged.rest Key.comparatorState (by decide) (by decide) (by decide)
    exact ((fields_of_item object exchanged.object' same).1 _).trans state
  · have there := isDict_of_valid a.valid
    have there' := isDict_of_valid b.valid
    rw [checkSupersedes_exchanged exchanged (Json.item_of_isDict envelope) (Json.item_of_isDict there)
      (Json.item_of_isDict there') there there']
    exact chain

/-- What the verifier asks of a reading. -/
structure Reading.Clean (r : Reading) : Prop where
  ref : r.declaredRef = .str r.computedRef
  valid : r.a.valid = true ∧ r.b.valid = true
  struct : (Json.bool true).eq r.declaredStruct = true
  signed : (r.a.observed = true → r.a.signed = true) ∧ (r.b.observed = true → r.b.signed = true)
  bound : (r.a.observed = true → r.a.bound = true) ∧ (r.b.observed = true → r.b.bound = true)
  binding : (Json.bool (r.a.bound && r.b.bound)).eq r.declaredBinding = true
  state : r.declaredState = .str r.state.text
  chain : r.chain.1 = true

theorem Half.signatureFailures_nil_iff {half : Half} {party : Party} :
    half.signatureFailures party = [] ↔ (half.observed = true → half.signed = true) := by
  cases observed : half.observed <;> cases signed : half.signed <;> simp [Half.signatureFailures, observed, signed]

theorem Half.bindingFailures_nil_iff {half : Half} {party : Party} :
    half.bindingFailures party = [] ↔ (half.observed = true → half.bound = true) := by
  cases observed : half.observed <;> cases bound : half.bound <;> simp [Half.bindingFailures, observed, bound]

theorem ite_nil_iff {α : Type} {condition : Bool} {x : α} :
    (if condition then [] else [x]) = [] ↔ condition = true := by
  cases condition <;> simp

theorem Reading.failures_nil_iff {r : Reading} : r.failures = [] ↔ r.Clean := by
  simp only [Reading.failures, List.append_eq_nil_iff, ite_nil_iff, Half.signatureFailures_nil_iff,
    Half.bindingFailures_nil_iff, Json.str_eq]
  rw [Bool.and_eq_true]
  constructor
  · rintro ⟨⟨⟨⟨⟨⟨⟨⟨⟨ref, struct⟩, valid⟩, signedA⟩, signedB⟩, binding⟩, boundA⟩, boundB⟩, state⟩, chain⟩
    rw [valid.1, valid.2] at struct
    exact ⟨ref, valid, struct, ⟨signedA, signedB⟩, ⟨boundA, boundB⟩, binding, state, chain⟩
  · rintro ⟨ref, valid, struct, signed, bound, binding, state, chain⟩
    rw [valid.1, valid.2]
    exact ⟨⟨⟨⟨⟨⟨⟨⟨⟨ref, struct⟩, rfl, rfl⟩, signed.1⟩, signed.2⟩, binding⟩, bound.1⟩, bound.2⟩, state⟩, chain⟩

/-- The comparator does not ask which party is named first. -/
theorem Reading.state_exchanged {r : Reading} {ref : Str}
    (swap : r.b.actionRef.eq r.a.actionRef = r.a.actionRef.eq r.b.actionRef) : (r.exchanged ref).state = r.state := by
  simp only [Reading.state, Reading.exchanged, computeComparatorState, Bool.and_comm r.b.ready, swap]

theorem Reading.Clean.exchanged {r : Reading} {ref : Str}
    (swap : r.b.actionRef.eq r.a.actionRef = r.a.actionRef.eq r.b.actionRef) (clean : r.Clean) :
    (r.exchanged ref).Clean where
  ref := rfl
  valid := clean.valid.symm
  struct := clean.struct
  signed := clean.signed.symm
  bound := clean.bound.symm
  binding := (congrArg (fun bound => (Json.bool bound).eq r.declaredBinding) (Bool.and_comm ..)).trans clean.binding
  state := clean.state.trans (congrArg (fun state => Json.str state.text) (Reading.state_exchanged swap).symm)
  chain := clean.chain

end

/-- What the verifier returns first: none where it raises. -/
def verdict (vector : Json) : Option Bool := (verifyVector vector).toOption.map Prod.fst

/-- The state the comparator comes to. -/
def comparatorState (vector : Json) : Option ComparatorState := (read vector).toOption.map Reading.state

section
variable {vector other : Json}

theorem verdict_of_read {r : Reading} (done : read vector = .ok r) :
    verdict vector = some r.failures.isEmpty ∧ comparatorState vector = some r.state := by
  rw [verdict, verifyVector, comparatorState, done]
  exact ⟨rfl, rfl⟩

theorem Exchanged.alike (exchanged : Exchanged vector other) (unique : Json.Unambiguous vector) :
    verdict other = verdict vector ∧ comparatorState other = comparatorState vector := by
  cases done : read vector with
  | error raised =>
      -- were the other one read, so would this one be
      have raises : ∃ raised', read other = .error raised' := by
        cases done' : read other with
        | error raised' => exact ⟨raised', rfl⟩
        | ok r' =>
            obtain ⟨ref, again⟩ := (read_ok_iff.mp done').exchanged exchanged.symm
            rw [read_ok_iff.mpr again] at done
            cases done
      obtain ⟨raised', done'⟩ := raises
      rw [verdict, verifyVector, comparatorState, verdict, verifyVector, comparatorState, done, done']
      exact ⟨rfl, rfl⟩
  | ok r =>
      have whole := read_ok_iff.mp done
      obtain ⟨ref, done'⟩ := whole.exchanged exchanged
      have swap : r.b.actionRef.eq r.a.actionRef = r.a.actionRef.eq r.b.actionRef := by
        rw [whole.a.actionRef, whole.b.actionRef]
        exact Json.eq_swap (((unique.get _).get _).get _) (((unique.get _).get _).get _)
      have right : r.declaredRef = .str r.computedRef := by
        obtain ⟨own, digest, written⟩ := exchanged.recomputes
        obtain rfl := Except.ok.inj (whole.hashed.symm.trans digest)
        rw [← whole.declaredRef]
        exact (Json.getD_str_iff (sha256hex_ne_nil digest)).mpr written
      have clean : (r.exchanged ref).failures = [] ↔ r.failures = [] := by
        rw [Reading.failures_nil_iff, Reading.failures_nil_iff]
        refine ⟨fun clean => ?_, Reading.Clean.exchanged swap⟩
        have back : ((r.exchanged ref).exchanged r.computedRef).Clean := clean.exchanged swap.symm
        exact { back with ref := right }
      rw [(verdict_of_read done).1, (verdict_of_read (read_ok_iff.mpr done')).1, (verdict_of_read done).2,
        (verdict_of_read (read_ok_iff.mpr done')).2, Reading.state_exchanged swap]
      refine ⟨congrArg some ?_, rfl⟩
      rw [Bool.eq_iff_iff, List.isEmpty_iff, List.isEmpty_iff, clean]

end

abbrev Accepted (vector : Json) : Prop := Passes (verifyVector vector)

abbrev flagA (vector : Json) : Json := (vector.get Key.checks).get Key.signatureValidA

abbrev flagB (vector : Json) : Json := (vector.get Key.checks).get Key.signatureValidB

/-- The parties name the same action. -/
def sameAction (vector : Json) : Bool :=
  ((partyA vector).get Key.actionRef).eq ((partyB vector).get Key.actionRef)

/-- The parties have the same id. -/
def sameParty (vector : Json) : Bool := ((partyA vector).get Key.partyId).eq ((partyB vector).get Key.partyId)

/-- A half of which nothing is missing, invalid or unbound. -/
structure Sound (party flag : Json) : Prop where
  observed : party.get Key.observed = .bool true
  actionRef : party.get Key.actionRef ≠ .null
  coSigner : ∀ key ∈ requiredOfCoSigner, ((party.get Key.coSigner).get key).truthy = true
  signed : flag = .bool true
  covers : ∃ fields, (party.get Key.coSigner).get Key.signedFields = .list fields ∧
    ∀ name ∈ requiredSignedFields, .str name ∈ fields

/-- Two parties, each of them soundly on record. -/
structure Witnessed (vector : Json) : Prop where
  apart : sameParty vector = false
  a : Sound (partyA vector) (flagA vector)
  b : Sound (partyB vector) (flagB vector)

/-- Agreement and disagreement need two witnesses, and no order of the two. -/
structure TwoWitnesses (vector : Json) : Prop where
  witnessed : Accepted vector → ∀ state, state ≠ ComparatorState.unresolved →
    vector.get Key.comparatorState = .str state.text →
    Witnessed vector ∧ (state = .agreed ↔ sameAction vector = true)
  unresolved : Accepted vector → ¬ (Sound (partyA vector) (flagA vector) ∧ Sound (partyB vector) (flagB vector)) →
    vector.get Key.comparatorState = .str ComparatorState.unresolved.text
  exchanged : Recomputes vector → ∀ ref, sha256hex (jcs (exchangeParties (envelopeOf vector))) = .ok ref →
    verdict (exchange vector ref) = verdict vector ∧ comparatorState (exchange vector ref) = comparatorState vector

/-- The state of halves of which neither is missing, invalid or unbound. -/
def stateOf (vector : Json) : ComparatorState :=
  if isObserved (partyA vector) && isObserved (partyB vector) then
    if sameAction vector then .agreed else .disagreed
  else .unresolved

/-- What the verifier asks of a vector. -/
structure Admissible (vector : Json) : Prop where
  recomputes : Recomputes vector
  checks : (checksOf vector).isDict = true
  valid : checkStructuralValidity (partyA vector) = .ok true ∧ checkStructuralValidity (partyB vector) = .ok true
  struct : (Json.bool true).eq ((checksOf vector).getD Key.structuralValidity (.bool true)) = true
  signed : (isObserved (partyA vector) = true →
      ((checksOf vector).getD Key.signatureValidA (.bool false)).truthy = true) ∧
    (isObserved (partyB vector) = true → ((checksOf vector).getD Key.signatureValidB (.bool false)).truthy = true)
  bound : checkSignatureBinding (partyA vector) = .ok true ∧ checkSignatureBinding (partyB vector) = .ok true
  binding : (Json.bool true).eq ((checksOf vector).getD Key.signatureBinding (.bool true)) = true
  state : vector.get Key.comparatorState = .str (stateOf vector).text
  chain : ∃ detail, checkSupersedesChainIntegrity vector = .ok (true, detail)

section
variable {vector party flag : Json} {half : Half}

theorem isObserved_iff : isObserved party = true ↔ party.get Key.observed = .bool true := by
  unfold isObserved
  split
  · rename_i observed
    exact iff_of_true rfl observed
  · rename_i apart
    exact iff_of_false (by decide) apart

/-- A party that observed nothing has nothing to bind. -/
theorem Half.Of.bound_of (about : half.Of party flag) (bound : half.observed = true → half.bound = true) :
    half.bound = true := by
  cases observed : half.observed with
  | true => exact bound observed
  | false =>
      have found := about.bound
      rw [about.observed] at observed
      rw [checkSignatureBinding, if_pos (isDict_of_valid about.valid), observed, if_neg (by decide)] at found
      exact (Except.ok.inj found).symm

theorem text_ne_nil (state : ComparatorState) : state.text ≠ [] := by
  cases state <;> decide

theorem text_injective {state other : ComparatorState} (same : state.text = other.text) : state = other := by
  cases state <;> cases other <;> first | rfl | exact absurd same (by decide)

/-- Of halves that are valid, signed and bound the state is that of the vector. -/
theorem ReadAs.state_eq {r : Reading} (whole : ReadAs vector r) (valid : r.a.valid = true ∧ r.b.valid = true)
    (signed : (r.a.observed = true → r.a.signed = true) ∧ (r.b.observed = true → r.b.signed = true))
    (bound : r.a.bound = true ∧ r.b.bound = true) : r.state = stateOf vector := by
  have ready : ∀ half : Half, half.valid = true → (half.observed = true → half.signed = true) → half.bound = true →
      half.ready = half.observed := by
    intro half valid signed bound
    rw [Half.ready, valid, bound]
    cases observed : half.observed with
    | false => rfl
    | true =>
        rw [signed observed]
        rfl
  rw [Reading.state, computeComparatorState, ready _ valid.1 signed.1 bound.1, ready _ valid.2 signed.2 bound.2,
    whole.a.observed, whole.b.observed, whole.a.actionRef, whole.b.actionRef]
  rfl

/-- The verifier accepts what is admissible, and nothing else. -/
theorem accepted_iff (vector : Json) : Accepted vector ↔ Admissible vector := by
  constructor
  · rintro ⟨failures, verified⟩
    obtain ⟨r, done, verified⟩ := bind_ok verified
    obtain ⟨empty, _⟩ := Prod.mk.inj (Except.ok.inj verified)
    have clean := Reading.failures_nil_iff.mp (List.isEmpty_iff.mp empty)
    have whole := read_ok_iff.mp done
    have boundA := whole.a.bound_of clean.bound.1
    have boundB := whole.b.bound_of clean.bound.2
    have binding := clean.binding
    have state := clean.state
    rw [boundA, boundB, ← whole.binding] at binding
    rw [whole.state_eq clean.valid clean.signed ⟨boundA, boundB⟩, ← whole.state,
      Json.getD_str_iff (text_ne_nil _)] at state
    refine ⟨⟨_, whole.hashed, ?_⟩, whole.checks, ⟨clean.valid.1 ▸ whole.a.valid, clean.valid.2 ▸ whole.b.valid⟩,
      whole.struct ▸ clean.struct, ⟨fun observed => ?_, fun observed => ?_⟩,
      ⟨boundA ▸ whole.a.bound, boundB ▸ whole.b.bound⟩, binding, state, r.chain.2, ?_⟩
    · rw [← Json.getD_str_iff (sha256hex_ne_nil whole.hashed), whole.declaredRef, clean.ref]
    · rw [← whole.a.signed]
      exact clean.signed.1 (whole.a.observed.trans observed)
    · rw [← whole.b.signed]
      exact clean.signed.2 (whole.b.observed.trans observed)
    · rw [whole.chain, ← clean.chain]
  · rintro ⟨⟨ref, hashed, declared⟩, checks, valid, struct, signed, bound, binding, state, detail, chain⟩
    have present := Json.ne_null_of_eq declared rfl
    have inside : (envelopeOf vector).isDict = true :=
      Json.isDict_of_get (Json.ne_null_of_isDict (isDict_of_valid valid.1))
    have shown : ∀ party, shownFields party true = .ok none := by
      intro party
      rw [shownFields, Bool.not_true, Bool.and_false]
      rfl
    let r : Reading := ⟨ref, .str ref,
      ⟨true, isObserved (partyA vector), ((checksOf vector).getD Key.signatureValidA (.bool false)).truthy, true, none,
        (partyA vector).get Key.actionRef⟩,
      ⟨true, isObserved (partyB vector), ((checksOf vector).getD Key.signatureValidB (.bool false)).truthy, true, none,
        (partyB vector).get Key.actionRef⟩,
      (checksOf vector).getD Key.structuralValidity (.bool true),
      (checksOf vector).getD Key.signatureBinding (.bool true), .str (stateOf vector).text, (true, detail)⟩
    have whole : ReadAs vector r := ⟨Json.isDict_of_get present, hashed,
      (Json.getD_str_iff (sha256hex_ne_nil hashed)).mpr declared, inside, checks,
      ⟨valid.1, rfl, rfl, bound.1, shown _, rfl⟩, ⟨valid.2, rfl, rfl, bound.2, shown _, rfl⟩, rfl, rfl,
      (Json.getD_str_iff (text_ne_nil _)).mpr state, chain⟩
    have clean : r.failures = [] := Reading.failures_nil_iff.mpr ⟨rfl, ⟨rfl, rfl⟩, struct, signed,
      ⟨fun _ => rfl, fun _ => rfl⟩, binding,
      congrArg (fun state => Json.str state.text) (whole.state_eq ⟨rfl, rfl⟩ signed ⟨rfl, rfl⟩).symm, rfl⟩
    refine ⟨[], ?_⟩
    rw [verifyVector, read_ok_iff.mpr whole]
    change Except.ok (r.failures.isEmpty, r.failures) = _
    rw [clean]
    rfl

theorem sound_of (valid : checkStructuralValidity party = .ok true) (observed : isObserved party = true)
    (bound : checkSignatureBinding party = .ok true) (signed : flag = .bool true) : Sound party flag := by
  have object := isDict_of_valid valid
  have witnessed := isObserved_iff.mp observed
  rw [checkSignatureBinding, if_pos object, if_pos observed] at bound
  obtain ⟨observed', read, valid⟩ := bind_ok valid
  obtain ⟨actionRef, named, valid⟩ := bind_ok valid
  obtain ⟨coSigner, signer, valid⟩ := bind_ok valid
  obtain ⟨_, rfl⟩ := Json.fetch_ok_iff.mp read
  obtain ⟨_, rfl⟩ := Json.fetch_ok_iff.mp named
  obtain ⟨_, rfl⟩ := Json.fetch_ok_iff.mp signer
  rw [witnessed] at valid
  have complete := Except.ok.inj valid
  rw [Bool.and_eq_true, Bool.and_eq_true, Bool.and_eq_true, Bool.not_eq_true', List.all_eq_true] at complete
  obtain ⟨⟨⟨present, _⟩, required⟩, _⟩ := complete
  refine ⟨witnessed, fun absent => ?_, required, signed, ?_⟩
  · rw [absent] at present
    cases present
  · split at bound
    · rename_i fields listed
      refine ⟨fields, listed, fun name member => ?_⟩
      unfold covers at bound
      split at bound
      · rw [Except.ok.injEq, List.all_eq_true] at bound
        obtain ⟨value, inside, same⟩ := List.any_eq_true.mp (bound name member)
        rwa [← Json.eq_str.mp same]
      · cases bound
    · cases bound

end

/-- The parties are told apart, and their flags are declared one way or the other. -/
structure PartiesApart (vector : Json) : Prop where
  ids : sameParty vector = false
  a : ∃ declared, flagA vector = .bool declared
  b : ∃ declared, flagB vector = .bool declared

/-- Peer agreement needs two witnesses iff the parties of what is admissible are told apart
wherever both observed an action. -/
theorem twoWitnesses_iff {vector : Json} (unique : Json.Unambiguous vector) : TwoWitnesses vector ↔
    (Admissible vector → isObserved (partyA vector) = true → isObserved (partyB vector) = true →
      PartiesApart vector) := by
  constructor
  · intro witnesses admissible observedA observedB
    have resolved : stateOf vector ≠ .unresolved := by
      rw [stateOf, observedA, observedB]
      cases sameAction vector <;> decide
    obtain ⟨⟨apart, a, b⟩, _⟩ :=
      witnesses.witnessed ((accepted_iff vector).mpr admissible) _ resolved admissible.state
    exact ⟨apart, ⟨true, a.signed⟩, ⟨true, b.signed⟩⟩
  · intro apart
    have sound : ∀ (admissible : Admissible vector), isObserved (partyA vector) = true →
        isObserved (partyB vector) = true →
        Sound (partyA vector) (flagA vector) ∧ Sound (partyB vector) (flagB vector) := by
      intro admissible observedA observedB
      obtain ⟨_, ⟨_, first⟩, ⟨_, second⟩⟩ := apart admissible observedA observedB
      exact ⟨sound_of admissible.valid.1 observedA admissible.bound.1
          (declared_true first (admissible.signed.1 observedA)),
        sound_of admissible.valid.2 observedB admissible.bound.2
          (declared_true second (admissible.signed.2 observedB))⟩
    refine ⟨fun accepted state resolved declared => ?_, fun accepted unsound => ?_, fun recomputes ref hashed =>
      (exchanged_exchange recomputes hashed).alike unique⟩
    · have admissible := (accepted_iff vector).mp accepted
      have shown : state = stateOf vector :=
        text_injective (Json.str.inj (declared.symm.trans admissible.state))
      subst shown
      unfold stateOf at resolved ⊢
      split at resolved
      · rename_i observed
        obtain ⟨observedA, observedB⟩ := Bool.and_eq_true_iff.mp observed
        obtain ⟨a, b⟩ := sound admissible observedA observedB
        refine ⟨⟨(apart admissible observedA observedB).ids, a, b⟩, ?_⟩
        rw [if_pos observed]
        cases sameAction vector <;> simp
      · exact absurd rfl resolved
    · have admissible := (accepted_iff vector).mp accepted
      have unseen : stateOf vector = .unresolved := by
        refine if_neg fun observed => unsound ?_
        obtain ⟨observedA, observedB⟩ := Bool.and_eq_true_iff.mp observed
        exact sound admissible observedA observedB
      rw [admissible.state, unseen]

/-- A party that observed the action `x` and signs what is required of it. -/
def observer (partyId : String) : Json := .dict [(Key.partyId, .str (ofString partyId)), (Key.observed, .bool true),
  (Key.actionRef, .str (ofString "x")),
  (Key.coSigner, .dict (requiredOfCoSigner.map (fun key => (key, Json.str key)) ++
    [(Key.signedFields, .list (requiredSignedFields.map .str))]))]

/-- A vector on which two parties agree, both signatures being declared valid. -/
def agreement (first second ref : String) : Json := .dict [
  (Key.envelope, .dict [(Key.interactionId, .str (ofString "n")), (Key.partyA, observer first),
    (Key.partyB, observer second)]),
  (Key.peerReconciliationRef, .str (ofString ref)), (Key.comparatorState, .str ComparatorState.agreed.text),
  (Key.checks, .dict [(Key.signatureValidA, .bool true), (Key.signatureValidB, .bool true)])]

theorem unambiguous_observer (partyId : String) : Json.Unambiguous (observer partyId) := by
  have signer : Json.Unambiguous (.dict (requiredOfCoSigner.map (fun key => (key, Json.str key)) ++
      [(Key.signedFields, .list (requiredSignedFields.map .str))])) := by
    refine .dict (by decide) fun item member => ?_
    rcases List.mem_append.mp member with inside | last
    · obtain ⟨key, _, rfl⟩ := List.mem_map.mp inside
      exact .str key
    · rw [List.mem_singleton.mp last]
      exact .list (List.forall_mem_map.mpr fun name _ => .str name)
  have unique : [Key.partyId, Key.observed, Key.actionRef, Key.coSigner].Nodup := by decide
  refine .dict unique ?_
  simp only [List.forall_mem_cons]
  exact ⟨.str _, .bool _, .str _, signer, by simp⟩

theorem unambiguous_agreement (first second ref : String) : Json.Unambiguous (agreement first second ref) := by
  have envelope : Json.Unambiguous (.dict [(Key.interactionId, .str (ofString "n")), (Key.partyA, observer first),
      (Key.partyB, observer second)]) := by
    have unique : [Key.interactionId, Key.partyA, Key.partyB].Nodup := by decide
    refine .dict unique ?_
    simp only [List.forall_mem_cons]
    exact ⟨.str _, unambiguous_observer first, unambiguous_observer second, by simp⟩
  have checks : Json.Unambiguous (.dict [(Key.signatureValidA, .bool true), (Key.signatureValidB, .bool true)]) := by
    refine .dict (by decide) ?_
    simp only [List.forall_mem_cons]
    exact ⟨.bool _, .bool _, by simp⟩
  have unique : [Key.envelope, Key.peerReconciliationRef, Key.comparatorState, Key.checks].Nodup := by decide
  refine .dict unique ?_
  simp only [List.forall_mem_cons]
  exact ⟨envelope, .str _, .str _, checks, by simp⟩

/-- One operator that plays both peers. -/
def selfPaired : Json := agreement "p" "p" "e98a239b3a1fa4a7c0b83431e6a4bfeabfe168e9590ad801d1fcb7c3bcbabd35"

def paired : Json := agreement "p" "q" "d36a2ca5fcf6d7992c7021a931055d22c27e52ad6dd9630cc92164fb6ae6b184"

theorem not_twoWitnesses_selfPaired : ¬ TwoWitnesses selfPaired := by
  intro witnesses
  have witnessed := (witnesses.witnessed (by decide +kernel) .agreed (by decide) rfl).1
  exact absurd witnessed.apart (by decide)

theorem twoWitnesses_paired : Accepted paired ∧ TwoWitnesses paired :=
  ⟨by decide +kernel,
    (twoWitnesses_iff (unambiguous_agreement "p" "q" _)).mpr fun _ _ _ => ⟨by decide, ⟨true, rfl⟩, ⟨true, rfl⟩⟩⟩

end Argentum.PeerReconciliation
