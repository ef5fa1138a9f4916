import Argentum.Conformance.References

/-! The verifier of settlement evidence. It recomputes the reference of the artifact, asks
what the vector declares of the ledger, and computes three checks of the artifact, each of
which is also compared with what the vector declares of it. What no check reads may be
anything in a vector that conforms. -/
namespace Argentum.SettlementEvidence
open Text Delegation References

namespace Key

def settlementArtifact : Str := ofString "settlement_artifact"
def settlementEvidenceRef : Str := ofString "settlement_evidence_ref"
def referencedOffer : Str := ofString "referenced_offer"
def checks : Str := ofString "checks"
def ledgerRecomputed : Str := ofString "ledger_recomputed"
def network : Str := ofString "network"
def transaction : Str := ofString "transaction"
def offerIdentityRef : Str := ofString "offer_identity_ref"
def payerDebit : Str := ofString "payer_debit"
def payeeCredit : Str := ofString "payee_credit"
def address : Str := ofString "address"
def amount : Str := ofString "amount"
def asset : Str := ofString "asset"
def maxAmountRequired : Str := ofString "maxAmountRequired"
def payTo : Str := ofString "payTo"

end Key

/-- The side of a payment names an address, an amount and an asset. -/
def named (side : Json) : Except PyError Bool :=
  if side.isDict then .ok ([Key.address, Key.amount, Key.asset].all fun key => !(side.get key).isNull)
  else .error .attributeError

def checkDebitCreditPaired (artifact : Json) : Except PyError Bool := do
  let debit ← artifact.fetchD Key.payerDebit (.dict [])
  let credit ← artifact.fetchD Key.payeeCredit (.dict [])
  if ← named debit then named credit else return false

def checkTransactionPresent (artifact : Json) : Except PyError Bool := do
  match ← artifact.fetch Key.transaction with
  | .str tx => return tx ≠ []
  | _ => return false

/-- A field of a side is what the offer asks for. -/
def meets (side : Json) (key : Str) (offer : Json) (required : Str) : Except PyError Bool := do
  return (← side.fetch key).eq (← offer.fetch required)

/-- There is nothing to compare with where no offer is given. -/
def checkMatchesOffer (artifact referencedOffer : Json) : Except PyError Bool :=
  if referencedOffer.truthy then do
    let debit ← artifact.fetchD Key.payerDebit (.dict [])
    let credit ← artifact.fetchD Key.payeeCredit (.dict [])
    if ← meets debit Key.amount referencedOffer Key.maxAmountRequired then
      if ← meets debit Key.asset referencedOffer Key.asset then
        meets credit Key.address referencedOffer Key.payTo
      else return false
    else return false
  else .ok true

/-- A check that is computed, and declared in the vector as well. -/
inductive Check where
  | debitCreditPaired | matchesOffer | transactionPresent
  deriving DecidableEq

def Check.key : Check → Str
  | .debitCreditPaired => ofString "debit_credit_paired"
  | .matchesOffer => ofString "matches_offer"
  | .transactionPresent => ofString "transaction_present"

/-- A failure, with the values its message shows. -/
inductive Failure where
  | canonicalSettlement (computed : Str) (declared : Json)
  | ledgerRecomputed
  | declaredApart (check : Check) (computed : Bool) (declared : Json)
  | computedFalse (check : Check)

/-- The failures of a check: a check may be declared as it is computed, and then it fails
all the same where its failing is reported. -/
def checkFailures (checks : Json) (check : Check) (reported computed : Bool) : Except PyError (List Failure) := do
  let apart ← declaredApart checks check.key (.bool true) (.bool computed)
  return apart.toList.map (.declaredApart check computed) ++
    if !computed && reported then [.computedFalse check] else []

def canonicalSettlement (vector : Json) (computedRef : Str) : Except PyError (List Failure) :=
  refFailures vector Key.settlementEvidenceRef computedRef (.canonicalSettlement computedRef)

def verifyVector (vector : Json) : Except PyError (Bool × List Failure) := do
  let artifact ← vector.item Key.settlementArtifact
  let computedRef ← sha256hex (jcs artifact)
  let canonical ← canonicalSettlement vector computedRef
  let checks ← vector.fetchD Key.checks (.dict [])
  let declaredLedgerRecomputed ← checks.fetchD Key.ledgerRecomputed (.bool false)
  let ledger := if declaredLedgerRecomputed.truthy then [] else [Failure.ledgerRecomputed]
  let computedPaired ← checkDebitCreditPaired artifact
  let paired ← checkFailures checks .debitCreditPaired declaredLedgerRecomputed.truthy computedPaired
  let computedMatches ← checkMatchesOffer artifact (vector.get Key.referencedOffer)
  let offer ← checkFailures checks .matchesOffer true computedMatches
  let computedTxPresent ← checkTransactionPresent artifact
  let transaction ← checkFailures checks .transactionPresent true computedTxPresent
  let failures := canonical ++ ledger ++ paired ++ offer ++ transaction
  return (failures.isEmpty, failures)

abbrev Accepted (vector : Json) : Prop := Passes (verifyVector vector)

abbrev artifactOf (vector : Json) : Json := vector.get Key.settlementArtifact

/-- The settled amount, asset and payee are those the offer requires. -/
structure MeetsOffer (artifact offer : Json) : Prop where
  amount : ((artifact.get Key.payerDebit).get Key.amount).eq (offer.get Key.maxAmountRequired) = true
  asset : ((artifact.get Key.payerDebit).get Key.asset).eq (offer.get Key.asset) = true
  payee : ((artifact.get Key.payeeCredit).get Key.address).eq (offer.get Key.payTo) = true

/-- A side names an address, an amount and an asset. -/
def Named (side : Json) : Prop := ∀ key ∈ [Key.address, Key.amount, Key.asset], side.get key ≠ .null

/-- The reference that is declared is the hash of the artifact. -/
def Hashed (vector : Json) : Prop :=
  ∃ ref, sha256hex (jcs (artifactOf vector)) = .ok ref ∧ vector.get Key.settlementEvidenceRef = .str ref

/-- A field is a text that is not empty. -/
def Filled (value : Json) (key : Str) : Prop := ∃ text, value.get key = .str text ∧ text ≠ []

/-- What was credited is what was debited. -/
structure Balanced (artifact : Json) : Prop where
  amount : ((artifact.get Key.payeeCredit).get Key.amount).eq ((artifact.get Key.payerDebit).get Key.amount) = true
  asset : ((artifact.get Key.payeeCredit).get Key.asset).eq ((artifact.get Key.payerDebit).get Key.asset) = true

/-- Both sides of the payment are proven. -/
structure Proven (vector : Json) : Prop where
  ledger : (vector.get Key.checks).get Key.ledgerRecomputed = .bool true
  network : Filled (artifactOf vector) Key.network
  transaction : Filled (artifactOf vector) Key.transaction
  debit : Named ((artifactOf vector).get Key.payerDebit)
  credit : Named ((artifactOf vector).get Key.payeeCredit)
  balanced : Balanced (artifactOf vector)
  hashed : Hashed vector
  offer : (artifactOf vector).get Key.offerIdentityRef ≠ .null →
    vector.get Key.referencedOffer ≠ .null ∧ MeetsOffer (artifactOf vector) (vector.get Key.referencedOffer)

/-- What the verifier asks of a vector. -/
structure Admissible (vector : Json) : Prop where
  hashed : Hashed vector
  checks : (vector.getD Key.checks (.dict [])).isDict = true
  ledger : ((vector.getD Key.checks (.dict [])).getD Key.ledgerRecomputed (.bool false)).truthy = true
  debit : Named ((artifactOf vector).get Key.payerDebit)
  credit : Named ((artifactOf vector).get Key.payeeCredit)
  offer : (vector.get Key.referencedOffer).truthy = true →
    (vector.get Key.referencedOffer).isDict = true ∧ MeetsOffer (artifactOf vector) (vector.get Key.referencedOffer)
  transaction : Filled (artifactOf vector) Key.transaction
  declared : ∀ check : Check,
    (Json.bool true).eq ((vector.getD Key.checks (.dict [])).getD check.key (.bool true)) = true

section
variable {vector artifact side offer checks : Json} {ref : Str}

theorem named_iff : named side = .ok true ↔ Named side := by
  constructor
  · intro names
    unfold named at names
    split at names
    · rw [Except.ok.injEq, List.all_eq_true] at names
      intro key member absent
      have present := names key member
      rw [absent] at present
      cases present
    · cases names
  · intro names
    rw [named, if_pos (Json.isDict_of_get (names Key.address (by decide))), Except.ok.injEq, List.all_eq_true]
    intro key member
    rw [Bool.not_eq_true']
    exact Json.isNull_false_iff.mpr (names key member)

/-- A side that names something is not the default of its field. -/
theorem Named.getD {key : Str} (names : Named (artifact.getD key (.dict []))) :
    Named (artifact.get key) ∧ artifact.getD key (.dict []) = artifact.get key := by
  have present : artifact.get key ≠ .null := by
    intro absent
    cases artifact with
    | dict items =>
        rw [Json.get] at absent
        rw [Json.getD] at names
        cases found : items.lookup key with
        | none =>
            rw [found] at names
            exact names Key.address (by decide) rfl
        | some value =>
            rw [found] at names absent
            rw [Option.getD_some] at names absent
            rw [absent] at names
            exact names Key.address (by decide) rfl
    | null | bool | int | float | str | list => exact names Key.address (by decide) rfl
  have same : artifact.getD key (.dict []) = artifact.get key := Json.getD_eq_get present
  exact ⟨same ▸ names, same⟩

theorem Named.present {key : Str} (names : Named (artifact.get key)) :
    artifact.get key ≠ .null ∧ (artifact.get key).isDict = true := by
  have object := Json.isDict_of_get (names Key.address (by decide))
  exact ⟨Json.ne_null_of_isDict object, object⟩

theorem checkDebitCreditPaired_iff : checkDebitCreditPaired artifact = .ok true ↔
    Named (artifact.get Key.payerDebit) ∧ Named (artifact.get Key.payeeCredit) := by
  constructor
  · intro paired
    obtain ⟨debit, there, paired⟩ := bind_ok paired
    obtain ⟨credit, there', paired⟩ := bind_ok paired
    obtain ⟨first, names, paired⟩ := bind_ok paired
    obtain ⟨_, rfl⟩ := Json.fetchD_ok_iff.mp there
    obtain ⟨_, rfl⟩ := Json.fetchD_ok_iff.mp there'
    cases first with
    | true => exact ⟨(named_iff.mp names).getD.1, (named_iff.mp paired).getD.1⟩
    | false => cases paired
  · rintro ⟨debit, credit⟩
    have object := Json.isDict_of_get debit.present.1
    have read : ∀ key, Named (artifact.get key) → artifact.fetchD key (.dict []) = .ok (artifact.get key) :=
      fun key names => Json.fetchD_ok_iff.mpr ⟨object, Json.getD_eq_get names.present.1⟩
    simp only [checkDebitCreditPaired, read _ debit, read _ credit, named_iff.mpr debit, named_iff.mpr credit, bind,
      Except.bind, if_true]

theorem checkTransactionPresent_iff :
    checkTransactionPresent artifact = .ok true ↔ Filled artifact Key.transaction := by
  constructor
  · intro present
    obtain ⟨value, there, present⟩ := bind_ok present
    obtain ⟨_, rfl⟩ := Json.fetch_ok_iff.mp there
    split at present
    · rename_i tx found
      exact ⟨tx, found, of_decide_eq_true (Except.ok.inj present)⟩
    · cases present
  · rintro ⟨tx, found, filled⟩
    have object := Json.isDict_of_get (Json.ne_null_of_eq found rfl)
    rw [checkTransactionPresent, Json.fetch_ok_iff.mpr ⟨object, found⟩]
    exact congrArg Except.ok (decide_eq_true filled)

theorem meets_ok_iff {key required : Str} {met : Bool} : meets side key offer required = .ok met ↔
    side.isDict = true ∧ offer.isDict = true ∧ (side.get key).eq (offer.get required) = met := by
  constructor
  · intro compared
    obtain ⟨own, there, compared⟩ := bind_ok compared
    obtain ⟨other, there', compared⟩ := bind_ok compared
    obtain ⟨object, rfl⟩ := Json.fetch_ok_iff.mp there
    obtain ⟨object', rfl⟩ := Json.fetch_ok_iff.mp there'
    exact ⟨object, object', Except.ok.inj compared⟩
  · rintro ⟨object, object', rfl⟩
    rw [meets, Json.fetch_of_isDict object, Json.fetch_of_isDict object']
    rfl

/-- The offer is compared where it is given. -/
theorem checkMatchesOffer_iff (debit : Named (artifact.get Key.payerDebit))
    (credit : Named (artifact.get Key.payeeCredit)) : checkMatchesOffer artifact offer = .ok true ↔
      (offer.truthy = true → offer.isDict = true ∧ MeetsOffer artifact offer) := by
  have object := Json.isDict_of_get debit.present.1
  have read : ∀ key, Named (artifact.get key) → artifact.fetchD key (.dict []) = .ok (artifact.get key) :=
    fun key names => Json.fetchD_ok_iff.mpr ⟨object, Json.getD_eq_get names.present.1⟩
  rw [checkMatchesOffer]
  split
  · rename_i given
    rw [read _ debit, read _ credit]
    constructor
    · intro compared _
      obtain ⟨_, same, compared⟩ := bind_ok compared
      obtain rfl := Except.ok.inj same
      obtain ⟨_, same, compared⟩ := bind_ok compared
      obtain rfl := Except.ok.inj same
      obtain ⟨amount, first, compared⟩ := bind_ok compared
      obtain ⟨_, object', met⟩ := meets_ok_iff.mp first
      cases amount with
      | false => cases compared
      | true =>
        obtain ⟨asset, second, compared⟩ := bind_ok compared
        obtain ⟨_, _, met'⟩ := meets_ok_iff.mp second
        cases asset with
        | false => cases compared
        | true => exact ⟨object', met, met', (meets_ok_iff.mp compared).2.2⟩
    · intro both
      obtain ⟨object', met⟩ := both given
      have first := meets_ok_iff.mpr ⟨debit.present.2, object', met.amount⟩
      have second := meets_ok_iff.mpr ⟨debit.present.2, object', met.asset⟩
      have third := meets_ok_iff.mpr ⟨credit.present.2, object', met.payee⟩
      simp only [first, second, third, bind, Except.bind, if_true]
  · rename_i absent
    exact iff_of_true rfl fun given => absurd given absent

/-- A check that is reported finds nothing where it holds and is declared to hold. -/
theorem checkFailures_nil_iff {check : Check} {computed : Bool} : checkFailures checks check true computed = .ok [] ↔
    computed = true ∧ checks.isDict = true ∧ (Json.bool true).eq (checks.getD check.key (.bool true)) = true := by
  rw [← declaredApart_none_iff]
  constructor
  · intro clean
    obtain ⟨apart, compared, clean⟩ := bind_ok clean
    cases computed with
    | false => cases apart <;> cases clean
    | true =>
        cases apart with
        | none => exact ⟨rfl, compared⟩
        | some declared => cases clean
  · rintro ⟨rfl, same⟩
    rw [checkFailures, same]
    rfl

/-- The verifier accepts a vector of which every check ends without a failure. -/
theorem accepted_checks : Accepted vector ↔ ∃ ref, vector.item Key.settlementArtifact = .ok (artifactOf vector) ∧
    sha256hex (jcs (artifactOf vector)) = .ok ref ∧ canonicalSettlement vector ref = .ok [] ∧
    (vector.getD Key.checks (.dict [])).isDict = true ∧
    ((vector.getD Key.checks (.dict [])).getD Key.ledgerRecomputed (.bool false)).truthy = true ∧
    (∃ computed, checkDebitCreditPaired (artifactOf vector) = .ok computed ∧
      checkFailures (vector.getD Key.checks (.dict [])) .debitCreditPaired true computed = .ok []) ∧
    (∃ computed, checkMatchesOffer (artifactOf vector) (vector.get Key.referencedOffer) = .ok computed ∧
      checkFailures (vector.getD Key.checks (.dict [])) .matchesOffer true computed = .ok []) ∧
    ∃ computed, checkTransactionPresent (artifactOf vector) = .ok computed ∧
      checkFailures (vector.getD Key.checks (.dict [])) .transactionPresent true computed = .ok [] := by
  constructor
  · rintro ⟨failures, verified⟩
    obtain ⟨artifact, found, verified⟩ := bind_ok verified
    obtain ⟨ref, hashed, verified⟩ := bind_ok verified
    obtain ⟨canonical, declared, verified⟩ := bind_ok verified
    obtain ⟨checks, there, verified⟩ := bind_ok verified
    obtain ⟨ledger, recomputed, verified⟩ := bind_ok verified
    obtain ⟨computedPaired, sides, verified⟩ := bind_ok verified
    obtain ⟨paired, pairedClean, verified⟩ := bind_ok verified
    obtain ⟨computedMatches, offered, verified⟩ := bind_ok verified
    obtain ⟨offer, offerClean, verified⟩ := bind_ok verified
    obtain ⟨computedTxPresent, referenced, verified⟩ := bind_ok verified
    obtain ⟨transaction, transactionClean, verified⟩ := bind_ok verified
    obtain ⟨clean, _⟩ := Prod.mk.inj (Except.ok.inj verified)
    obtain rfl := Json.get_of_item found
    obtain ⟨_, rfl⟩ := Json.fetchD_ok_iff.mp there
    obtain ⟨object, rfl⟩ := Json.fetchD_ok_iff.mp recomputed
    simp only [List.isEmpty_iff, List.append_eq_nil_iff] at clean
    obtain ⟨⟨⟨⟨rfl, asserted⟩, rfl⟩, rfl⟩, rfl⟩ := clean
    have confirmed : ((vector.getD Key.checks (.dict [])).getD Key.ledgerRecomputed (.bool false)).truthy = true := by
      by_contra bare
      rw [if_neg bare] at asserted
      cases asserted
    rw [confirmed] at pairedClean
    exact ⟨ref, found, hashed, declared, object, confirmed, ⟨_, sides, pairedClean⟩, ⟨_, offered, offerClean⟩,
      _, referenced, transactionClean⟩
  · rintro ⟨ref, found, hashed, declared, object, confirmed, ⟨_, sides, pairedClean⟩, ⟨_, offered, offerClean⟩,
      _, referenced, transactionClean⟩
    obtain ⟨items, rfl, _⟩ := Json.item_ok found
    have there := Json.fetchD_of_isDict (show (Json.dict items).isDict = true from rfl) Key.checks (.dict [])
    have recomputed := Json.fetchD_of_isDict object Key.ledgerRecomputed (.bool false)
    refine ⟨[], ?_⟩
    simp only [verifyVector, found, hashed, declared, there, recomputed, confirmed, sides, pairedClean, offered,
      offerClean, referenced, transactionClean, bind, Except.bind, if_true]
    rfl

/-- The verifier accepts what is admissible, and nothing else. -/
theorem accepted_iff (vector : Json) : Accepted vector ↔ Admissible vector := by
  rw [accepted_checks]
  constructor
  · rintro ⟨ref, found, hashed, declared, object, confirmed, ⟨_, sides, pairedClean⟩, ⟨_, offered, offerClean⟩,
      _, referenced, transactionClean⟩
    obtain ⟨rfl, _, same⟩ := checkFailures_nil_iff.mp pairedClean
    obtain ⟨rfl, _, same'⟩ := checkFailures_nil_iff.mp offerClean
    obtain ⟨rfl, _, same''⟩ := checkFailures_nil_iff.mp transactionClean
    obtain ⟨debit, credit⟩ := checkDebitCreditPaired_iff.mp sides
    refine ⟨⟨ref, hashed, (refFailures_nil_iff hashed).mp declared⟩, object, confirmed, debit, credit,
      (checkMatchesOffer_iff debit credit).mp offered, checkTransactionPresent_iff.mp referenced, fun check => ?_⟩
    cases check with
    | debitCreditPaired => exact same
    | matchesOffer => exact same'
    | transactionPresent => exact same''
  · rintro ⟨⟨ref, hashed, declared⟩, object, confirmed, debit, credit, offer, transaction, same⟩
    have whole := Json.isDict_of_get debit.present.1
    exact ⟨ref, Json.item_of_isDict whole, hashed, (refFailures_nil_iff hashed).mpr declared, object, confirmed,
      ⟨true, checkDebitCreditPaired_iff.mpr ⟨debit, credit⟩, checkFailures_nil_iff.mpr ⟨rfl, object, same _⟩⟩,
      ⟨true, (checkMatchesOffer_iff debit credit).mpr offer, checkFailures_nil_iff.mpr ⟨rfl, object, same _⟩⟩,
      true, checkTransactionPresent_iff.mpr transaction, checkFailures_nil_iff.mpr ⟨rfl, object, same _⟩⟩

/-- An offer whose amount was settled is not empty. -/
theorem MeetsOffer.given (met : MeetsOffer artifact offer) (debit : Named (artifact.get Key.payerDebit)) :
    offer.truthy = true := by
  by_contra empty
  have absent : offer.get Key.maxAmountRequired = .null := by
    cases offer with
    | dict items =>
        cases items with
        | nil => rfl
        | cons item rest => exact absurd rfl empty
    | null | bool | int | float | str | list => rfl
  have amount := met.amount
  rw [absent] at amount
  exact debit Key.amount (by decide) (Json.eq_null.mp amount)

end

/-- Nothing is left to the facilitator: the ledger is declared one way or the other, the
network is named, the credit is the debit, and there is an offer where one is referred to. -/
structure Compared (vector : Json) : Prop where
  ledger : ∃ declared, (vector.get Key.checks).get Key.ledgerRecomputed = .bool declared
  network : Filled (artifactOf vector) Key.network
  balanced : Balanced (artifactOf vector)
  offer : (artifactOf vector).get Key.offerIdentityRef ≠ .null → (vector.get Key.referencedOffer).truthy = true

/-- Acceptance proves both sides of the payment iff what is admissible was compared. -/
theorem acceptedProven_iff (vector : Json) :
    (Accepted vector → Proven vector) ↔ (Admissible vector → Compared vector) := by
  rw [accepted_iff]
  refine forall_congr' fun admissible => ?_
  constructor
  · intro proven
    exact ⟨⟨true, proven.ledger⟩, proven.network, proven.balanced,
      fun carried => (proven.offer carried).2.given proven.debit⟩
  · rintro ⟨⟨declared, there⟩, network, balanced, given⟩
    refine ⟨declared_true there admissible.ledger, network, admissible.transaction, admissible.debit, admissible.credit,
      balanced, admissible.hashed, fun carried => ⟨fun absent => ?_, (admissible.offer (given carried)).2⟩⟩
    have offered := given carried
    rw [absent] at offered
    cases offered

/-- A side of a payment of an amount. -/
def sideOf (amount : String) : Json := strings [("address", "0xA1"), ("amount", amount), ("asset", "USDC")]

/-- A vector over an artifact, whose ledger is declared recomputed. -/
def vectorOf (artifact : Json) (ref : String) : Json := .dict [(Key.settlementArtifact, artifact),
  (Key.settlementEvidenceRef, .str (ofString ref)), (Key.checks, .dict [(Key.ledgerRecomputed, .bool true)])]

/-- Two are debited and one is credited. -/
def unbalanced : Json := vectorOf (.dict [(Key.network, .str (ofString "base")),
  (Key.transaction, .str (ofString "0x7c")), (Key.payerDebit, sideOf "2"), (Key.payeeCredit, sideOf "1")])
  "d0cc3b3e2a3788c689d3d1cbd57d148c110836bba1c94736d7dc825b1da7abd9"

/-- An offer is referred to and not supplied, and no network is named. -/
def unoffered : Json := vectorOf (.dict [(Key.offerIdentityRef, .str (ofString "0df1")),
  (Key.transaction, .str (ofString "0x7c")), (Key.payerDebit, sideOf "2"), (Key.payeeCredit, sideOf "2")])
  "f9984dbcd22d027adc9101936dac36df474d08e497c693848f4eff9a7fa91d73"

theorem not_acceptedProven : ¬ (Accepted unbalanced → Proven unbalanced) ∧
    ¬ (Accepted unoffered → Proven unoffered) := by
  refine ⟨fun holds => ?_, fun holds => ?_⟩
  · have amount := (holds (by decide +kernel)).balanced.amount
    cases amount
  · exact ((holds (by decide +kernel)).offer Json.noConfusion).1 rfl

end Argentum.SettlementEvidence
