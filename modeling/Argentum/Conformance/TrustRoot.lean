import Argentum.Conformance.Delegation
import Argentum.Core.Methods
import Argentum.Trail.SortKeys

/-! The verifier of cards. A card is checked against the public key it carries itself, and
then for a trust anchor that it names. The two are not connected: an anchor is a text, which
whoever signs a card with a key of their own can copy. -/
namespace Argentum.TrustRoot
open Text Dumps Jcs Delegation

namespace Key

def issuerPubkey : Str := ofString "issuer_pubkey"
def issuerKeyId : Str := ofString "issuer_key_id"
def trustAnchorRef : Str := ofString "trust_anchor_ref"
def signature : Str := ofString "signature"
def selfConsistency : Str := ofString "self_consistency"

end Key

/-- A card, by its fields. -/
abbrev Card := List (Str × Json)

/-- `card.get(key)` -/
def Card.field (card : Card) (key : Str) : Json := (card.lookup key).getD .null

def signed (key : Str) : Bool := !(key == Key.signature || key == Key.selfConsistency)

/-- What is signed of a card. -/
def signable (card : Card) : Card := card.filter fun item => signed item.1

/-- `card_signing_bytes`: the keys of the card are sorted, and those inside its values are not. -/
def cardSigningBytes (card : Card) : Except PyError Bytes := encodeUtf8 (dumps (.dict (sortItems (signable card))))

/-- Why a card is rejected, with the values the message shows. -/
inductive Rejection where
  | signatureInvalid
  | trustAnchorUnresolved (issuerKeyId trustAnchorRef : Json)

/-- The signature verifies against the embedded key. Whatever is raised on the way is a
signature that does not. -/
def selfConsistent (verifies : Verifier) (card : Card) : Bool :=
  match card.lookup Key.issuerPubkey, cardSigningBytes card, card.lookup Key.signature with
  | some key, .ok message, some signature => verifies key message signature
  | _, _, _ => false

/-- `value in anchors` -/
def isKnown (knownTrustAnchors : List Str) (value : Json) : Except PyError Bool :=
  if value.hashable then .ok (knownTrustAnchors.any fun anchor => value.eq (.str anchor)) else .error .typeError

/-- `verify_card`: none where the card is accepted. -/
def verifyCard (verifies : Verifier) (knownTrustAnchors : List Str) (card : Card) :
    Except PyError (Option Rejection) :=
  if selfConsistent verifies card then do
    let anchor := card.field Key.trustAnchorRef
    if ← isKnown knownTrustAnchors anchor then return none
    else return some (.trustAnchorUnresolved (card.field Key.issuerKeyId) anchor)
  else .ok (some .signatureInvalid)

/-- A signature scheme: what a key signs verifies under its public key, which is written in
ASCII. Nothing is assumed of what else verifies, so that an ideal signature is one. -/
structure SignatureScheme where
  Secret : Type
  publicKey : Secret → Str
  sign : Secret → Bytes → Json
  verifies : Verifier
  verifies_sign : ∀ secret message, verifies (.str (publicKey secret)) message (sign secret message) = true
  ascii : ∀ secret, ((publicKey secret).all fun c => c.val < 128) = true

/-- What the adversary makes of the fields: the card carries the adversary's key, and its
signature. -/
def forge (scheme : SignatureScheme) (secret : scheme.Secret) (fields : Card) : Except PyError Card := do
  let card := assign fields Key.issuerPubkey (.str (scheme.publicKey secret))
  let message ← cardSigningBytes card
  return assign card Key.signature (scheme.sign secret message)

def Accepted (scheme : SignatureScheme) (registry : List Str) (card : Card) : Prop :=
  verifyCard scheme.verifies registry card = .ok none

/-- The card is rejected with `TRUST_ANCHOR_UNRESOLVED`. -/
def Unresolved (scheme : SignatureScheme) (registry : List Str) (card : Card) : Prop :=
  ∃ issuerKeyId anchor,
    verifyCard scheme.verifies registry card = .ok (some (.trustAnchorUnresolved issuerKeyId anchor))

/-- No card that is accepted helps a fresh key to be. -/
def Authentic (scheme : SignatureScheme) (registry : List Str) : Prop :=
  ∀ card, Accepted scheme registry card → ∀ secret,
    card.lookup Key.issuerPubkey ≠ some (.str (scheme.publicKey secret)) →
    ∀ fields forged, forge scheme secret fields = .ok forged → Unresolved scheme registry forged

/-- A value that can be looked up in the registry, and is not in it. -/
def Unregistered (registry : List Str) (anchor : Json) : Prop :=
  anchor.hashable = true ∧ ∀ known ∈ registry, anchor ≠ .str known

section
variable {scheme : SignatureScheme} {registry : List Str} {card fields forged : Card} {secret : scheme.Secret}

theorem scalar_dumps_dict_iff {items : List (Str × Json)} :
    Scalar (dumps (.dict items)) ↔ ∀ item ∈ items, Scalar item.1 ∧ Scalar (dumps item.2) := by
  rw [dumps, scalar_bracket_iff (by decide), Loads.dumpsItems_eq_map, List.forall_mem_map]
  refine forall₂_congr fun item member => ?_
  rw [Loads.dumpsItem, scalar_append_iff, scalar_cons_iff (by decide), scalar_quote_iff]

/-- A card can be signed where no signed field of it has a lone surrogate. -/
theorem cardSigningBytes_isOk_iff : (∃ message, cardSigningBytes card = .ok message) ↔
    ∀ item ∈ signable card, Scalar item.1 ∧ Scalar (dumps item.2) := by
  have sorted : (∀ item ∈ sortItems (signable card), Scalar item.1 ∧ Scalar (dumps item.2)) ↔
      ∀ item ∈ signable card, Scalar item.1 ∧ Scalar (dumps item.2) := by
    simp only [sortItems, List.mem_insertionSort]
  rw [← sorted, ← scalar_dumps_dict_iff, cardSigningBytes, encodeUtf8_isOk_iff]

theorem isKnown_iff {anchor : Json} {known : Bool} : isKnown registry anchor = .ok known ↔
    anchor.hashable = true ∧ (known = true ↔ ∃ text ∈ registry, anchor = .str text) := by
  have found : (registry.any fun text => anchor.eq (.str text)) = true ↔ ∃ text ∈ registry, anchor = .str text := by
    rw [List.any_eq_true]
    simp only [Json.eq_str]
  unfold isKnown
  split
  · rename_i hashed
    rw [Except.ok.injEq, ← found, Bool.eq_iff_iff, and_iff_right hashed]
    exact iff_comm
  · rename_i raised
    exact iff_of_false (fun same => by cases same) fun both => raised both.1

/-- Signing does not see the signature, so what the adversary makes is consistent in itself. -/
theorem selfConsistent_forge (made : forge scheme secret fields = .ok forged) :
    selfConsistent scheme.verifies forged = true ∧
      forged.field Key.trustAnchorRef = fields.field Key.trustAnchorRef := by
  obtain ⟨message, bytes, made⟩ := bind_ok made
  obtain rfl := Except.ok.inj made
  have unseen : ∀ (card : Card) (value : Json), cardSigningBytes (assign card Key.signature value) =
      cardSigningBytes card := by
    intro card value
    have dropped : signed Key.signature = false := by decide
    rw [cardSigningBytes, cardSigningBytes, signable, signable, filter_assign dropped]
  refine ⟨?_, ?_⟩
  · rw [selfConsistent, unseen, bytes, lookup_assign, lookup_assign, lookup_assign, if_neg (by decide), if_pos rfl,
      if_pos rfl]
    exact scheme.verifies_sign ..
  · rw [Card.field, lookup_assign, lookup_assign, if_neg (by decide), if_neg (by decide)]
    rfl

theorem unresolved_iff (consistent : selfConsistent scheme.verifies card = true) :
    Unresolved scheme registry card ↔ Unregistered registry (card.field Key.trustAnchorRef) := by
  rw [Unresolved, verifyCard, if_pos consistent]
  constructor
  · rintro ⟨issuerKeyId, anchor, rejected⟩
    obtain ⟨known, found, rejected⟩ := bind_ok rejected
    obtain ⟨hashed, known_iff⟩ := isKnown_iff.mp found
    cases known with
    | true => cases rejected
    | false => exact ⟨hashed, fun text inside same => absurd (known_iff.mpr ⟨text, inside, same⟩) (by decide)⟩
  · rintro ⟨hashed, apart⟩
    have unknown : isKnown registry (card.field Key.trustAnchorRef) = .ok false := by
      refine isKnown_iff.mpr ⟨hashed, iff_of_false (by decide) ?_⟩
      rintro ⟨text, inside, same⟩
      exact apart text inside same
    exact ⟨_, _, bind_ok_iff.mpr ⟨false, unknown, rfl⟩⟩

theorem accepted_iff : Accepted scheme registry card ↔ selfConsistent scheme.verifies card = true ∧
    ∃ anchor ∈ registry, card.field Key.trustAnchorRef = .str anchor := by
  rw [Accepted, verifyCard]
  constructor
  · intro accepted
    split at accepted
    · rename_i consistent
      obtain ⟨known, found, accepted⟩ := bind_ok accepted
      cases known with
      | true => exact ⟨consistent, (isKnown_iff.mp found).2.mp rfl⟩
      | false => cases accepted
    · cases accepted
  · rintro ⟨consistent, anchor, inside, same⟩
    have known : isKnown registry (card.field Key.trustAnchorRef) = .ok true :=
      isKnown_iff.mpr ⟨by rw [same]; rfl, iff_of_true rfl ⟨anchor, inside, same⟩⟩
    rw [if_pos consistent]
    exact bind_ok_iff.mpr ⟨true, known, rfl⟩

/-- A card that could be signed once can be signed with any other key. -/
theorem forge_isOk (secret : scheme.Secret) (consistent : selfConsistent scheme.verifies card = true) :
    ∃ forged, forge scheme secret card = .ok forged := by
  have written : ∃ message, cardSigningBytes card = .ok message := by
    unfold selfConsistent at consistent
    split at consistent
    · exact ⟨_, by assumption⟩
    · cases consistent
  have scalar := cardSigningBytes_isOk_iff.mp written
  have resigned : ∃ message,
      cardSigningBytes (assign card Key.issuerPubkey (.str (scheme.publicKey secret))) = .ok message := by
    refine cardSigningBytes_isOk_iff.mpr fun item member => ?_
    obtain ⟨inside, kept⟩ := List.mem_filter.mp member
    have name : Scalar Key.issuerPubkey := scalar_ascii (by decide)
    rcases mem_assign inside with rfl | old
    · exact ⟨name, scalar_quote_iff.mpr (scalar_ascii (scheme.ascii secret))⟩
    · exact scalar item (List.mem_filter.mpr ⟨old, kept⟩)
  obtain ⟨message, bytes⟩ := resigned
  exact ⟨_, bind_ok_iff.mpr ⟨message, bytes, rfl⟩⟩

/-- Beside a card that is accepted, what an adversary signs is rejected with
`TRUST_ANCHOR_UNRESOLVED` iff the anchor written into it is not registered; the card itself,
signed with the adversary's key, is accepted. -/
theorem unresolved_forged_iff (accepted : Accepted scheme registry card) (secret : scheme.Secret) :
    (∀ fields forged, forge scheme secret fields = .ok forged →
      (Unresolved scheme registry forged ↔ Unregistered registry (fields.field Key.trustAnchorRef))) ∧
    ∃ forged, forge scheme secret card = .ok forged ∧ Accepted scheme registry forged := by
  refine ⟨fun fields forged made => ?_, ?_⟩
  · obtain ⟨consistent, copied⟩ := selfConsistent_forge made
    rw [unresolved_iff consistent, copied]
  · obtain ⟨consistent, anchored⟩ := accepted_iff.mp accepted
    obtain ⟨forged, made⟩ := forge_isOk secret consistent
    obtain ⟨consistent', copied⟩ := selfConsistent_forge made
    exact ⟨forged, made, accepted_iff.mpr ⟨consistent', copied ▸ anchored⟩⟩

end

def nameOf (genuine : Bool) : Str := ofString (if genuine then "genuine" else "fresh")

/-- Two keys. The signature of a message is the name of the key and the message, and no other
verifies. -/
def namedScheme : SignatureScheme where
  Secret := Bool
  publicKey := nameOf
  sign genuine message := .str (nameOf genuine ++ hexOf message)
  verifies key message signature :=
    match key with
    | .str name => signature.eq (.str (name ++ hexOf message))
    | _ => false
  verifies_sign _ _ := Json.eq_str.mpr rfl
  ascii genuine := by cases genuine <;> decide

/-- A card under the one registered anchor, signed with the genuine key. -/
def genuineCard : Card :=
  let message := ofString "\x7b\"issuer_pubkey\":\"genuine\",\"trust_anchor_ref\":\"root\"\x7d"
  [(Key.issuerPubkey, .str (ofString "genuine")), (Key.trustAnchorRef, .str (ofString "root")),
    (Key.signature, .str (ofString "genuine" ++ hexOf (message.map fun c => byte c.val)))]

theorem accepted_genuineCard : Accepted namedScheme [ofString "root"] genuineCard :=
  accepted_iff.mpr ⟨by decide +kernel, ofString "root", List.mem_cons_self, rfl⟩

/-- The copy of a genuine card is accepted under a fresh key. -/
theorem not_authentic_copy : ¬ Authentic namedScheme [ofString "root"] := by
  intro authentic
  have genuine := (accepted_iff.mp accepted_genuineCard).1
  obtain ⟨forged, made⟩ : ∃ forged, forge namedScheme false genuineCard = .ok forged := forge_isOk _ genuine
  obtain ⟨consistent, copied⟩ := selfConsistent_forge made
  have accepted : Accepted namedScheme [ofString "root"] forged :=
    accepted_iff.mpr ⟨consistent, ofString "root", List.mem_cons_self, copied⟩
  have fresh : genuineCard.lookup Key.issuerPubkey ≠ some (.str (nameOf false)) := by
    intro same
    exact absurd (Json.str.inj (Option.some.inj same)) (by decide)
  obtain ⟨issuerKeyId, anchor, rejected⟩ :=
    authentic genuineCard accepted_genuineCard false fresh genuineCard forged made
  cases accepted.symm.trans rejected

theorem unresolved_forged_genuineCard : (∀ fields forged, forge namedScheme false fields = .ok forged →
      (Unresolved namedScheme [ofString "root"] forged ↔
        Unregistered [ofString "root"] (fields.field Key.trustAnchorRef))) ∧
    ∃ forged, forge namedScheme false genuineCard = .ok forged ∧ Accepted namedScheme [ofString "root"] forged :=
  unresolved_forged_iff accepted_genuineCard false

end Argentum.TrustRoot
