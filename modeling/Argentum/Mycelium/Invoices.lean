import Argentum.Community.Confluence
import Argentum.Mycelium.Authority
import Argentum.Mycelium.Lightning

/-! Lightning invoices. A top-up and a stake on an action are both sold by an order to the
node, and told apart by the external id the order carries; the node repeats that id with
each notification of the payment. Two webhooks read it, and each id is for one of them.
What a top-up costs is what its deliveries credit, at the price of a trail. -/
namespace Argentum.Mycelium
open Argentum Text Transition

def satsPerTrail : Int := 300

/-- What `phoenixd_create_invoice` posts. -/
structure InvoiceOrder where
  amountSat : Int
  description : Str
  externalId : Str

/-- What is read of the answer of the node. -/
structure Invoice where
  serialized : Str
  paymentHash : Str

/-- `phoenixd_create_invoice`, which raises where the node does not answer. -/
abbrev Phoenixd := InvoiceOrder → Except Raised Invoice

def topupOrder (apiKey : Str) (trails : Int) : InvoiceOrder where
  amountSat := trails * satsPerTrail
  description := ofString "ARGENTUM PAYG — " ++ (Jcs.intText trails ++ ofString " trails")
  externalId := ofString "payg:" ++ (apiKey ++ ofChar ':' :: Jcs.intText trails)

structure TopupInvoice where
  apiKey : Str
  trails : Int
  amountSat : Int
  invoice : Str
  paymentHash : Str
  note : Str

/-- `POST /payg/topup/lightning` -/
def paygTopupLightning (createInvoice : Phoenixd) (apiKey : Str) (trails : Int) :
    Script (Except Refusal TopupInvoice) :=
  if trails < 1 ∨ trails > 10000 then return .error ⟨400, "trails must be between 1 and 10000"⟩
  else do
    let key ← bound (bindStr apiKey)
    match ← getPaygAccount key with
    | none => return .error ⟨404, "api_key not found — create account first via POST /payg/account"⟩
    | some _ => do
        let inv ← bound (createInvoice (topupOrder apiKey trails))
        return .ok
          { apiKey, trails, amountSat := (topupOrder apiKey trails).amountSat
            invoice := inv.serialized, paymentHash := inv.paymentHash
            note := Jcs.intText satsPerTrail ++ ofString " sats/trail. Credits added on payment confirmation." }

/-- The order of a stake; the description is made of columns that are left out. -/
def actionOrder (describe : Community.Action → Str) (actionId : String) (action : Community.Action) : InvoiceOrder where
  amountSat := max 10 action.karmaValue
  description := describe action
  externalId := ofString ("action:" ++ actionId)

structure ActionInvoice where
  actionId : String
  amountSat : Int
  invoice : Str
  paymentHash : Str
  note : String

/-- `POST /action/{action_id}/invoice` -/
def createActionInvoice (createInvoice : Phoenixd) (describe : Community.Action → Str) (db : Community.Database)
    (actionId : String) : Except Raised (Except Refusal ActionInvoice) :=
  match db.actions.find? actionId with
  | none => .ok (.error ⟨404, "Action not found"⟩)
  | some action => do
      let inv ← createInvoice (actionOrder describe actionId action)
      return .ok
        { actionId, amountSat := (actionOrder describe actionId action).amountSat
          invoice := inv.serialized, paymentHash := inv.paymentHash
          note := "Payment stakes your action. Refunded as ARGT karma when verified." }

/-- The node repeats, with a payment, the external id its invoice was ordered with. -/
def Gateway.Carries (g : Gateway) (createInvoice : Phoenixd) : Prop :=
  ∀ order inv, createInvoice order = .ok inv → g.externalId inv.paymentHash = order.externalId

section
variable {createInvoice : Phoenixd} {apiKey externalId : Str} {trails : Int} {answer : TopupInvoice} {w after : World}

/-- What a top-up that is answered 200 has ordered; it leaves the tables alone. -/
theorem paygTopupLightning_ok
    (bought : (paygTopupLightning createInvoice apiKey trails).run w = (.ok (.ok answer), after)) :
    after = w ∧ (1 ≤ trails ∧ trails ≤ 10000) ∧ answer.amountSat = satsPerTrail * trails ∧
      (∃ key, bindStr apiKey = .ok key ∧ (w.accounts.find? key).isSome) ∧
      ∃ inv, createInvoice (topupOrder apiKey trails) = .ok inv ∧ answer.paymentHash = inv.paymentHash := by
  unfold paygTopupLightning at bought
  split at bought
  · cases bought
  rename_i range
  rw [Script.run_bind, Script.run_bound] at bought
  cases named : bindStr apiKey with
  | error raised =>
      rw [named] at bought
      cases bought
  | ok key =>
      rw [named] at bought
      dsimp only at bought
      rw [getPaygAccount, Script.run_sql_bind] at bought
      have read : exec (.account key) w = (w.accounts.find? key, w) := rfl
      rw [read] at bought
      cases found : w.accounts.find? key with
      | none =>
          rw [found] at bought
          cases bought
      | some row =>
          rw [found] at bought
          dsimp only at bought
          rw [Script.run_bind, Script.run_bound] at bought
          cases issued : createInvoice (topupOrder apiKey trails) with
          | error raised =>
              rw [issued] at bought
              cases bought
          | ok inv =>
              rw [issued] at bought
              cases bought
              exact ⟨rfl, by omega, mul_comm .., ⟨key, rfl, by rw [found]; rfl⟩, inv, rfl, rfl⟩

end

/-- The id of a top-up comes apart at its colons, where the key has none. -/
theorem splitOn_topupOrder {apiKey : Str} (trails : Int) (apart : ofChar ':' ∉ apiKey) :
    (topupOrder apiKey trails).externalId.splitOn (ofChar ':') = [ofString "payg", apiKey, Jcs.intText trails] := by
  have digits : ofChar ':' ∉ Jcs.intText trails := fun member => absurd (Jcs.intText_lt member) (by decide)
  have tagged : ofChar ':' ∉ ofString "payg" := by decide
  have split : (topupOrder apiKey trails).externalId =
      List.intercalate [ofChar ':'] [ofString "payg", apiKey, Jcs.intText trails] := by
    simp only [topupOrder, List.intercalate, List.intersperse, List.flatten_cons, List.flatten_nil, List.append_nil,
      List.cons_append, List.nil_append]
    rfl
  rw [split]
  refine List.splitOn_intercalate _ (fun part member => ?_) (List.cons_ne_nil _ _)
  simp only [List.mem_cons, List.not_mem_nil, or_false] at member
  rcases member with rfl | rfl | rfl <;> assumption

section
variable {g : Gateway} {createInvoice : Phoenixd} {apiKey : Str} {trails : Int}

/-- A notification of the payment of a top-up is read as that top-up. -/
theorem readDelivery_topup {int : Str → Option Int} (reads : int (Jcs.intText trails) = some trails)
    (apart : ofChar ':' ∉ apiKey) (paymentHash : Str) :
    readDelivery int ⟨ofString "payment_received", (topupOrder apiKey trails).externalId, paymentHash⟩ =
      .ok (some ⟨apiKey, trails⟩) := by
  have tagged : (ofString "payg:").isPrefixOf (topupOrder apiKey trails).externalId = true :=
    List.isPrefixOf_iff_prefix.mpr (List.prefix_append ..)
  rw [readDelivery, if_neg (by simp), tagged, if_neg (by simp), splitOn_topupOrder trails apart]
  dsimp only
  rw [reads]

/-- What the deliveries of a sold invoice announce: the top-up it was ordered for. -/
theorem payment?_topup {inv : Invoice} (carries : g.Carries createInvoice)
    (reads : g.int (Jcs.intText trails) = some trails) (apart : ofChar ':' ∉ apiKey)
    (issued : createInvoice (topupOrder apiKey trails) = .ok inv) (some_hash : inv.paymentHash ≠ [])
    {ref key : String} (hashed : bindStr inv.paymentHash = .ok ref) (named : bindStr apiKey = .ok key) :
    g.payment? inv.paymentHash = some ⟨ref, key, trails⟩ := by
  have delivered : g.delivery inv.paymentHash =
      ⟨ofString "payment_received", (topupOrder apiKey trails).externalId, inv.paymentHash⟩ := by
    rw [Gateway.delivery, carries _ _ issued]
  rw [Gateway.payment?, if_neg some_hash, delivered, readDelivery_topup reads apart, hashed]
  dsimp only
  rw [named]

end

/-- The two webhooks read ids that begin in two ways. -/
theorem externalActionId_payg {externalId : String} {rest : Str}
    (tagged : ofString externalId = ofString "payg:" ++ rest) :
    Community.externalActionId externalId = none := by
  refine if_neg fun begins => ?_
  obtain ⟨more, split⟩ := List.isPrefixOf_iff_prefix.mp begins
  have heads : (ofString externalId).head? = some (ofChar 'a') := by
    rw [ofString, ← split]
    rfl
  have other : (ofString "payg:" ++ rest).head? = some (ofChar 'p') := rfl
  rw [tagged, other] at heads
  exact absurd heads (by decide)

theorem ofString_append (first second : String) : ofString (first ++ second) = ofString first ++ ofString second := by
  rw [ofString, String.toList_append, List.map_append]
  rfl

theorem readDelivery_action {int : Str → Option Int} {delivery : Delivery} {rest : String}
    (tagged : delivery.externalId = ofString ("action:" ++ rest)) : readDelivery int delivery = .ok none := by
  have other : (ofString "payg:").isPrefixOf delivery.externalId = false := by
    rw [Bool.eq_false_iff, tagged, ofString_append]
    intro begins
    obtain ⟨more, split⟩ := List.isPrefixOf_iff_prefix.mp begins
    have heads : (ofString "payg:" ++ more).head? = (ofString "action:" ++ ofString rest).head? := by rw [split]
    exact absurd (show some (ofChar 'p') = some (ofChar 'a') from heads) (by decide)
  rw [readDelivery, other]
  split <;> rfl

/-- A stake on an action is no top-up. -/
theorem actionInvoice_ignored {g : Gateway} {createInvoice : Phoenixd} {describe : Community.Action → Str}
    {db : Community.Database} {actionId : String} {answer : ActionInvoice} (carries : g.Carries createInvoice)
    (asked : createActionInvoice createInvoice describe db actionId = .ok (.ok answer)) :
    readDelivery g.int (g.delivery answer.paymentHash) = .ok none := by
  unfold createActionInvoice at asked
  split at asked
  · cases asked
  · rename_i action _
    cases issued : createInvoice (actionOrder describe actionId action) with
    | error raised =>
        rw [issued] at asked
        cases asked
    | ok inv =>
        rw [issued] at asked
        cases asked
        exact readDelivery_action (carries _ _ issued)

/-- A run of the gateway keeps a payment covered. -/
theorem covered_run {g : Gateway} {start : World} {steps : List GatewayStep} {paymentHash : Str} {payment : Payment}
    (admitted : Admits g.step g.MarksWithCredit ⟨start, []⟩ steps) (owed : g.payment? paymentHash = some payment)
    (account : (start.accounts.find? payment.apiKey).isSome) (unused : start.nonces.find? payment.ref = none) :
    Covered paymentHash payment (run g.step ⟨start, []⟩ steps)
      (total g.step (g.added paymentHash payment.apiKey) ⟨start, []⟩ steps) := by
  have begun : Covered paymentHash payment ⟨start, []⟩ 0 :=
    ⟨false, ⟨by rw [unused, Option.isSome_none], account⟩, rfl, fun none => nomatch none⟩
  refine admitted.tally (fun s step sum kept guarded => ?_) begun
  by_cases own : ∃ now, step.request = .lightning paymentHash now
  · obtain ⟨now, own⟩ := own
    exact kept.own owed guarded own
  · exact kept.other owed guarded fun now same => own ⟨now, same⟩

/-- A payment hash that no nonce has been recorded for. -/
def World.Unspent (w : World) (paymentHash : Str) : Prop :=
  paymentHash ≠ [] ∧ ∃ ref, bindStr paymentHash = .ok ref ∧ w.nonces.find? ref = none

/-- A sold top-up from the sale on: its deliveries credit the account of the order with the
trails it paid for, at the price of a trail, or nothing as long as none of them is answered
200. The other webhook makes nothing of its payment. -/
structure SoldAtPrice (g : Gateway) (apiKey : Str) (answer : TopupInvoice) (sold : World) (steps : List GatewayStep) :
    Prop where
  credited : ∃ key, ofString key = apiKey ∧
    let credit := total g.step (g.added answer.paymentHash key) ⟨sold, []⟩ steps
    satsPerTrail * credit = answer.amountSat ∨
      credit = 0 ∧ answer.paymentHash ∉ (run g.step ⟨sold, []⟩ steps).acknowledged
  ignored : ∀ (db : Community.Database) now attestId authentic (event : Community.PaymentEvent) outcome,
    ofString event.externalId = g.externalId answer.paymentHash →
      Community.paymentWebhook db now attestId authentic event = .ok outcome → outcome.db = db ∧ outcome.ledger = []

/-- In every run of deliveries, external trails, nexus trails and crashes that marks with each
credit, a top-up that was sold is credited once, for what it cost. -/
theorem soldAtPrice {g : Gateway} {createInvoice : Phoenixd} {apiKey : Str} {trails : Int} {answer : TopupInvoice}
    {w sold : World} {steps : List GatewayStep} (carries : g.Carries createInvoice)
    (reads : ∀ n : Int, 1 ≤ n → n ≤ 10000 → g.int (Jcs.intText n) = some n) (apart : ofChar ':' ∉ apiKey)
    (bought : (paygTopupLightning createInvoice apiKey trails).run w = (.ok (.ok answer), sold))
    (unspent : sold.Unspent answer.paymentHash) (admitted : Admits g.step g.MarksWithCredit ⟨sold, []⟩ steps) :
    SoldAtPrice g apiKey answer sold steps := by
  obtain ⟨rfl, range, price, ⟨key, named, account⟩, inv, issued, hash⟩ := paygTopupLightning_ok bought
  rw [hash] at unspent
  obtain ⟨some_hash, ref, hashed, unused⟩ := unspent
  have owed := payment?_topup carries (reads trails range.1 range.2) apart issued some_hash hashed named
  constructor
  · obtain ⟨marked, _, amount, acknowledged⟩ := covered_run admitted owed account unused
    refine ⟨key, ofString_of_bindStr named, ?_⟩
    dsimp only
    rw [hash, price, amount]
    cases marked with
    | true => exact Or.inl rfl
    | false => exact Or.inr ⟨rfl, fun member => Bool.false_ne_true (acknowledged member)⟩
  · intro db now attestId authentic event outcome same done
    rw [hash, carries _ _ issued] at same
    rcases Community.paymentWebhook_ok done with untouched | ⟨actionId, action, _, _, _⟩
    · exact untouched
    · unfold Community.paymentWebhook at done
      rw [externalActionId_payg same] at done
      split_ifs at done <;> cases done <;> exact ⟨rfl, rfl⟩

/-- The node of the five trails sells them. -/
def sellsFive : Phoenixd := fun order =>
  if order.externalId = ofString "payg:key:5" then .ok ⟨ofString "lnbc", firstHash⟩ else .error .attributeError

theorem carries_sellsFive : fiveTrails.Carries sellsFive := by
  intro order inv issued
  rw [sellsFive] at issued
  split at issued
  · rename_i same
    cases issued
    exact same.symm
  · cases issued

theorem decimalInt_intText (n : Int) (positive : 1 ≤ n) : decimalInt (Jcs.intText n) = some n := by
  obtain ⟨m, rfl⟩ := Int.eq_ofNat_of_zero_le (show 0 ≤ n by omega)
  have written : Jcs.intText (m : Int) = Jcs.natText m := if_neg (by omega)
  have digits : (Jcs.natText m).all isDigit = true := List.all_eq_true.mpr fun c => Url.isDigit_natText
  rw [written, decimalInt, digits, Bool.and_true, if_pos (decide_eq_true (Jcs.natText_ne_nil m)),
    Jcs.digitsValue_natText]

theorem soldAtPrice_five : ∃ answer sold, SoldAtPrice fiveTrails (ofString "key") answer sold
    [.serve (.lightning firstHash 1), .serve (.lightning firstHash 2)] :=
  ⟨_, _, soldAtPrice carries_sellsFive (fun n positive _ => decimalInt_intText n positive) (by decide)
    (show (paygTopupLightning sellsFive (ofString "key") 5).run oneCredit = _ from rfl) ⟨by decide, _, rfl, rfl⟩
    ⟨trivial, trivial, trivial⟩⟩

end Argentum.Mycelium
