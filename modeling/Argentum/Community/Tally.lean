import Argentum.Community.Schema
import Mathlib.Data.List.Perm.Basic
import Mathlib.Tactic.Linarith

/-! One pending action as a count of its ballots. A vote is verified by weight,
a Lightning payment by rows, and both stop counting once the action is
verified. The order of the ballots matters in two cases: a payment that would be
the first row, with votes too light to follow it, and without a payment weights
that `SUM` brings to the threshold in one order and not in another. -/
namespace Argentum.Community
open Argentum

/-- The weights of the rows so far, in their order. -/
structure Tally where
  weights : List ℚ
  paid : Bool
  verified : Bool

inductive Ballot where
  | vote (weight : ℚ)
  | pay
  deriving DecidableEq, Repr

def Ballot.vote? : Ballot → Option ℚ
  | .vote weight => some weight
  | .pay => none

namespace Tally

def cast [SqliteSum] (t : Tally) (ballot : Ballot) : Tally :=
  if t.verified then t else
  match ballot with
  | .vote weight =>
      { t with
        weights := t.weights ++ [weight]
        verified := decide (weightThreshold ≤ SqliteSum.sum (t.weights ++ [weight])) }
  | .pay =>
      if t.paid then t else
      { weights := t.weights ++ [1]
        paid := true
        verified := decide (attestationsNeeded ≤ t.weights.length + 1) }

def castAll [SqliteSum] (t : Tally) (ballots : List Ballot) : Tally := ballots.foldl cast t

/-- Every vote weighs something. -/
def Proper (ballots : List Ballot) : Prop := ∀ weight, Ballot.vote weight ∈ ballots → 0 < weight

/-- The weights of the votes, in their order. -/
def votes (ballots : List Ballot) : List ℚ := ballots.filterMap Ballot.vote?

section
variable {ballots rest : List Ballot} {weight : ℚ}

@[simp] theorem votes_nil : votes [] = [] := rfl

@[simp] theorem votes_vote : votes (.vote weight :: rest) = weight :: votes rest := rfl

@[simp] theorem votes_pay : votes (.pay :: rest) = votes rest := rfl

theorem mem_votes : weight ∈ votes ballots ↔ Ballot.vote weight ∈ ballots := by
  rw [votes, List.mem_filterMap]
  constructor
  · rintro ⟨ballot, member, same⟩
    cases ballot with
    | vote other =>
        cases same
        exact member
    | pay => cases same
  · exact fun member => ⟨_, member, rfl⟩

theorem Proper.tail {ballot : Ballot} (proper : Proper (ballot :: rest)) : Proper rest :=
  fun weight member => proper weight (List.mem_cons_of_mem _ member)

theorem Proper.perm {first second : List Ballot} (proper : Proper first) (order : first.Perm second) :
    Proper second := fun weight member => proper weight (order.mem_iff.mpr member)

theorem Proper.nonneg (proper : Proper ballots) : ∀ weight ∈ votes ballots, 0 ≤ weight :=
  fun weight member => (proper weight (mem_votes.mp member)).le

theorem votes_append (first second : List Ballot) : votes (first ++ second) = votes first ++ votes second :=
  List.filterMap_append ..

theorem votes_map (weights : List ℚ) : votes (weights.map .vote) = weights := by
  rw [votes, List.filterMap_map]
  exact List.filterMap_some ..

/-- The payments in front, and then the votes. -/
theorem perm_votes (ballots : List Ballot) :
    (ballots.filter (· = Ballot.pay) ++ (votes ballots).map Ballot.vote).Perm ballots := by
  induction ballots with
  | nil => exact .nil
  | cons ballot rest ih =>
      cases ballot with
      | pay => simpa using ih
      | vote weight => simpa [List.filter_cons] using List.perm_middle.trans (ih.cons _)

/-- Every order of the weights is one of the ballots, with a payment first if there is one. -/
theorem exists_perm_of_votes {order : List ℚ} (perm : order.Perm (votes ballots)) :
    ∃ other, other.Perm ballots ∧ votes other = order ∧ (Ballot.pay ∈ ballots → ∃ rest, other = .pay :: rest) := by
  have silent : votes (ballots.filter (· = .pay)) = [] := by
    rw [votes, List.filterMap_eq_nil_iff]
    intro ballot member
    rw [of_decide_eq_true (List.mem_filter.mp member).2]
    rfl
  refine ⟨ballots.filter (· = .pay) ++ order.map .vote, ((perm.map _).append_left _).trans (perm_votes ballots), ?_,
    fun payment => ?_⟩
  · rw [votes_append, silent, votes_map, List.nil_append]
  · have paid : Ballot.pay ∈ ballots.filter (· = .pay) := List.mem_filter.mpr ⟨payment, decide_eq_true rfl⟩
    cases payments : ballots.filter (· = .pay) with
    | nil =>
        rw [payments] at paid
        cases paid
    | cons first more =>
        have first_mem : first ∈ ballots.filter (· = .pay) := by rw [payments]; exact List.mem_cons_self
        rw [of_decide_eq_true (List.mem_filter.mp first_mem).2]
        exact ⟨_, rfl⟩

end

section
variable [SqliteSum] {t : Tally} {ballots rest : List Ballot} {weight : ℚ}

/-- A verified action hears no further ballot. -/
theorem castAll_verified (verified : t.verified = true) : t.castAll ballots = t := by
  induction ballots with
  | nil => rfl
  | cons ballot rest ih => simpa [castAll, cast, verified] using ih

/-- Without a payment to come the weights decide. -/
theorem castAll_votes (proper : Proper ballots) (unverified : t.verified = false)
    (settled : t.paid = true ∨ Ballot.pay ∉ ballots) :
    (t.castAll ballots).verified = true ↔
      votes ballots ≠ [] ∧ weightThreshold ≤ SqliteSum.sum (t.weights ++ votes ballots) := by
  induction ballots generalizing t with
  | nil => simp [castAll, unverified]
  | cons ballot rest ih =>
      have later : t.paid = true ∨ Ballot.pay ∉ rest :=
        settled.imp_right fun absent member => absent (List.mem_cons_of_mem _ member)
      cases ballot with
      | pay =>
          have paid : t.paid = true := settled.resolve_right (by simp)
          have same : t.castAll (.pay :: rest) = t.castAll rest := by
            simp [castAll, cast, paid]
          rw [same, ih proper.tail unverified later, votes_pay]
      | vote weight =>
          have more : t.weights ++ votes (.vote weight :: rest) = t.weights ++ [weight] ++ votes rest := by simp
          rw [more, and_iff_right (by simp)]
          by_cases heavy : weightThreshold ≤ SqliteSum.sum (t.weights ++ [weight])
          · have verified : (t.cast (.vote weight)).verified = true := by simp [cast, unverified, heavy]
            have same : t.castAll (.vote weight :: rest) = t.cast (.vote weight) := castAll_verified verified
            rw [same, verified]
            exact iff_of_true rfl (heavy.trans (sum_le_append _ proper.tail.nonneg))
          · have light : (t.cast (.vote weight)).verified = false := by simp [cast, unverified, heavy]
            have same : t.castAll (.vote weight :: rest) = (t.cast (.vote weight)).castAll rest := rfl
            have kept : (t.cast (.vote weight)).paid = true ∨ Ballot.pay ∉ rest := by
              simpa [cast, unverified] using later
            have weights : (t.cast (.vote weight)).weights = t.weights ++ [weight] := by simp [cast, unverified]
            rw [same, ih proper.tail light kept, weights]
            constructor
            · exact And.right
            · intro reached
              refine ⟨fun silent => heavy ?_, reached⟩
              rwa [silent, List.append_nil] at reached

/-- A payment to come finds a row already there, and verifies. -/
theorem castAll_pay (coming : Ballot.pay ∈ ballots) (unpaid : t.paid = false) (some_row : 1 ≤ t.weights.length) :
    (t.castAll ballots).verified = true := by
  cases verified : t.verified with
  | true => rw [castAll_verified verified, verified]
  | false =>
    induction ballots generalizing t with
    | nil => cases coming
    | cons ballot rest ih =>
        cases ballot with
        | pay =>
            have paid : (t.cast .pay).verified = true := by
              simp [cast, verified, unpaid, attestationsNeeded, some_row]
            have same : t.castAll (.pay :: rest) = t.cast .pay := castAll_verified paid
            rw [same, paid]
        | vote weight =>
            have same : t.castAll (.vote weight :: rest) = (t.cast (.vote weight)).castAll rest := rfl
            rw [same]
            cases heavy : (t.cast (.vote weight)).verified with
            | true => rw [castAll_verified heavy, heavy]
            | false =>
                refine ih ?_ ?_ ?_ heavy
                · simpa using coming
                · simpa [cast, verified] using unpaid
                · simp [cast, verified]

/-- A payment that is the first row leaves it to the weights behind it. -/
theorem castAll_pay_first (proper : Proper (.pay :: rest)) (unverified : t.verified = false) (unpaid : t.paid = false)
    (first : t.weights = []) : (t.castAll (.pay :: rest)).verified = true ↔
      votes rest ≠ [] ∧ weightThreshold ≤ SqliteSum.sum (1 :: votes rest) := by
  have paid : t.cast .pay = ⟨[1], true, false⟩ := by
    simp [cast, unverified, unpaid, first, attestationsNeeded]
  have same : t.castAll (.pay :: rest) = (t.cast .pay).castAll rest := rfl
  rw [same, paid, castAll_votes proper.tail rfl (Or.inl rfl), List.singleton_append]

/-- And one that finds a vote verifies. -/
theorem castAll_vote_first (payment : Ballot.pay ∈ rest) (unverified : t.verified = false)
    (unpaid : t.paid = false) : (t.castAll (.vote weight :: rest)).verified = true := by
  have same : t.castAll (.vote weight :: rest) = (t.cast (.vote weight)).castAll rest := rfl
  rw [same]
  refine castAll_pay payment ?_ ?_
  · simpa [cast, unverified] using unpaid
  · simp [cast, unverified]

/-- A payment counts: it is among the ballots, and none was counted before. -/
def Pays (t : Tally) (ballots : List Ballot) : Prop := Ballot.pay ∈ ballots ∧ t.paid = false

/-- A payment that may be the first row, with votes that are too light behind it in some order. -/
structure LonePayment (t : Tally) (ballots : List Ballot) : Prop where
  pays : t.Pays ballots
  first : t.weights = []
  vote : votes ballots ≠ []
  light : ∃ order, order.Perm (votes ballots) ∧ SqliteSum.sum (1 :: order) < weightThreshold

/-- No payment counts, and `SUM` brings the weights to the threshold in one order and not in another. -/
structure SumDecides (t : Tally) (ballots : List Ballot) : Prop where
  unpaid : ¬ t.Pays ballots
  orders : ∃ light heavy, light.Perm (votes ballots) ∧ heavy.Perm (votes ballots) ∧
    SqliteSum.sum (t.weights ++ light) < weightThreshold ∧ weightThreshold ≤ SqliteSum.sum (t.weights ++ heavy)

omit [SqliteSum] in
theorem settled_of_not_pays (unpaid : ¬ t.Pays ballots) : t.paid = true ∨ Ballot.pay ∉ ballots := by
  cases paid : t.paid with
  | true => exact Or.inl rfl
  | false => exact Or.inr fun member => unpaid ⟨member, paid⟩

/-- In either case two orders end apart. -/
theorem LonePayment.apart (lone : t.LonePayment ballots) (proper : Proper ballots) (unverified : t.verified = false) :
    ∃ first second, first.Perm ballots ∧ second.Perm ballots ∧
      (t.castAll first).verified = false ∧ (t.castAll second).verified = true := by
  obtain ⟨⟨payment, unpaid⟩, row, vote, order, perm, light⟩ := lone
  obtain ⟨first, same, voted, leads⟩ := exists_perm_of_votes perm
  obtain ⟨rest, rfl⟩ := leads payment
  obtain ⟨weight, member⟩ := List.exists_mem_of_ne_nil _ vote
  have behind : (.vote weight :: ballots.erase (.vote weight)).Perm ballots :=
    (List.perm_cons_erase (mem_votes.mp member)).symm
  refine ⟨_, _, same, behind, ?_, castAll_vote_first ?_ unverified unpaid⟩
  · rw [Bool.eq_false_iff, Ne, castAll_pay_first (proper.perm same.symm) unverified unpaid row]
    rintro ⟨_, heavy⟩
    rw [← voted] at light
    exact absurd heavy (not_le.mpr light)
  · exact (List.mem_erase_of_ne (by simp)).mpr payment

theorem SumDecides.apart (decides : t.SumDecides ballots) (proper : Proper ballots)
    (unverified : t.verified = false) : ∃ first second, first.Perm ballots ∧ second.Perm ballots ∧
      (t.castAll first).verified = false ∧ (t.castAll second).verified = true := by
  obtain ⟨unpaid, light, heavy, lightOrder, heavyOrder, below, reached⟩ := decides
  obtain ⟨first, firstOrder, rfl, _⟩ := exists_perm_of_votes lightOrder
  obtain ⟨second, secondOrder, rfl, _⟩ := exists_perm_of_votes heavyOrder
  have settled : ∀ other : List Ballot, other.Perm ballots → t.paid = true ∨ Ballot.pay ∉ other := fun other order =>
    (settled_of_not_pays unpaid).imp_right fun absent member => absent (order.mem_iff.mp member)
  refine ⟨first, second, firstOrder, secondOrder, ?_, ?_⟩
  · rw [Bool.eq_false_iff, Ne, castAll_votes (proper.perm firstOrder.symm) unverified (settled _ firstOrder)]
    rintro ⟨_, heavy⟩
    exact absurd heavy (not_le.mpr below)
  · rw [castAll_votes (proper.perm secondOrder.symm) unverified (settled _ secondOrder)]
    refine ⟨fun none => absurd reached (not_le.mpr ?_), reached⟩
    rw [none] at heavyOrder ⊢
    rw [List.nil_perm.mp heavyOrder, List.perm_nil] at lightOrder
    rwa [lightOrder] at below

end

/-- The doubles of 0.6, 0.7 and 0.7 from left to right, and the other way round. -/
example : Sqlite.addUp [3 / 5, 7 / 10, 7 / 10] < weightThreshold ∧
    weightThreshold ≤ Sqlite.addUp [7 / 10, 7 / 10, 3 / 5] := by decide +kernel

end Tally
end Argentum.Community
