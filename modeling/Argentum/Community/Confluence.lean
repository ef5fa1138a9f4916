import Argentum.Community.Refinement
import Argentum.Community.Tally

/-! The order of arrival. A pending action receives attestations by distinct
eligible attesters and at most one Lightning payment, each processed to its end
before the next. The handlers follow the tally of those ballots, so the outcome
depends on the order exactly where the tally's does. -/
namespace Argentum.Community
open Argentum

inductive ArrivalKind where
  | community (req : AttestRequest) (markCount : Nat) (verified : Bool)
  | payment (amountSat : Int) (paymentHash : String)
  deriving DecidableEq, Repr

/-- One request, with the clock and the generated id it is processed under. -/
structure Arrival where
  kind : ArrivalKind
  now : Instant
  attestId : String
  deriving DecidableEq, Repr

def ArrivalKind.attesterId : ArrivalKind → String
  | .community req _ _ => req.attesterId
  | .payment _ _ => "lightning"

/-- The weight the database gives a request, and the ballot that makes of it. -/
def ArrivalKind.ballot (db : Database) : ArrivalKind → Ballot
  | .community req markCount verified =>
      match Rest.attestWeight db req markCount verified with
      | .ok (_, weight) => .vote weight
      | .error _ => .vote 1
  | .payment _ _ => .pay

/-- The request would be accepted by the database. A payment is never refused. -/
def Arrival.Eligible (db : Database) (a : String) (arrival : Arrival) : Prop :=
  match arrival.kind with
  | .community req markCount verified =>
      (∃ action, Rest.attestChecks db arrival.now a req = .ok action) ∧
        ∃ granted, Rest.attestWeight db req markCount verified = .ok granted
  | .payment _ _ => True

/-- Distinct eligible attesters, under fresh ids. -/
structure Eligible (db : Database) (a : String) (arrivals : List Arrival) : Prop where
  accepted : ∀ arrival ∈ arrivals, arrival.Eligible db a
  distinct : (arrivals.map fun arrival => arrival.kind.attesterId).Nodup
  fresh : ∀ arrival ∈ arrivals, db.attestations.find? arrival.attestId = none
  named : (arrivals.map Arrival.attestId).Nodup

def System.tally (s : System) (a : String) : Tally where
  weights := s.db.weights a
  paid := s.db.hasAttested a "lightning"
  verified := s.db.statusOf a = some .verified

/-! What an attestation leaves alone: another attester's checks and weight. -/

section
variable {db next : Database} {a : String} {row : Attestation}

/-- Whatever one attester's row changed, no other attester's request can tell. -/
structure Untouched (db next : Database) (attesterId attestId : String) : Prop where
  checks : ∀ now k req, attesterId ≠ req.attesterId →
    Rest.attestChecks next now k req = Rest.attestChecks db now k req
  weight : ∀ req markCount verified, attesterId ≠ req.attesterId →
    Rest.attestWeight next req markCount verified = Rest.attestWeight db req markCount verified
  paid : ∀ k, attesterId ≠ "lightning" → next.hasAttested k "lightning" = db.hasAttested k "lightning"
  fresh : ∀ id, attestId ≠ id → next.attestations.find? id = db.attestations.find? id

theorem Untouched.refl (db : Database) (attesterId attestId : String) :
    Untouched db db attesterId attestId :=
  ⟨fun _ _ _ _ => rfl, fun _ _ _ _ => rfl, fun _ _ => rfl, fun _ _ => rfl⟩

theorem Eligible.tail {arrival : Arrival} {rest : List Arrival}
    (eligible : Eligible db a (arrival :: rest))
    (untouched : Untouched db next arrival.kind.attesterId arrival.attestId) :
    Eligible next a rest ∧ ∀ later ∈ rest, later.kind.ballot next = later.kind.ballot db := by
  have others := (List.nodup_cons.mp eligible.distinct).1
  have ids := (List.nodup_cons.mp eligible.named).1
  have apart : ∀ later ∈ rest, arrival.kind.attesterId ≠ later.kind.attesterId := fun later member same =>
    others (List.mem_map.mpr ⟨later, member, same.symm⟩)
  refine ⟨⟨?_, (List.nodup_cons.mp eligible.distinct).2, ?_, (List.nodup_cons.mp eligible.named).2⟩, ?_⟩
  · intro later member
    have accepted := eligible.accepted later (List.mem_cons_of_mem _ member)
    unfold Arrival.Eligible at accepted ⊢
    cases kind : later.kind with
    | payment => trivial
    | community req markCount verified =>
        have other : arrival.kind.attesterId ≠ req.attesterId := by
          simpa [kind, ArrivalKind.attesterId] using apart later member
        simpa only [kind, untouched.checks _ _ _ other, untouched.weight _ _ _ other] using accepted
  · intro later member
    rw [untouched.fresh later.attestId fun same => ids (same ▸ List.mem_map_of_mem member)]
    exact eligible.fresh later (List.mem_cons_of_mem _ member)
  · intro later member
    cases kind : later.kind with
    | payment => rfl
    | community req markCount verified =>
        have other : arrival.kind.attesterId ≠ req.attesterId := by
          simpa [kind, ArrivalKind.attesterId] using apart later member
        simp only [ArrivalKind.ballot, untouched.weight _ _ _ other]

end

section
variable [SqliteSum] {s : System} {a : String} {arrival : Arrival} {action : Action}

/-- A tally that counts the rows of a pending action, as far as the ballots to
come can tell. -/
structure Counts (s : System) (a : String) (t : Tally) (ballots : List Ballot) : Prop where
  weights : t.weights = s.db.weights a
  paid : Ballot.pay ∈ ballots → t.paid = s.db.hasAttested a "lightning"
  unverified : t.verified = false

/-- The database agrees with the tally about the ballot just cast. -/
structure Agrees (s next : System) (a : String) (action : Action) (arrival : Arrival) (t : Tally) :
    Prop where
  status : next.db.statusOf a = some (if t.verified then .verified else .pending)
  ledger : next.ledger = s.ledger ++ if t.verified then [.credit a action.karmaValue] else []
  actions : t.verified = false → next.db.actions = s.db.actions
  weights : t.verified = false → t.weights = next.db.weights a
  untouched : t.verified = false →
    Untouched s.db next.db arrival.kind.attesterId arrival.attestId

end

def ballots (db : Database) (arrivals : List Arrival) : List Ballot :=
  arrivals.map fun arrival => arrival.kind.ballot db

theorem pay_mem_ballots {db : Database} {arrivals : List Arrival} :
    Ballot.pay ∈ ballots db arrivals ↔
      ∃ arrival ∈ arrivals, ∃ amountSat paymentHash, arrival.kind = .payment amountSat paymentHash := by
  rw [ballots, List.mem_map]
  refine exists_congr fun arrival => and_congr_right fun _ => ?_
  cases kind : arrival.kind with
  | community req markCount verified =>
      simp only [ArrivalKind.ballot, reduceCtorEq, exists_false, iff_false]
      split <;> simp
  | payment amountSat paymentHash => simp [ArrivalKind.ballot]

/-- The tally still counts after a ballot that left the action pending. -/
theorem Agrees.counts [SqliteSum] {s next : System} {a : String} {action : Action} {arrival : Arrival}
    {rest : List Arrival} {t : Tally}
    (agrees : Agrees s next a action arrival (t.cast (arrival.kind.ballot s.db)))
    (eligible : Eligible s.db a (arrival :: rest)) (counts : Counts s a t (ballots s.db (arrival :: rest)))
    (light : (t.cast (arrival.kind.ballot s.db)).verified = false) :
    Counts next a (t.cast (arrival.kind.ballot s.db)) (ballots s.db rest) where
  weights := agrees.weights light
  unverified := light
  paid coming := by
    obtain ⟨later, member, amountSat, paymentHash, payment⟩ := pay_mem_ballots.mp coming
    have other : arrival.kind.attesterId ≠ "lightning" := by
      intro same
      refine (List.nodup_cons.mp eligible.distinct).1 (List.mem_map.mpr ⟨later, member, ?_⟩)
      rw [payment]
      exact same.symm
    rw [(agrees.untouched light).paid a other]
    have before : t.paid = s.db.hasAttested a "lightning" :=
      counts.paid (List.mem_cons_of_mem _ coming)
    rw [← before]
    cases kind : arrival.kind with
    | payment => exact absurd (by rw [kind]; rfl) other
    | community req markCount verified =>
        have vote : ∃ weight, ArrivalKind.ballot s.db (.community req markCount verified) = .vote weight := by
          simp only [ArrivalKind.ballot]
          split <;> exact ⟨_, rfl⟩
        obtain ⟨weight, vote⟩ := vote
        rw [vote, Tally.cast, counts.unverified]
        rfl

section
variable {s : System} {a : String} {arrivals other : List Arrival}

theorem Eligible.perm {db : Database} (eligible : Eligible db a arrivals) (order : other.Perm arrivals) :
    Eligible db a other where
  accepted arrival member := eligible.accepted arrival (order.mem_iff.mp member)
  distinct := (order.map _).nodup_iff.mpr eligible.distinct
  fresh arrival member := eligible.fresh arrival (order.mem_iff.mp member)
  named := (order.map _).nodup_iff.mpr eligible.named

theorem Eligible.proper {db : Database} (eligible : Eligible db a arrivals) :
    Tally.Proper (ballots db arrivals) := by
  intro weight member
  obtain ⟨arrival, arrived, vote⟩ := List.mem_map.mp member
  have accepted := eligible.accepted arrival arrived
  cases kind : arrival.kind with
  | payment => simp [kind, ArrivalKind.ballot] at vote
  | community req markCount verified =>
      simp only [Arrival.Eligible, kind] at accepted
      obtain ⟨_, granted, weighs⟩ := accepted
      simp only [kind, ArrivalKind.ballot, weighs, Ballot.vote.injEq] at vote
      exact vote ▸ Rest.attestWeight_pos weighs

variable [SqliteSum]

end

section
open Sqlite

/-- An action just posted. -/
def postedAction : System := (System.start .empty).step
  (.submitAction "act" ⟨"poster", "Poster", "agent", "BUILD", ⟨none, none, none⟩⟩ false)

end
end Argentum.Community
