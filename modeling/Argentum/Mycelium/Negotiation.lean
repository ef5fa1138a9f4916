import Argentum.Mycelium.Chain
import Argentum.Mycelium.Lightning

/-! The negotiation of a trail. A row has a status of how its reference was obtained, or why
there is none; a row is inserted by `record_trail` alone, and no other statement writes the
two columns. What a script inserts is consistent where its caller hands a consistent pair
over. -/
namespace Argentum.Mycelium
open Argentum Text Transition

/-- A row whose negotiation has a status: one of the vocabulary, and `ok` exactly where there
is a reference, which is not the empty text. -/
def TrailRow.Consistent (row : TrailRow) : Prop :=
  ∀ status, row.negotiationRefStatus = some status →
    status ∈ negotiationRefStatuses ∧ (status = "ok" ↔ row.negotiationRef.isSome) ∧
      row.negotiationRef ≠ some (.text "")

/-- What a row keeps of the negotiation. -/
theorem row_negotiation {trail : NewTrail} {trailId : String} {now : Seconds} {row : TrailRow}
    (made : trail.row trailId now = .ok row) :
    bindText trail.negotiationRef = .ok row.negotiationRef ∧ row.negotiationRefStatus = trail.negotiationRefStatus := by
  obtain ⟨_, _, made⟩ := bind_ok made
  obtain ⟨service, _, made⟩ := bind_ok made
  obtain ⟨_, _, made⟩ := bind_ok made
  obtain ⟨_, _, made⟩ := bind_ok made
  obtain ⟨_, _, made⟩ := bind_ok made
  obtain ⟨_, _, made⟩ := bind_ok made
  obtain ⟨_, _, made⟩ := bind_ok made
  obtain ⟨negotiationRef, bound, made⟩ := bind_ok made
  cases service with
  | none => cases made
  | some service =>
      cases made
      exact ⟨bound, rfl⟩

/-- A value that a TEXT column does not keep as NULL. -/
def isStored : Json → Bool
  | .null => false
  | .float .nan => false
  | _ => true

theorem isSome_bindText {value : Json} {cell : Option Cell} (bound : bindText value = .ok cell) :
    cell.isSome = isStored value := by
  cases value with
  | null | bool =>
      cases bound
      rfl
  | int n =>
      rw [bindText] at bound
      split at bound
      · cases bound
        rfl
      · cases bound
  | float x => cases x <;> cases bound <;> rfl
  | str s =>
      rw [bindText] at bound
      cases shown : bindStr s with
      | error raised =>
          rw [shown] at bound
          cases bound
      | ok text =>
          rw [shown] at bound
          cases bound
          rfl
  | list | dict => cases bound

theorem isNull_iff_isStored {value : Json} (number : value ≠ .float .nan) :
    value.isNull = false ↔ isStored value = true := by
  cases value with
  | float x =>
      cases x with
      | nan => contradiction
      | _ => simp [Json.isNull, isStored]
  | _ => simp [Json.isNull, isStored]

/-- Only an empty text is kept as one. -/
theorem eq_empty_of_bindText {value : Json} (bound : bindText value = .ok (some (.text ""))) : value = .str [] := by
  cases value with
  | null | list | dict => cases bound
  | bool b => cases b <;> exact absurd bound (by simp [bindText])
  | int n =>
      rw [bindText] at bound
      split at bound
      · injection bound with same
        injection same with same
        injection same with shown
        cases n with
        | ofNat n => exact absurd shown Nat.repr_ne_empty
        | negSucc n =>
            have front := congrArg String.toList shown
            simp [toString, Int.repr] at front
      · cases bound
  | float x => cases x <;> cases bound
  | str s =>
      rw [bindText] at bound
      cases shown : bindStr s with
      | error raised =>
          rw [shown] at bound
          cases bound
      | ok text =>
          rw [shown] at bound
          injection bound with same
          injection same with same
          injection same with same
          have kept := ofString_of_bindStr shown
          rw [same] at kept
          rw [← kept]
          rfl

/-- The rows that are inserted into `trails` are such rows. -/
def Inserts (P : TrailRow → Prop) {β : Type} : Sql β → Prop
  | .insertTrail row => P row
  | _ => True

def World.Consistent (w : World) : Prop := ∀ row ∈ w.trails.rows, row.Consistent

theorem consistent_update {w : World} {trailId : String} {f : TrailRow → TrailRow}
    {keeps : ∀ row, Keyed.key (f row) = Keyed.key row} (consistent : w.Consistent)
    (same : ∀ row, (f row).negotiationRef = row.negotiationRef ∧
      (f row).negotiationRefStatus = row.negotiationRefStatus) :
    (w.updateTrail trailId f keeps).Consistent := by
  intro row member
  rw [World.updateTrail, Table.rows_update] at member
  obtain ⟨before, stored, rfl⟩ := List.mem_map.mp member
  split
  · intro status held
    rw [(same before).2] at held
    rw [(same before).1]
    exact consistent before stored status held
  · exact consistent before stored

theorem consistent_exec {β : Type} (op : Sql β) (w : World) (inserts : Inserts TrailRow.Consistent op)
    (consistent : w.Consistent) : (exec op w).2.Consistent := by
  cases op with
  | insertTrail row =>
      simp only [exec]
      cases inserted : w.trails.insert? row with
      | none => exact consistent
      | some trails =>
          intro other member
          change other ∈ trails.rows at member
          rw [Table.rows_insert inserted] at member
          rcases List.mem_append.mp member with earlier | last
          · exact consistent other earlier
          · rw [List.mem_singleton.mp last]
            exact inserts
  | setActionRef | setPreimage | setTxHash | confirmAnchor | failAnchor =>
      exact consistent_update consistent fun _ => ⟨rfl, rfl⟩
  | insertIntent row =>
      simp only [exec]
      cases w.intents.insert? row <;> exact consistent
  | rekey newApiKey oldApiKey now =>
      simp only [exec]
      cases w.accounts.rekey? (fun row => row.apiKey = oldApiKey) fun row : Account =>
        { row with apiKey := newApiKey, updatedAt := now } <;> exact consistent
  | _ => exact consistent

/-- What a caller of `record_trail` hands over: `ok` with a reference that is stored, or
another status without one. -/
def NewTrail.Consistent (trail : NewTrail) : Prop :=
  ∀ status, trail.negotiationRefStatus = some status →
    (status = "ok" ↔ isStored trail.negotiationRef = true) ∧ trail.negotiationRef ≠ .str []

/-- A trail whose caller says nothing of a negotiation. -/
theorem consistent_of_unstated {trail : NewTrail} (unstated : trail.negotiationRefStatus = none) : trail.Consistent :=
  fun _ held => absurd (unstated.symm.trans held) (Option.some_ne_none _).symm

/-- The row of a consistent trail that `record_trail` takes. -/
theorem consistent_row {trail : NewTrail} {trailId : String} {now : Seconds} {row : TrailRow}
    (consistent : trail.Consistent) (valid : trail.invalid = false) (made : trail.row trailId now = .ok row) :
    row.Consistent := by
  obtain ⟨bound, same⟩ := row_negotiation made
  intro status held
  rw [same] at held
  obtain ⟨pair, full⟩ := consistent status held
  refine ⟨?_, ?_, fun empty => full ?_⟩
  · by_contra unlisted
    have refused : trail.invalid = true := by simp [NewTrail.invalid, held, unlisted]
    exact absurd (refused.symm.trans valid) (by decide)
  · rw [isSome_bindText bound]
    exact pair
  · rw [empty] at bound
    exact eq_empty_of_bindText bound

section
variable {P : TrailRow → Prop} {settings : Settings} {trailId : String} {now : Seconds}

theorem inserts_recordTrail {trail : NewTrail}
    (rows : trail.invalid = false → ∀ row, trail.row trailId now = .ok row → P row) :
    Script.Uses (Inserts P) (recordTrail settings trailId trail now) :=
  uses_recordTrailAt (fun _ => trivial) (fun _ => trivial) rows

theorem inserts_afterRecord (receipt : Receipt) :
    Script.Uses (Inserts P) (afterRecord settings trailId receipt now) := by
  refine Script.Uses.bind (Script.uses_sql trivial) fun _ => ?_
  refine Script.Uses.bind ?_ fun _ => Script.Uses.bind ?_ fun _ => ?_
  · exact Script.Uses.bind (Script.uses_bound _) fun _ => Script.uses_sql trivial
  · unfold billTrail
    split
    · exact Script.uses_pure _
    refine Script.Uses.bind (Script.uses_bound _) fun key => ?_
    refine Script.Uses.bind (Script.uses_sql trivial) fun found => ?_
    split
    · exact Script.uses_pure _
    split
    · exact Script.uses_sql trivial
    · exact Script.uses_pure _
  · split
    · exact Script.Uses.bind (Script.uses_sql trivial) fun _ => Script.uses_pure _
    · exact Script.uses_pure _

theorem inserts_afterRefusal (charged : Option Account) (receipt : Receipt) :
    Script.Uses (Inserts P) (afterRefusal settings charged receipt now) := by
  have counted : Script.Uses (Inserts P) (do
      let usedMonth ← countTrailsThisMonth settings receipt.agentId now
      if monthlyLimitFree ≤ usedMonth then return .error ⟨429, "monthly_limit_exceeded"⟩
      else return .error ⟨429, "rate limit exceeded"⟩ : Script (Except Refusal Created)) := by
    refine Script.Uses.bind (Script.uses_sql trivial) fun usedMonth => ?_
    split <;> exact Script.uses_pure _
  cases charged with
  | none => exact counted
  | some account =>
      exact Script.Uses.bind (show Script.Uses _ _ from ⟨trivial, fun _ => ⟨trivial, fun _ => trivial⟩⟩)
        fun _ => counted

/-- `POST /nexus/trail` inserts the row of its receipt and no other. -/
theorem inserts_nexusTrail {body : Json}
    (rows : ∀ receipt consumed row, readReceipt body = .ok (.ok receipt) →
      (receipt.trail settings consumed).invalid = false →
      (receipt.trail settings consumed).row trailId now = .ok row → P row) :
    Script.Uses (Inserts P) (nexusTrail settings trailId body now) := by
  apply Script.uses_bound_bind
  rintro (refusal | receipt) read
  · exact Script.uses_pure _
  refine Script.Uses.bind ?_ fun charged => ?_
  · apply Script.Uses.bind (Script.uses_sql trivial)
    rintro (_ | account)
    · exact Script.uses_pure _
    · exact Script.Uses.bind (Script.uses_sql trivial) fun _ => Script.uses_pure _
  · apply Script.Uses.bind (inserts_recordTrail fun valid row => rows receipt _ row read valid)
    rintro (_ | recorded)
    · exact inserts_afterRefusal charged receipt
    · exact inserts_afterRecord receipt

end

/-- The reference that a body carries is not the NaN of `json.loads`, which SQLite keeps as NULL. -/
def KeepsReference (body : Json) : Prop := body.getD (ofString "negotiation_ref") .null ≠ .float .nan

theorem checkNegotiation_ok {reference given : Json} {status : String}
    (checked : checkNegotiation reference given = .ok (.ok (some status))) :
    status = "ok" ↔ reference.isNull = false := by
  unfold checkNegotiation at checked
  split at checked
  · cases checked
  obtain ⟨found, _, checked⟩ := bind_ok checked
  cases found with
  | none => cases checked
  | some member =>
      dsimp only at checked
      split at checked
      · cases checked
      rename_i coherent
      cases checked
      cases null : reference.isNull <;> simpa [null] using coherent

/-- A receipt that was read says `ok` where it has a reference. -/
theorem consistent_receipt {body : Json} {receipt : Receipt} {settings : Settings} {consumed : Bool}
    (keeps : KeepsReference body) (read : readReceipt body = .ok (.ok receipt)) :
    (receipt.trail settings consumed).Consistent := by
  have checks : receipt.negotiationRef = (body.getD (ofString "negotiation_ref") .null).or .null ∧
      ∃ given, checkNegotiation receipt.negotiationRef given = .ok (.ok receipt.negotiationRefStatus) := by
    unfold readReceipt at read
    split at read
    · cases read
    obtain ⟨key, _, read⟩ := bind_ok read
    split at read
    · cases read
    dsimp only at read
    split at read
    · cases read
    obtain ⟨admitted, _, read⟩ := bind_ok read
    split at read
    · cases read
    split at read
    · obtain ⟨expected, _, read⟩ := bind_ok read
      split at read
      · cases read
      obtain ⟨negotiated, checked, read⟩ := bind_ok read
      split at read
      · cases read
      obtain ⟨actionRef, _, read⟩ := bind_ok read
      obtain ⟨agentId, _, read⟩ := bind_ok read
      cases read
      exact ⟨rfl, _, checked⟩
    · cases read
  obtain ⟨reference, given, checked⟩ := checks
  intro status held
  change receipt.negotiationRefStatus = some status at held
  change (status = "ok" ↔ isStored receipt.negotiationRef = true) ∧ receipt.negotiationRef ≠ .str []
  rw [held] at checked
  rw [checkNegotiation_ok checked, reference]
  unfold KeepsReference at keeps
  generalize body.getD (ofString "negotiation_ref") .null = value at keeps
  rw [Json.or]
  split
  · rename_i truthy
    exact ⟨isNull_iff_isStored keeps, fun empty => absurd truthy (by rw [empty]; decide)⟩
  · exact ⟨by simp [Json.isNull, isStored], nofun⟩

/-- `POST /external/trail` says nothing of a negotiation. -/
theorem inserts_externalTrail {lower : String → String} {settings : Settings} {call : ExternalCall} :
    Script.Uses (Inserts TrailRow.Consistent) (externalTrail lower settings call) := by
  apply Script.Uses.bind (Script.uses_bound _)
  rintro (refusal | request)
  · exact Script.uses_pure _
  refine Script.Uses.bind (Script.uses_bound _) fun key => ?_
  apply Script.Uses.bind (Script.uses_sql trivial)
  rintro (_ | account)
  · exact Script.uses_pure _
  apply Script.Uses.bind (Script.uses_sql trivial)
  rintro (_ | _)
  · refine Script.Uses.bind (Script.uses_sql trivial) fun _ => ?_
    have unstated : (request.trail settings account (conformanceSource lower account)).Consistent :=
      consistent_of_unstated rfl
    apply Script.Uses.bind (inserts_recordTrail fun valid row made => consistent_row unstated valid made)
    rintro (_ | trailId)
    · exact Script.Uses.bind (Script.uses_sql trivial) fun _ => Script.uses_pure _
    · refine Script.Uses.bind (Script.uses_sql trivial) fun _ => ?_
      exact Script.Uses.bind (Script.uses_sql trivial) fun _ => Script.uses_pure _
  · exact Script.uses_pure _

/-- What `verify_chain` reports of the negotiation of a trail hangs together: a status is one
of the vocabulary, and the reference is present with `ok` and absent with any other. -/
def World.NegotiationsCoherent (w : World) : Prop :=
  ∀ printFloat fuel trailId result status, (∀ x, printFloat x ≠ "") →
    verifyChain printFloat fuel w.trails trailId = some result → result.negotiationRefStatus = some status →
    status ∈ negotiationRefStatuses ∧ result.negotiationLinkage = some (if status = "ok" then .present else .absent)

theorem coherent_of_consistent {w : World} (consistent : w.Consistent) : w.NegotiationsCoherent := by
  intro printFloat fuel trailId result status printed verified held
  obtain ⟨broken, _, same⟩ := Option.bind_eq_some_iff.mp verified
  obtain rfl := Option.some.inj same
  dsimp only at held ⊢
  cases found : getTrailById w.trails trailId with
  | none =>
      rw [found] at held
      cases held
  | some row =>
      rw [found] at held
      obtain ⟨listed, paired, full⟩ := consistent row (Table.find?_eq_some_iff.mp found).1 status held
      refine ⟨listed, ?_⟩
      cases stored : row.negotiationRef with
      | none =>
          rw [stored] at paired
          rw [if_neg (by simpa using paired)]
          simp [negotiationLinkage, stored]
      | some cell =>
          rw [stored] at paired full
          rw [if_pos (by simpa using paired)]
          have shown : cell.read printFloat ≠ "" := by
            cases cell with
            | real x => exact printed x
            | text text =>
                rintro rfl
                exact full rfl
          simp [negotiationLinkage, stored, shown]

end Argentum.Mycelium
