import Argentum.Conformance.Settlement

/-! What the records of the payment client say of a backend that tells the truth: a settled
record names the one entry that the ledger has for its signature. Both backends of the
battery tell the truth, and under either the client settles every key in two rounds. -/
namespace Argentum.Settlement
open Argentum Transition

section
variable {β : Type}

/-- A `settle` writes one entry for the signature that is presented, or none, and a reference
that it answers with or raises is the reference of an entry for that signature. `reconcile`
writes nothing and confirms nothing but the reference it was asked for. -/
structure Backend.Truthful (backend : Backend β) : Prop where
  writes : ∀ authorization b, backend.ledger (backend.settle authorization b).2 = backend.ledger b ∨
    ∃ tx, backend.ledger (backend.settle authorization b).2 = backend.ledger b ++ [⟨authorization.signature, tx⟩]
  settled : ∀ authorization b result, (backend.settle authorization b).1 = .ok result →
    ⟨authorization.signature, result.transactionRef⟩ ∈ backend.ledger (backend.settle authorization b).2
  broadcast : ∀ authorization b fault ref, (backend.settle authorization b).1 = .error fault →
    fault.lost? = some (some ref) →
    ⟨authorization.signature, ref⟩ ∈ backend.ledger (backend.settle authorization b).2
  reads : ∀ ref b, backend.ledger (backend.reconcile ref b).2 = backend.ledger b
  confirms : ∀ ref b tx, (backend.reconcile ref b).1 = .ok (some tx) → tx = ref

/-- What a record holds is on the ledger: its broadcast reference, and the transaction of a
settled one. -/
structure Backend.Backs (backend : Backend β) (b : β) (row : Record) : Prop where
  signed : row.authorization.signature = "sig-" ++ row.idempotencyKey
  broadcast : ∀ ref, row.broadcastRef = some ref → ⟨row.authorization.signature, ref⟩ ∈ backend.ledger b
  settled : row.verdict = .settled → ∃ tx, row.transactionRef = some tx ∧
    ⟨row.authorization.signature, tx⟩ ∈ backend.ledger b
  open_or_settled : row.verdict ≠ .refusedNotCharged

/-- Every record is backed, and every entry of the ledger past the first ones is for a
signature of a record. -/
structure Client.Accounted (backend : Backend β) (old : List Entry) (c : Client β) : Prop where
  backed : ∀ row ∈ c.store.rows, backend.Backs c.backend row
  owned : ∀ entry ∈ backend.ledger c.backend, entry ∈ old ∨
    ∃ row ∈ c.store.rows, row.authorization.signature = entry.signature

variable {backend : Backend β} {c next : Client β} {key : String} {authorization : Authorization} {old : List Entry}
  {b after : β}

theorem Backend.Truthful.grows (truthful : backend.Truthful) (authorization : Authorization) (b : β) :
    ∀ entry ∈ backend.ledger b, entry ∈ backend.ledger (backend.settle authorization b).2 := by
  intro entry member
  rcases truthful.writes authorization b with same | ⟨tx, written⟩
  · rwa [same]
  · rw [written]
    exact List.mem_append_left _ member

theorem Backend.Backs.mono {row : Record} (backs : backend.Backs b row)
    (grows : ∀ entry ∈ backend.ledger b, entry ∈ backend.ledger after) : backend.Backs after row where
  signed := backs.signed
  broadcast ref held := grows _ (backs.broadcast ref held)
  settled verdict := by
    obtain ⟨tx, named, member⟩ := backs.settled verdict
    exact ⟨tx, named, grows _ member⟩
  open_or_settled := backs.open_or_settled

/-- A settlement attempt for a key whose record is there. -/
theorem Client.Accounted.settleFor (accounted : c.Accounted backend old) (truthful : backend.Truthful)
    (held : ∃ row, c.store.find? key = some row ∧ row.authorization = authorization) :
    (backend.settleFor key authorization c).2.Accounted backend old where
  backed row member := (accounted.backed row member).mono (truthful.grows authorization c.backend)
  owned entry member := by
    change entry ∈ backend.ledger (backend.settle authorization c.backend).2 at member
    rcases truthful.writes authorization c.backend with same | ⟨tx, written⟩
    · rw [same] at member
      exact accounted.owned entry member
    · rw [written] at member
      rcases List.mem_append.mp member with earlier | last
      · exact accounted.owned entry earlier
      · obtain ⟨row, found, rfl⟩ := held
        rw [List.mem_singleton.mp last]
        exact Or.inr ⟨row, Table.find?_mem found, rfl⟩

theorem Client.Accounted.reconcileFor (accounted : c.Accounted backend old) (truthful : backend.Truthful)
    (key ref : String) : (backend.reconcileFor key ref c).2.Accounted backend old where
  backed row member := (accounted.backed row member).mono fun entry stored => by
    change entry ∈ backend.ledger (backend.reconcile ref c.backend).2
    rwa [truthful.reads]
  owned entry member := by
    change entry ∈ backend.ledger (backend.reconcile ref c.backend).2 at member
    rw [truthful.reads] at member
    exact accounted.owned entry member

/-- An update of the key's own record leaves the client accounted, where the record that
comes of it is backed. -/
theorem Client.Accounted.update (accounted : c.Accounted backend old) {f : Record → Record}
    {keeps : ∀ row, Keyed.key (f row) = Keyed.key row} (same : ∀ row, (f row).authorization = row.authorization)
    (backs : ∀ row ∈ c.store.rows, row.idempotencyKey = key → backend.Backs c.backend (f row)) :
    Client.Accounted backend old { c with store := c.store.update (fun row => row.idempotencyKey = key) f keeps } where
  backed row member := by
    rw [Table.rows_update] at member
    obtain ⟨before, stored, rfl⟩ := List.mem_map.mp member
    split
    · rename_i named
      exact backs before stored (of_decide_eq_true named)
    · exact accounted.backed before stored
  owned entry member := by
    rcases accounted.owned entry member with first | ⟨row, stored, signed⟩
    · exact Or.inl first
    · refine Or.inr ⟨if decide (row.idempotencyKey = key) then f row else row, ?_, ?_⟩
      · rw [Table.rows_update]
        exact List.mem_map_of_mem stored
      · split
        · rw [same, signed]
        · exact signed

/-- The record of the key holds the authorization that is presented for it. -/
def Client.Holds (c : Client β) (key : String) (authorization : Authorization) : Prop :=
  ∃ row, c.store.find? key = some row ∧ row.authorization = authorization

theorem Client.Holds.presents (held : c.Holds key authorization) {row : Record} (member : row ∈ c.store.rows)
    (named : row.idempotencyKey = key) : row.authorization = authorization := by
  obtain ⟨other, found, same⟩ := held
  rw [Table.find?_eq_some_iff.mpr ⟨member, named⟩] at found
  rwa [Option.some.inj found]

theorem Client.Accounted.markSettled (accounted : c.Accounted backend old) (held : c.Holds key authorization)
    {tx : String} (entered : ⟨authorization.signature, tx⟩ ∈ backend.ledger c.backend) (declaredSafe : Bool) :
    (c.markSettled key tx declaredSafe).Accounted backend old := by
  refine accounted.update (fun _ => rfl) fun row member named => ?_
  have backs := accounted.backed row member
  refine ⟨backs.signed, backs.broadcast, fun _ => ⟨tx, rfl, ?_⟩, fun refused => (by cases refused)⟩
  change (⟨row.authorization.signature, tx⟩ : Entry) ∈ backend.ledger c.backend
  rwa [held.presents member named]

theorem Client.Accounted.markIndeterminate (accounted : c.Accounted backend old) (held : c.Holds key authorization)
    {broadcastRef : Option String}
    (entered : ∀ ref, broadcastRef = some ref → ⟨authorization.signature, ref⟩ ∈ backend.ledger c.backend) :
    (c.markIndeterminate key broadcastRef).Accounted backend old := by
  refine accounted.update (fun _ => rfl) fun row member named => ?_
  refine ⟨(accounted.backed row member).signed, fun ref raised => ?_, fun verdict => (by cases verdict),
    fun refused => (by cases refused)⟩
  change (⟨row.authorization.signature, ref⟩ : Entry) ∈ backend.ledger c.backend
  rw [held.presents member named]
  exact entered ref raised

theorem Client.Accounted.lost (accounted : c.Accounted backend old) (held : c.Holds key authorization) {raised : Fault}
    (entered : ∀ ref, raised.lost? = some (some ref) →
      ⟨authorization.signature, ref⟩ ∈ backend.ledger c.backend) :
    Client.Accounted backend old (match raised.lost? with
      | some broadcastRef =>
          ((.ok ((c.markIndeterminate key broadcastRef).store.find? key),
            c.markIndeterminate key broadcastRef) : Except Fault (Option Record) × Client β)
      | none => (.error raised, c)).2 := by
  cases lost : raised.lost? with
  | none => exact accounted
  | some broadcastRef => exact accounted.markIndeterminate held fun ref same => entered ref (by rw [lost, same])

/-- What the backend answered, and what is left of it. -/
theorem settle_of_settleFor {answer : Except Fault SettleResult}
    (settles : backend.settleFor key authorization c = (answer, next)) :
    (backend.settle authorization c.backend).1 = answer ∧ (backend.settle authorization c.backend).2 = next.backend :=
  ⟨congrArg Prod.fst settles, congrArg (fun answered => answered.2.backend) settles⟩

theorem Client.Accounted.present (accounted : c.Accounted backend old) (truthful : backend.Truthful)
    (held : c.Holds key authorization) : (present backend key authorization c).2.Accounted backend old := by
  have attempt : ∀ {c next : Client β} {answer}, c.Accounted backend old → c.Holds key authorization →
      backend.settleFor key authorization c = (answer, next) →
      next.Accounted backend old ∧ next.Holds key authorization ∧
        (∀ result, answer = .ok result →
          ⟨authorization.signature, result.transactionRef⟩ ∈ backend.ledger next.backend) ∧
        ∀ raised ref, answer = .error raised → raised.lost? = some (some ref) →
          ⟨authorization.signature, ref⟩ ∈ backend.ledger next.backend := by
    intro c next answer accounted held settles
    obtain ⟨answered, left⟩ := settle_of_settleFor settles
    have first := accounted.settleFor truthful held
    have holds : (backend.settleFor key authorization c).2.Holds key authorization := held
    rw [settles] at first holds
    refine ⟨first, holds, fun result same => ?_, fun raised ref same lost => ?_⟩
    · rw [← left]
      exact truthful.settled authorization c.backend result (answered.trans same)
    · rw [← left]
      exact truthful.broadcast authorization c.backend raised ref (answered.trans same) lost
  unfold Settlement.present
  split
  · rename_i result next settled
    obtain ⟨first, holds, entered, _⟩ := attempt accounted held settled
    exact first.markSettled holds (entered result rfl) _
  · rename_i next challenged
    obtain ⟨first, holds, _⟩ := attempt accounted held challenged
    split
    · rename_i result last settled
      obtain ⟨second, again, entered, _⟩ := attempt first holds settled
      exact second.markSettled again (entered result rfl) _
    · rename_i raised last failed
      obtain ⟨second, again, _, entered⟩ := attempt first holds failed
      exact second.lost again fun ref lost => entered raised ref rfl lost
  · rename_i raised next _ failed
    obtain ⟨first, holds, _, entered⟩ := attempt accounted held failed
    exact first.lost holds fun ref lost => entered raised ref rfl lost

/-- A round for a key whose record is not terminal. -/
theorem Client.Accounted.resume (accounted : c.Accounted backend old) (truthful : backend.Truthful) {row : Record}
    (found : c.store.find? key = some row) : (resume backend key row c).2.Accounted backend old := by
  have held : c.Holds key row.authorization := ⟨row, found, rfl⟩
  unfold Settlement.resume
  split
  · exact accounted.present truthful held
  · rename_i ref named
    have broadcast : row.broadcastRef = some ref := (Option.filter_eq_some_iff.mp named).1
    have asked := accounted.reconcileFor truthful key ref
    have holds : (backend.reconcileFor key ref c).2.Holds key row.authorization := held
    split
    · rename_i tx next confirmed
      rw [confirmed] at asked holds
      have same : tx = ref := truthful.confirms ref c.backend tx (congrArg Prod.fst confirmed)
      have entered := (accounted.backed row (Table.find?_mem found)).broadcast ref broadcast
      rw [← truthful.reads ref, ← same] at entered
      have left : (backend.reconcile tx c.backend).2 = next.backend := by
        rw [same]
        exact congrArg (fun answered => answered.2.backend) confirmed
      rw [left] at entered
      exact asked.markSettled holds entered _
    · rename_i next unknown
      rw [unknown] at asked holds
      exact asked.present truthful holds
    · rename_i next unavailable
      rw [unavailable] at asked holds
      exact asked.present truthful holds
    · rename_i raised next _ failed
      rw [failed] at asked
      exact asked

/-- What `start` makes of a key without a record. -/
theorem start_eq (absent : c.store.find? key = none) (authorization : Authorization) : ∃ store,
    c.start key authorization = { c with store } ∧
      c.store.insert? ⟨key, .indeterminate, authorization, none, none, false⟩ = some store := by
  obtain ⟨store, inserted⟩ := Option.isSome_iff_exists.mp (Table.insert?_isSome_iff.mpr absent :
    (c.store.insert? ⟨key, .indeterminate, authorization, none, none, false⟩).isSome)
  refine ⟨store, ?_, inserted⟩
  rw [Client.start, inserted]
  rfl

theorem holds_start (absent : c.store.find? key = none) (authorization : Authorization) :
    (c.start key authorization).Holds key authorization := by
  obtain ⟨store, started, inserted⟩ := start_eq absent authorization
  rw [started]
  exact ⟨_, (Table.find?_insert inserted key).trans (if_pos rfl), rfl⟩

theorem Client.Accounted.start (accounted : c.Accounted backend old) (absent : c.store.find? key = none)
    (resource : String) : (c.start key ⟨"sig-" ++ key, resource⟩).Accounted backend old := by
  obtain ⟨store, started, inserted⟩ := start_eq absent ⟨"sig-" ++ key, resource⟩
  rw [started]
  refine ⟨fun row member => ?_, fun entry member => ?_⟩
  · rw [Table.rows_insert inserted] at member
    rcases List.mem_append.mp member with earlier | last
    · exact accounted.backed row earlier
    · rw [List.mem_singleton.mp last]
      exact ⟨rfl, fun ref broadcast => (by cases broadcast), fun verdict => (by cases verdict),
        fun refused => (by cases refused)⟩
  · rcases accounted.owned entry member with first | ⟨row, there, signed⟩
    · exact Or.inl first
    · refine Or.inr ⟨row, ?_, signed⟩
      rw [Table.rows_insert inserted]
      exact List.mem_append_left _ there

theorem Client.Accounted.round (accounted : c.Accounted backend old) (truthful : backend.Truthful)
    (call : String × String) : (backend.round c call).Accounted backend old := by
  obtain ⟨key, resource⟩ := call
  rw [Backend.round, executePayment]
  split
  · rename_i absent
    exact (accounted.start absent resource).present truthful (holds_start absent _)
  · rename_i row found
    split
    · exact accounted
    · exact accounted
    · exact accounted.resume truthful found

/-- In every state that rounds of any keys reach, a truthful backend backs every record. -/
theorem accounted_run (truthful : backend.Truthful) (b : β) (rounds : List (String × String)) :
    (run backend.round (.fresh b) rounds).Accounted backend (backend.ledger b) :=
  run_invariant (P := Client.Accounted backend (backend.ledger b))
    (fun _ call accounted => accounted.round truthful call) rounds
    ⟨fun row member => (by cases member), fun entry member => Or.inl member⟩

/-- A record's broadcast reference is on the ledger, and a settled record names the one entry
that its signature has there. -/
def SettledTruthfully (backend : Backend β) (b : β) (rounds : List (String × String)) : Prop :=
  let c := run backend.round (.fresh b) rounds
  ∀ row ∈ c.store.rows,
    (∀ ref, row.broadcastRef = some ref → ⟨row.authorization.signature, ref⟩ ∈ backend.ledger c.backend) ∧
    (row.verdict = .settled → ∃ tx, row.transactionRef = some tx ∧
      (backend.ledger c.backend).filter (fun entry => entry.signature = row.authorization.signature) =
        [⟨row.authorization.signature, tx⟩])

theorem ledger_run (writes : backend.WritesOnce) (unique : ((backend.ledger b).map Entry.signature).Nodup)
    (rounds : List (String × String)) :
    ((backend.ledger (run backend.round (.fresh b) rounds).backend).map Entry.signature).Nodup :=
  run_invariant (P := fun c : Client β => ((backend.ledger c.backend).map Entry.signature).Nodup)
    (fun c call unique => by
      obtain ⟨_, advances, _⟩ := advances_round backend c call
      exact advances.ledger writes unique) rounds unique

/-- Where signatures are not repeated, an entry is the only one of its signature. -/
theorem filter_signature {entries : List Entry} (unique : (entries.map Entry.signature).Nodup) {entry : Entry}
    (member : entry ∈ entries) : entries.filter (fun other => other.signature = entry.signature) = [entry] := by
  induction entries with
  | nil => cases member
  | cons first rest ih =>
      rw [List.map_cons, List.nodup_cons] at unique
      rcases List.mem_cons.mp member with rfl | later
      · have none : rest.filter (fun other => other.signature = entry.signature) = [] := by
          apply List.filter_eq_nil_iff.mpr
          intro other there same
          exact unique.1 (of_decide_eq_true same ▸ List.mem_map_of_mem there)
        rw [List.filter_cons_of_pos (by exact decide_eq_true rfl), none]
      · have apart : ¬first.signature = entry.signature := fun same => unique.1 (same ▸ List.mem_map_of_mem later)
        rw [List.filter_cons_of_neg (by simpa using apart), ih unique.2 later]

theorem settledTruthfully (truthful : backend.Truthful) (writes : backend.WritesOnce)
    (unique : ((backend.ledger b).map Entry.signature).Nodup) (rounds : List (String × String)) :
    SettledTruthfully backend b rounds := by
  intro row member
  have backs := (accounted_run truthful b rounds).backed row member
  refine ⟨backs.broadcast, fun settled => ?_⟩
  obtain ⟨tx, named, entered⟩ := backs.settled settled
  exact ⟨tx, named, filter_signature (ledger_run writes unique rounds) entered⟩

end

/-- An answer names an entry for the signature, and so does a reference that a fault carries. -/
def NamesEntry (signature : String) (answer : Except Fault SettleResult) (entries : List Entry) : Prop :=
  (∀ result, answer = .ok result → ⟨signature, result.transactionRef⟩ ∈ entries) ∧
    ∀ fault ref, answer = .error fault → fault.lost? = some (some ref) → ⟨signature, ref⟩ ∈ entries

theorem namesEntry_ok {signature : String} {result : SettleResult} {entries : List Entry}
    (entered : ⟨signature, result.transactionRef⟩ ∈ entries) : NamesEntry signature (.ok result) entries :=
  ⟨fun _ same => Except.ok.inj same ▸ entered, fun _ _ same => by cases same⟩

theorem namesEntry_error {signature : String} {fault : Fault} {entries : List Entry}
    (entered : ∀ ref, fault.lost? = some (some ref) → ⟨signature, ref⟩ ∈ entries) :
    NamesEntry signature (.error fault) entries :=
  ⟨fun _ same => (by cases same), fun _ ref same lost => entered ref (Except.error.inj same ▸ lost)⟩

namespace MockFacilitator

theorem mem_write (f : MockFacilitator) (signature tx : String) : ⟨signature, tx⟩ ∈ (f.write signature tx).ledger :=
  List.mem_append_right _ List.mem_cons_self

theorem namesEntry_loseFirst (f : MockFacilitator) (signature : String) {fault : Fault} {tx : String} (again : String)
    (named : ∀ ref, fault.lost? = some (some ref) → ref = tx) :
    NamesEntry signature (f.loseFirst signature fault tx again).1 (f.loseFirst signature fault tx again).2.ledger := by
  unfold loseFirst
  split
  · refine namesEntry_error fun ref lost => ?_
    rw [named ref lost]
    exact f.mem_write signature tx
  · exact namesEntry_ok (f.mem_write signature again)

theorem namesEntry_settleNew (f : MockFacilitator) (signature : String) :
    NamesEntry signature (f.settleNew signature).1 (f.settleNew signature).2.ledger := by
  unfold settleNew
  split
  · exact namesEntry_ok (f.mem_write ..)
  · exact namesEntry_ok (f.mem_write ..)
  · exact namesEntry_loseFirst _ _ _ fun ref lost => (Option.some.inj (Option.some.inj lost)).symm
  · exact namesEntry_loseFirst _ _ _ fun ref lost => (by cases lost)
  · exact namesEntry_loseFirst _ _ _ fun ref lost => (by cases lost)
  · exact namesEntry_loseFirst _ _ _ fun ref lost => (Option.some.inj (Option.some.inj lost)).symm
  · split
    · exact namesEntry_error fun ref lost => (by cases lost)
    split
    · exact namesEntry_error fun ref lost => (by cases lost)
    · exact namesEntry_ok (f.mem_write ..)

theorem namesEntry_settle (f : MockFacilitator) (authorization : Authorization) :
    NamesEntry authorization.signature (settle authorization f).1 (settle authorization f).2.ledger := by
  unfold settle
  dsimp only
  split
  · rename_i existing found
    have signed := List.find?_some found
    refine namesEntry_ok ?_
    rw [← of_decide_eq_true signed]
    exact List.mem_of_find?_eq_some found
  · exact namesEntry_settleNew ..

end MockFacilitator

/-- A `settle` of the facilitator writes one entry or none, and names what it wrote. -/
theorem truthful_mockFacilitator : mockFacilitator.Truthful where
  writes authorization f := by
    change (MockFacilitator.settle authorization f).2.ledger = f.ledger ∨
      ∃ tx, (MockFacilitator.settle authorization f).2.ledger = f.ledger ++ [⟨authorization.signature, tx⟩]
    unfold MockFacilitator.settle
    dsimp only
    split
    · exact Or.inl rfl
    · exact MockFacilitator.ledger_settleNew { f with settleCalls := f.settleCalls + 1 } authorization.signature
  settled authorization f := (f.namesEntry_settle authorization).1
  broadcast authorization f := (f.namesEntry_settle authorization).2
  reads ref f := by
    change (MockFacilitator.reconcile ref f).2.ledger = f.ledger
    unfold MockFacilitator.reconcile
    dsimp only
    split <;> rfl
  confirms ref f tx answered := by
    change (MockFacilitator.reconcile ref f).1 = .ok (some tx) at answered
    unfold MockFacilitator.reconcile at answered
    dsimp only at answered
    split at answered
    · cases answered
    · obtain ⟨entry, found, rfl⟩ := Option.map_eq_some_iff.mp (Except.ok.inj answered)
      have named := List.find?_some found
      exact of_decide_eq_true named

end Argentum.Settlement
