import Argentum.Core.Table
import Argentum.Core.Transition

/-! A payment client that retries. It presents one signed authorization for each key
until the record of the key is settled, and then nothing. The backend may answer, fail
and write its ledger as it likes, as long as no signature is written twice. -/
namespace Argentum.Settlement
open Argentum Transition

inductive Verdict where
  | settled | refusedNotCharged | indeterminate
  deriving DecidableEq, Repr

structure Authorization where
  signature : String
  resource : String
  deriving DecidableEq, Repr

structure Record where
  idempotencyKey : String
  verdict : Verdict
  authorization : Authorization
  broadcastRef : Option String
  transactionRef : Option String
  declaredSafe : Bool
  deriving DecidableEq, Repr

instance : Keyed Record String := ⟨Record.idempotencyKey⟩

/-- `TimeoutError_`, `ServerError`, `Challenge402` and `ReconcileUnavailable`. -/
inductive Fault where
  | timeout (broadcastRef : Option String)
  | serverError (broadcastRef : Option String)
  | challenge402
  | reconcileUnavailable
  deriving DecidableEq, Repr

/-- `except (TimeoutError_, ServerError) as e`, and what `e` says of the broadcast. -/
def Fault.lost? : Fault → Option (Option String)
  | .timeout broadcastRef => some broadcastRef
  | .serverError broadcastRef => some broadcastRef
  | _ => none

structure SettleResult where
  transactionRef : String
  declaredSafe : Bool
  deriving DecidableEq, Repr

structure Entry where
  signature : String
  tx : String
  deriving DecidableEq, Repr

/-- The destination. `reconcile` answers with a reference where its verdict is settled. -/
structure Backend (β : Type) where
  settle : Authorization → β → Except Fault SettleResult × β
  reconcile : String → β → Except Fault (Option String) × β
  ledger : β → List Entry

inductive BackendCall where
  | settle (authorization : Authorization)
  | reconcile (broadcastRef : String)
  deriving DecidableEq, Repr

/-- The `PendingSettlementStore`, the backend, and the calls that were made to it, each
with the key it was made for. -/
structure Client (β : Type) where
  store : Table Record
  backend : β
  calls : List (String × BackendCall)

namespace Client
variable {β : Type}

def start (c : Client β) (idempotencyKey : String) (authorization : Authorization) : Client β :=
  { c with store := (c.store.insert? { idempotencyKey, verdict := .indeterminate, authorization
                                       broadcastRef := none, transactionRef := none
                                       declaredSafe := false }).getD c.store }

def markIndeterminate (c : Client β) (idempotencyKey : String) (broadcastRef : Option String) : Client β :=
  { c with store := c.store.update (fun row => row.idempotencyKey = idempotencyKey)
             (fun row => { row with verdict := .indeterminate, broadcastRef }) fun _ => rfl }

def markSettled (c : Client β) (idempotencyKey transactionRef : String) (declaredSafe : Bool) : Client β :=
  { c with store := c.store.update (fun row => row.idempotencyKey = idempotencyKey)
             (fun row => { row with verdict := .settled, transactionRef := some transactionRef, declaredSafe })
             fun _ => rfl }

end Client

section
variable {β : Type}

def Backend.settleFor (backend : Backend β) (key : String) (authorization : Authorization) (c : Client β) :
    Except Fault SettleResult × Client β :=
  ((backend.settle authorization c.backend).1,
    { c with backend := (backend.settle authorization c.backend).2
             calls := c.calls ++ [(key, .settle authorization)] })

def Backend.reconcileFor (backend : Backend β) (key broadcastRef : String) (c : Client β) :
    Except Fault (Option String) × Client β :=
  ((backend.reconcile broadcastRef c.backend).1,
    { c with backend := (backend.reconcile broadcastRef c.backend).2
             calls := c.calls ++ [(key, .reconcile broadcastRef)] })

/-- The `settle` attempt of a round, and a second one where the first is challenged: the
same authorization is presented again. -/
def present (backend : Backend β) (key : String) (authorization : Authorization) (c : Client β) :
    Except Fault (Option Record) × Client β :=
  match backend.settleFor key authorization c with
  | (.ok result, c) =>
      let c := c.markSettled key result.transactionRef result.declaredSafe
      (.ok (c.store.find? key), c)
  | (.error .challenge402, c) =>
      match backend.settleFor key authorization c with
      | (.ok result, c) =>
          let c := c.markSettled key result.transactionRef result.declaredSafe
          (.ok (c.store.find? key), c)
      | (.error raised, c) =>
          match raised.lost? with
          | some broadcastRef =>
              let c := c.markIndeterminate key broadcastRef
              (.ok (c.store.find? key), c)
          | none => (.error raised, c)
  | (.error raised, c) =>
      match raised.lost? with
      | some broadcastRef =>
          let c := c.markIndeterminate key broadcastRef
          (.ok (c.store.find? key), c)
      | none => (.error raised, c)

/-- A round for a key whose record is not terminal: it is reconciled first, where a
broadcast reference is held. -/
def resume (backend : Backend β) (key : String) (row : Record) (c : Client β) :
    Except Fault (Option Record) × Client β :=
  match row.broadcastRef.filter (· ≠ "") with
  | none => present backend key row.authorization c
  | some broadcastRef =>
      match backend.reconcileFor key broadcastRef c with
      | (.ok (some transactionRef), c) =>
          let c := c.markSettled key transactionRef false
          (.ok (c.store.find? key), c)
      | (.ok none, c) => present backend key row.authorization c
      | (.error .reconcileUnavailable, c) => present backend key row.authorization c
      | (.error raised, c) => (.error raised, c)

/-- One round of the caller's retry loop. -/
def executePayment (backend : Backend β) (c : Client β) (idempotencyKey resource : String) :
    Except Fault (Option Record) × Client β :=
  match c.store.find? idempotencyKey with
  | none =>
      let authorization : Authorization := ⟨"sig-" ++ idempotencyKey, resource⟩
      present backend idempotencyKey authorization (c.start idempotencyKey authorization)
  | some row =>
      match row.verdict with
      | .settled => (.ok (some row), c)
      | .refusedNotCharged => (.ok (some row), c)
      | .indeterminate => resume backend idempotencyKey row c

/-- One call of `execute_payment`, of a key and a resource. -/
def Backend.round (backend : Backend β) (c : Client β) (call : String × String) : Client β :=
  (executePayment backend c call.1 call.2).2

/-- A new store, over a backend. -/
def Client.fresh (b : β) : Client β := ⟨.empty, b, []⟩

/-- The backend writes no entry for a signature that has one. -/
structure Backend.WritesOnce (backend : Backend β) : Prop where
  settle : ∀ authorization b, ((backend.ledger b).map Entry.signature).Nodup →
    ((backend.ledger (backend.settle authorization b).2).map Entry.signature).Nodup
  reconcile : ∀ broadcastRef b, ((backend.ledger b).map Entry.signature).Nodup →
    ((backend.ledger (backend.reconcile broadcastRef b).2).map Entry.signature).Nodup

/-- A `settle` call for the key that presents the signature. -/
def presents (key signature : String) : String × BackendCall → Bool
  | (other, .settle authorization) => other = key ∧ authorization.signature = signature
  | (_, .reconcile _) => false

/-- Every `settle` call for a key presents the same authorization, the ledger has one entry
at most for what was presented, and a settled key is left alone. -/
def SettledOnce (backend : Backend β) (b : β) (rounds : List (String × String)) : Prop :=
  let c := run backend.round (.fresh b) rounds
  ∀ key,
    (∀ first second, (key, .settle first) ∈ c.calls → (key, .settle second) ∈ c.calls → first = second) ∧
    (backend.ledger c.backend).countP (fun entry => c.calls.any (presents key entry.signature)) ≤ 1 ∧
    ∀ before after, rounds = before ++ after → ∀ row,
      (run backend.round (.fresh b) before).store.find? key = some row → row.verdict = .settled →
      c.store.find? key = some row ∧
        c.calls.filter (fun call => call.1 = key) =
          (run backend.round (.fresh b) before).calls.filter fun call => call.1 = key

/-- What a round for a key does: it calls the backend for that key alone, always with the
same authorization, and keeps that authorization in the record. -/
structure Advances (backend : Backend β) (key : String) (authorization : Authorization) (c next : Client β) : Prop where
  others : ∀ other, other ≠ key → next.store.find? other = c.store.find? other
  kept : (∃ row, c.store.find? key = some row ∧ row.authorization = authorization) →
    ∃ row, next.store.find? key = some row ∧ row.authorization = authorization
  called : ∃ made, next.calls = c.calls ++ made ∧ ∀ call ∈ made, call.1 = key ∧
    ∀ presented, call.2 = .settle presented → presented = authorization
  ledger : backend.WritesOnce → ((backend.ledger c.backend).map Entry.signature).Nodup →
    ((backend.ledger next.backend).map Entry.signature).Nodup

variable {backend : Backend β} {key : String} {authorization : Authorization} {c next last : Client β}

theorem Advances.refl (backend : Backend β) (key : String) (authorization : Authorization) (c : Client β) :
    Advances backend key authorization c c where
  others _ _ := rfl
  kept held := held
  called := ⟨[], by rw [List.append_nil], fun _ member => by cases member⟩
  ledger _ unique := unique

theorem Advances.trans (first : Advances backend key authorization c next)
    (second : Advances backend key authorization next last) : Advances backend key authorization c last where
  others other apart := (second.others other apart).trans (first.others other apart)
  kept held := second.kept (first.kept held)
  called := by
    obtain ⟨made, calls, own⟩ := first.called
    obtain ⟨later, more, ownLater⟩ := second.called
    refine ⟨made ++ later, by rw [more, calls, List.append_assoc], ?_⟩
    intro call member
    rcases List.mem_append.mp member with earlier | final
    · exact own call earlier
    · exact ownLater call final
  ledger writes unique := second.ledger writes (first.ledger writes unique)

/-- An update of the key's own record, which keeps its authorization. -/
theorem advances_update {f : Record → Record} {keeps : ∀ row, Keyed.key (f row) = Keyed.key row}
    (same : ∀ row, (f row).authorization = row.authorization) : Advances backend key authorization c
      { c with store := c.store.update (fun row => row.idempotencyKey = key) f keeps } := by
  have selects : ∀ row : Record, decide (row.idempotencyKey = key) = decide (Keyed.key row = key) := fun _ => rfl
  have read : ∀ k, (c.store.update (fun row => row.idempotencyKey = key) f keeps).find? k =
      if key = k then (c.store.find? k).map f else c.store.find? k := fun _ => Table.find?_update_key selects
  constructor
  · intro other apart
    exact (read other).trans (if_neg (Ne.symm apart))
  · rintro ⟨row, found, presented⟩
    refine ⟨f row, (read key).trans ?_, (same row).trans presented⟩
    rw [if_pos rfl, found, Option.map_some]
  · exact ⟨[], by rw [List.append_nil], fun _ member => by cases member⟩
  · intro _ unique
    exact unique

theorem advances_markSettled (transactionRef : String) (declaredSafe : Bool) :
    Advances backend key authorization c (c.markSettled key transactionRef declaredSafe) :=
  advances_update fun _ => rfl

theorem advances_markIndeterminate (broadcastRef : Option String) :
    Advances backend key authorization c (c.markIndeterminate key broadcastRef) :=
  advances_update fun _ => rfl

theorem advances_settleFor : Advances backend key authorization c (backend.settleFor key authorization c).2 where
  others _ _ := rfl
  kept held := held
  called := by
    refine ⟨[(key, .settle authorization)], rfl, ?_⟩
    intro call member
    obtain rfl := List.mem_singleton.mp member
    exact ⟨rfl, fun presented same => (BackendCall.settle.inj same).symm⟩
  ledger writes := writes.settle authorization c.backend

theorem advances_reconcileFor (broadcastRef : String) :
    Advances backend key authorization c (backend.reconcileFor key broadcastRef c).2 where
  others _ _ := rfl
  kept held := held
  called := by
    refine ⟨[(key, .reconcile broadcastRef)], rfl, ?_⟩
    intro call member
    obtain rfl := List.mem_singleton.mp member
    exact ⟨rfl, fun presented same => by cases same⟩
  ledger writes := writes.reconcile broadcastRef c.backend

/-- The two handlers of a fault that leaves the outcome open. -/
theorem advances_lost (raised : Fault) : Advances backend key authorization c
    (match raised.lost? with
      | some broadcastRef =>
          ((.ok ((c.markIndeterminate key broadcastRef).store.find? key),
            c.markIndeterminate key broadcastRef) : Except Fault (Option Record) × Client β)
      | none => (.error raised, c)).2 := by
  cases raised.lost? with
  | none => exact .refl ..
  | some broadcastRef => exact advances_markIndeterminate broadcastRef

theorem advances_present (backend : Backend β) (key : String) (authorization : Authorization) (c : Client β) :
    Advances backend key authorization c (present backend key authorization c).2 := by
  have first : Advances backend key authorization c (backend.settleFor key authorization c).2 := advances_settleFor
  unfold present
  split
  · rename_i result next settled
    rw [settled] at first
    exact first.trans (advances_markSettled ..)
  · rename_i next challenged
    rw [challenged] at first
    have second : Advances backend key authorization next (backend.settleFor key authorization next).2 :=
      advances_settleFor
    apply first.trans
    split
    · rename_i result last settled
      rw [settled] at second
      exact second.trans (advances_markSettled ..)
    · rename_i raised last failed
      rw [failed] at second
      exact second.trans (advances_lost raised)
  · rename_i raised next _ failed
    rw [failed] at first
    exact first.trans (advances_lost raised)

theorem advances_resume (backend : Backend β) (key : String) (row : Record) (c : Client β) :
    Advances backend key row.authorization c (resume backend key row c).2 := by
  unfold resume
  split
  · exact advances_present ..
  · rename_i broadcastRef _
    have asked : Advances backend key row.authorization c (backend.reconcileFor key broadcastRef c).2 :=
      advances_reconcileFor broadcastRef
    split
    · rename_i transactionRef next settled
      rw [settled] at asked
      exact asked.trans (advances_markSettled ..)
    · rename_i next unknown
      rw [unknown] at asked
      exact asked.trans (advances_present ..)
    · rename_i next unavailable
      rw [unavailable] at asked
      exact asked.trans (advances_present ..)
    · rename_i raised next _ failed
      rw [failed] at asked
      exact asked

/-- A settled record is returned as it is. -/
theorem round_settled {row : Record} (found : c.store.find? key = some row) (settled : row.verdict = .settled)
    (resource : String) : backend.round c (key, resource) = c := by
  rw [Backend.round, executePayment, found]
  dsimp only
  rw [settled]

/-- What was presented is in the record of its key. -/
def Client.Presenting (c : Client β) : Prop :=
  ∀ key authorization, (key, .settle authorization) ∈ c.calls →
    ∃ row, c.store.find? key = some row ∧ row.authorization = authorization

/-- A round presents one authorization, which the record holds afterwards. -/
theorem advances_round (backend : Backend β) (c : Client β) (call : String × String) :
    ∃ authorization, Advances backend call.1 authorization c (backend.round c call) ∧
      (∀ row, c.store.find? call.1 = some row → row.authorization = authorization) ∧
      ∃ row, (backend.round c call).store.find? call.1 = some row ∧ row.authorization = authorization := by
  obtain ⟨key, resource⟩ := call
  cases found : c.store.find? key with
  | none =>
      let authorization : Authorization := ⟨"sig-" ++ key, resource⟩
      let row : Record := ⟨key, .indeterminate, authorization, none, none, false⟩
      have free : (c.store.insert? row).isSome := Table.insert?_isSome_iff.mpr found
      obtain ⟨store, inserted⟩ := Option.isSome_iff_exists.mp free
      have read : ∀ k, (c.start key authorization).store.find? k = if key = k then some row else c.store.find? k := by
        intro k
        rw [Client.start, inserted]
        exact Table.find?_insert inserted k
      have started : Advances backend key authorization c (c.start key authorization) := by
        refine ⟨?_, ?_, ⟨[], by rw [List.append_nil, Client.start], ?_⟩, fun _ unique => unique⟩
        · intro other apart
          rw [read, if_neg (Ne.symm apart)]
        · rintro ⟨other, there, _⟩
          rw [found] at there
          cases there
        · intro call member
          cases member
      have rest := advances_present backend key authorization (c.start key authorization)
      have round : backend.round c (key, resource) =
          (present backend key authorization (c.start key authorization)).2 := by
        rw [Backend.round, executePayment, found]
      rw [round]
      refine ⟨authorization, started.trans rest, fun other there => (by cases there), ?_⟩
      exact rest.kept ⟨row, by rw [read, if_pos rfl], rfl⟩
  | some row =>
      have advances : Advances backend key row.authorization c (backend.round c (key, resource)) := by
        rw [Backend.round, executePayment, found]
        dsimp only
        cases row.verdict with
        | settled => exact .refl ..
        | refusedNotCharged => exact .refl ..
        | indeterminate => exact advances_resume ..
      refine ⟨row.authorization, advances, ?_, advances.kept ⟨row, found, rfl⟩⟩
      intro other there
      rw [Option.some.inj there]

theorem Client.Presenting.round (presenting : c.Presenting) (call : String × String) :
    (backend.round c call).Presenting := by
  obtain ⟨authorization, advances, own, held⟩ := advances_round backend c call
  obtain ⟨made, calls, made_for⟩ := advances.called
  intro key presented member
  rw [calls] at member
  rcases List.mem_append.mp member with earlier | later
  · obtain ⟨row, found, same⟩ := presenting key presented earlier
    by_cases named : key = call.1
    · subst named
      rw [← same, own row found]
      exact held
    · exact ⟨row, (advances.others key named).trans found, same⟩
  · obtain ⟨rfl, same⟩ := made_for _ later
    rw [same presented rfl]
    exact held

/-- A round for another key leaves a key's record and calls alone. -/
theorem round_other (backend : Backend β) (c : Client β) (call : String × String) (apart : key ≠ call.1) :
    (backend.round c call).store.find? key = c.store.find? key ∧
      (backend.round c call).calls.filter (fun made => made.1 = key) = c.calls.filter fun made => made.1 = key := by
  obtain ⟨authorization, advances, _⟩ := advances_round backend c call
  obtain ⟨made, calls, own⟩ := advances.called
  refine ⟨advances.others key apart, ?_⟩
  have none : made.filter (fun made => made.1 = key) = [] := by
    apply List.filter_eq_nil_iff.mpr
    intro call member same
    exact apart ((of_decide_eq_true same).symm.trans (own call member).1)
  rw [calls, List.filter_append, none, List.append_nil]

/-- Where all calls for a key present one authorization, one entry of the ledger is for it at most. -/
theorem countP_presents_le {entries : List Entry} (unique : (entries.map Entry.signature).Nodup)
    (once : ∀ first second, (key, .settle first) ∈ c.calls → (key, .settle second) ∈ c.calls → first = second) :
    entries.countP (fun entry => c.calls.any (presents key entry.signature)) ≤ 1 := by
  have shown : ∀ entry : Entry, c.calls.any (presents key entry.signature) = true →
      ∃ authorization, (key, .settle authorization) ∈ c.calls ∧ authorization.signature = entry.signature := by
    intro entry own
    obtain ⟨⟨other, call⟩, made, same⟩ := List.any_eq_true.mp own
    cases call with
    | settle authorization =>
        obtain ⟨rfl, signature⟩ := of_decide_eq_true same
        exact ⟨authorization, made, signature⟩
    | reconcile => cases same
  by_cases presented : ∃ authorization, (key, .settle authorization) ∈ c.calls
  · obtain ⟨authorization, member⟩ := presented
    have counted : entries.countP (fun entry => c.calls.any (presents key entry.signature)) ≤
        entries.countP fun entry => entry.signature = authorization.signature := by
      apply List.countP_mono_left
      intro entry _ own
      obtain ⟨other, made, signature⟩ := shown entry own
      rw [decide_eq_true_eq, ← signature, once other authorization made member]
    apply counted.trans
    have keyed := List.nodup_iff_count_le_one.mp unique authorization.signature
    rwa [List.count, List.countP_map] at keyed
  · have none : entries.countP (fun entry => c.calls.any (presents key entry.signature)) = 0 := by
      apply List.countP_eq_zero.mpr
      intro entry _ own
      obtain ⟨authorization, made, _⟩ := shown entry own
      exact presented ⟨authorization, made⟩
    rw [none]
    exact Nat.zero_le 1

/-- Rounds leave a settled key alone. -/
theorem run_settled (backend : Backend β) {row : Record} (found : c.store.find? key = some row)
    (settled : row.verdict = .settled) (rounds : List (String × String)) :
    (run backend.round c rounds).store.find? key = some row ∧
      (run backend.round c rounds).calls.filter (fun call => call.1 = key) =
        c.calls.filter fun call => call.1 = key := by
  apply run_invariant (P := fun later : Client β => later.store.find? key = some row ∧
    later.calls.filter (fun call => call.1 = key) = c.calls.filter fun call => call.1 = key) ?_ rounds ⟨found, rfl⟩
  intro c call held
  by_cases named : key = call.1
  · subst named
    rwa [round_settled held.1 settled call.2]
  · obtain ⟨record, calls⟩ := round_other backend c call named
    rw [record, calls]
    exact held

/-- Whatever the backend does, all calls for a key present one authorization, the ledger
has one entry for it at most, and a settled key is left alone. -/
theorem settledOnce (writes : backend.WritesOnce) (b : β)
    (unique : ((backend.ledger b).map Entry.signature).Nodup) (rounds : List (String × String)) :
    SettledOnce backend b rounds := by
  have started : (Client.fresh b).Presenting ∧
      ((backend.ledger (Client.fresh b).backend).map Entry.signature).Nodup := by
    refine ⟨?_, unique⟩
    intro key authorization member
    cases member
  have ended : (run backend.round (.fresh b) rounds).Presenting ∧
      ((backend.ledger (run backend.round (.fresh b) rounds).backend).map Entry.signature).Nodup :=
    run_invariant (P := fun c : Client β => c.Presenting ∧ ((backend.ledger c.backend).map Entry.signature).Nodup)
      (fun c call held => by
        obtain ⟨authorization, advances, _⟩ := advances_round backend c call
        exact ⟨held.1.round call, advances.ledger writes held.2⟩) rounds started
  unfold SettledOnce
  intro c key
  obtain ⟨presenting, ledger⟩ : c.Presenting ∧ ((backend.ledger c.backend).map Entry.signature).Nodup := ended
  have once : ∀ first second, (key, .settle first) ∈ c.calls → (key, .settle second) ∈ c.calls → first = second := by
    intro first second one two
    obtain ⟨row, found, same⟩ := presenting key first one
    obtain ⟨other, again, same'⟩ := presenting key second two
    rw [found] at again
    rw [← same, ← same', Option.some.inj again]
  refine ⟨once, countP_presents_le ledger once, ?_⟩
  rintro before after rfl row found settled
  have same : c = run backend.round (run backend.round (.fresh b) before) after := run_append before after
  rw [same]
  exact run_settled backend found settled after

end

/-- The fault a `MockFacilitator` injects. -/
inductive Mode where
  | clean | declaredSafe | acceptThenTimeout | fivexxAfterSettle | slowAnswer | reconcileUnavailable | double402
  deriving DecidableEq, Repr

structure MockFacilitator where
  mode : Mode
  ledger : List Entry
  settleCalls : Nat
  reconcileCalls : Nat
  deriving DecidableEq, Repr

namespace MockFacilitator

def write (f : MockFacilitator) (signature tx : String) : MockFacilitator :=
  { f with ledger := f.ledger ++ [⟨signature, tx⟩] }

/-- The first call writes and loses its answer; a later one writes again. -/
def loseFirst (f : MockFacilitator) (signature : String) (fault : Fault) (tx again : String) :
    Except Fault SettleResult × MockFacilitator :=
  if f.settleCalls = 1 then (.error fault, f.write signature tx)
  else (.ok ⟨again, true⟩, f.write signature again)

/-- A signature without an entry. -/
def settleNew (f : MockFacilitator) (signature : String) : Except Fault SettleResult × MockFacilitator :=
  match f.mode with
  | .clean => (.ok ⟨"0xCLEAN", false⟩, f.write signature "0xCLEAN")
  | .declaredSafe => (.ok ⟨"0xDSAFE", true⟩, f.write signature "0xDSAFE")
  | .acceptThenTimeout => f.loseFirst signature (.timeout (some "0xATT")) "0xATT" "0xATT_DUP"
  | .fivexxAfterSettle => f.loseFirst signature (.serverError none) "0x5XX" "0x5XX_DUP"
  | .slowAnswer => f.loseFirst signature (.timeout none) "0xSLOW" "0xSLOW_DUP"
  | .reconcileUnavailable => f.loseFirst signature (.timeout (some "0xRECU")) "0xRECU" "0xRECU_DUP"
  | .double402 =>
      if f.settleCalls = 1 then (.error (.timeout none), f)
      else if f.settleCalls = 2 then (.error .challenge402, f)
      else (.ok ⟨"0xD402", false⟩, f.write signature "0xD402")

/-- One entry for the signature is written, or none. -/
theorem ledger_settleNew (f : MockFacilitator) (signature : String) :
    (f.settleNew signature).2.ledger = f.ledger ∨
      ∃ tx, (f.settleNew signature).2.ledger = f.ledger ++ [⟨signature, tx⟩] := by
  have lost : ∀ fault tx again, ∃ written,
      (f.loseFirst signature fault tx again).2.ledger = f.ledger ++ [⟨signature, written⟩] := by
    intro fault tx again
    unfold loseFirst
    split
    · exact ⟨tx, rfl⟩
    · exact ⟨again, rfl⟩
  unfold settleNew
  split
  · exact Or.inr ⟨_, rfl⟩
  · exact Or.inr ⟨_, rfl⟩
  · exact Or.inr (lost ..)
  · exact Or.inr (lost ..)
  · exact Or.inr (lost ..)
  · exact Or.inr (lost ..)
  · split
    · exact Or.inl rfl
    split
    · exact Or.inl rfl
    · exact Or.inr ⟨_, rfl⟩

def settle (authorization : Authorization) (f : MockFacilitator) : Except Fault SettleResult × MockFacilitator :=
  let f := { f with settleCalls := f.settleCalls + 1 }
  match f.ledger.find? fun entry => entry.signature = authorization.signature with
  | some existing => (.ok ⟨existing.tx, true⟩, f)
  | none => f.settleNew authorization.signature

def reconcile (broadcastRef : String) (f : MockFacilitator) : Except Fault (Option String) × MockFacilitator :=
  let f := { f with reconcileCalls := f.reconcileCalls + 1 }
  if f.mode = .reconcileUnavailable ∧ f.reconcileCalls = 1 then (.error .reconcileUnavailable, f)
  else (.ok ((f.ledger.find? fun entry => entry.tx = broadcastRef).map Entry.tx), f)

end MockFacilitator

def mockFacilitator : Backend MockFacilitator :=
  ⟨MockFacilitator.settle, MockFacilitator.reconcile, MockFacilitator.ledger⟩

/-- In every mode, what is written is written under a signature that had no entry. -/
theorem writesOnce_mockFacilitator : mockFacilitator.WritesOnce where
  settle authorization f unique := by
    change ((MockFacilitator.settle authorization f).2.ledger.map Entry.signature).Nodup
    change (f.ledger.map Entry.signature).Nodup at unique
    unfold MockFacilitator.settle
    dsimp only
    split
    · exact unique
    · rename_i absent
      rcases MockFacilitator.ledger_settleNew { f with settleCalls := f.settleCalls + 1 } authorization.signature with
        same | ⟨tx, written⟩
      · rw [same]
        exact unique
      · rw [written, List.map_append, List.nodup_append]
        refine ⟨unique, List.nodup_singleton _, ?_⟩
        intro signature member other single
        obtain ⟨entry, stored, rfl⟩ := List.mem_map.mp member
        rw [List.mem_singleton.mp single]
        exact fun same => List.find?_eq_none.mp absent entry stored (decide_eq_true same)
  reconcile broadcastRef f unique := by
    change ((MockFacilitator.reconcile broadcastRef f).2.ledger.map Entry.signature).Nodup
    unfold MockFacilitator.reconcile
    dsimp only
    split <;> exact unique

/-- Two keys whose rounds interleave, over a facilitator that first loses an answer, and
then challenges the client again. -/
theorem settledOnce_double402 :
    SettledOnce mockFacilitator ⟨.double402, [], 0, 0⟩ [("a", "x"), ("b", "y"), ("a", "x"), ("b", "y"), ("a", "z")] :=
  settledOnce writesOnce_mockFacilitator ⟨.double402, [], 0, 0⟩ List.nodup_nil _

/-- Both keys end settled. -/
example : ((run mockFacilitator.round (.fresh ⟨.double402, [], 0, 0⟩)
    [("a", "x"), ("b", "y"), ("a", "x"), ("b", "y"), ("a", "z")]).store.rows.map Record.verdict) =
      [.settled, .settled] := by decide +kernel

end Argentum.Settlement
