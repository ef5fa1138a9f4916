import Argentum.Conformance.Settlement

/-! The broadcast reference of an open settlement. A lost answer writes what its exception
says of the broadcast over the reference the record had, so the reference is kept in the
runs in which every such exception names one. -/
namespace Argentum.Settlement
open Argentum Transition
variable {β : Type}

/-- In every state of the run, a key whose record held a reference holds one while it is
indeterminate. -/
def BroadcastKept (backend : Backend β) (b : β) (rounds : List (String × String)) : Prop :=
  ∀ before middle after, rounds = before ++ middle ++ after → ∀ key row later,
    (run backend.round (.fresh b) before).store.find? key = some row → row.broadcastRef.isSome →
    (run backend.round (.fresh b) (before ++ middle)).store.find? key = some later →
    later.verdict = .indeterminate → later.broadcastRef.isSome

namespace Backend
variable (backend : Backend β)

/-- The backend that a record's authorization is presented to, where it comes to that:
the record may be settled by reconciling it. -/
def presentedTo? (row : Record) (b : β) : Option β :=
  match row.broadcastRef.filter (· ≠ "") with
  | none => some b
  | some broadcastRef =>
      match backend.reconcile broadcastRef b with
      | (.ok none, b) => some b
      | (.error .reconcileUnavailable, b) => some b
      | _ => none

/-- The last answer to an authorization: it is presented again where it is challenged. -/
def lastAnswer (authorization : Authorization) (b : β) : Except Fault SettleResult :=
  match backend.settle authorization b with
  | (.error .challenge402, b) => (backend.settle authorization b).1
  | (answer, _) => answer

/-- An answer that is lost to a record with a reference comes with a reference. -/
def NamesBroadcast (c : Client β) (call : String × String) : Prop :=
  ∀ row, c.store.find? call.1 = some row → row.verdict = .indeterminate → row.broadcastRef.isSome →
    ∀ b, backend.presentedTo? row c.backend = some b →
      ∀ raised, backend.lastAnswer row.authorization b = .error raised → raised.lost? ≠ some none

end Backend

section
variable {backend : Backend β} {key : String} {authorization : Authorization} {row : Record} {c : Client β}

/-- An update of the key's own record. -/
theorem find?_update_own (f : Record → Record) (keeps : ∀ row, Keyed.key (f row) = Keyed.key row)
    (found : c.store.find? key = some row) :
    (c.store.update (fun row => row.idempotencyKey = key) f keeps).find? key = some (f row) := by
  have own : (c.store.update (fun row => row.idempotencyKey = key) f keeps).find? key =
      if key = key then (c.store.find? key).map f else c.store.find? key := Table.find?_update_key fun _ => rfl
  rw [own, if_pos rfl, found, Option.map_some]

theorem find?_markIndeterminate (found : c.store.find? key = some row) (broadcastRef : Option String) :
    (c.markIndeterminate key broadcastRef).store.find? key =
      some { row with verdict := .indeterminate, broadcastRef } :=
  find?_update_own (fun row => { row with verdict := .indeterminate, broadcastRef }) (fun _ => rfl) found

theorem find?_markSettled (found : c.store.find? key = some row) (transactionRef : String) (declaredSafe : Bool) :
    (c.markSettled key transactionRef declaredSafe).store.find? key =
      some { row with verdict := .settled, transactionRef := some transactionRef, declaredSafe } :=
  find?_update_own (fun row => { row with verdict := .settled, transactionRef := some transactionRef, declaredSafe })
    (fun _ => rfl) found

/-- What an answer leaves of the reference in a record: the one it was lost with, or the
one that was there. -/
def Leaves (answer : Except Fault SettleResult) (row next : Record) : Prop :=
  (∃ raised, answer = .error raised ∧ raised.lost? = some next.broadcastRef ∧ next.verdict = .indeterminate) ∨
    ((∀ raised, answer = .error raised → raised.lost? = none) ∧ next.broadcastRef = row.broadcastRef)

/-- The handlers of an answer that was not a result. -/
theorem leaves_failed {raised : Fault} (found : c.store.find? key = some row) :
    ∃ next, Leaves (.error raised) row next ∧ (match raised.lost? with
      | some broadcastRef =>
          ((.ok ((c.markIndeterminate key broadcastRef).store.find? key),
            c.markIndeterminate key broadcastRef) : Except Fault (Option Record) × Client β)
      | none => (.error raised, c)).2.store.find? key = some next := by
  cases lost : raised.lost? with
  | none =>
      refine ⟨row, Or.inr ⟨?_, rfl⟩, found⟩
      rintro _ ⟨⟩
      exact lost
  | some broadcastRef => exact ⟨_, Or.inl ⟨raised, rfl, lost, rfl⟩, find?_markIndeterminate found broadcastRef⟩

theorem leaves_settled {result : SettleResult} (found : c.store.find? key = some row) :
    ∃ next, Leaves (.ok result) row next ∧
      (c.markSettled key result.transactionRef result.declaredSafe).store.find? key = some next := by
  refine ⟨_, Or.inr ⟨?_, ?_⟩, find?_markSettled found ..⟩
  · rintro _ ⟨⟩
  · rfl

/-- What presenting an authorization leaves of a record is what the last answer leaves. -/
theorem leaves_present (backend : Backend β) (authorization : Authorization) (found : c.store.find? key = some row) :
    ∃ next, Leaves (backend.lastAnswer authorization c.backend) row next ∧
      (present backend key authorization c).2.store.find? key = some next := by
  rcases answered : backend.settle authorization c.backend with ⟨answer, b⟩
  have first : backend.settleFor key authorization c =
      (answer, { c with backend := b, calls := c.calls ++ [(key, .settle authorization)] }) := by
    rw [Backend.settleFor, answered]
  rw [present, Backend.lastAnswer, first, answered]
  cases answer with
  | ok result => exact leaves_settled found
  | error raised =>
      cases raised with
      | timeout | serverError | reconcileUnavailable => exact leaves_failed found
      | challenge402 =>
          -- the second answer is taken as it comes
          dsimp only
          rcases again : backend.settle authorization b with ⟨last, b'⟩
          rw [Backend.settleFor, again]
          cases last with
          | ok result => exact leaves_settled found
          | error raised => exact leaves_failed found

theorem leaves_resume (backend : Backend β) (found : c.store.find? key = some row) :
    ∃ next, (resume backend key row c).2.store.find? key = some next ∧
      ((∃ b, backend.presentedTo? row c.backend = some b ∧
          Leaves (backend.lastAnswer row.authorization b) row next) ∨
        (backend.presentedTo? row c.backend = none ∧ next.broadcastRef = row.broadcastRef)) := by
  have again : ∀ (b : β) (calls : List (String × BackendCall)),
      ∃ next, (present backend key row.authorization { c with backend := b, calls }).2.store.find? key = some next ∧
        Leaves (backend.lastAnswer row.authorization b) row next := by
    intro b calls
    obtain ⟨next, leaves, after⟩ := leaves_present backend row.authorization
      (show ({ c with backend := b, calls } : Client β).store.find? key = some row from found)
    exact ⟨next, after, leaves⟩
  unfold resume Backend.presentedTo?
  cases row.broadcastRef.filter (· ≠ "") with
  | none =>
      obtain ⟨next, after, leaves⟩ := again c.backend c.calls
      exact ⟨next, after, Or.inl ⟨c.backend, rfl, leaves⟩⟩
  | some broadcastRef =>
      dsimp only
      rcases asked : backend.reconcile broadcastRef c.backend with ⟨answer, b⟩
      rw [Backend.reconcileFor, asked]
      cases answer with
      | ok settled =>
          cases settled with
          | some transactionRef => exact ⟨_, find?_markSettled found .., Or.inr ⟨rfl, rfl⟩⟩
          | none =>
              obtain ⟨next, after, leaves⟩ := again b (c.calls ++ [(key, .reconcile broadcastRef)])
              exact ⟨next, after, Or.inl ⟨b, rfl, leaves⟩⟩
      | error raised =>
          cases raised with
          | reconcileUnavailable =>
              obtain ⟨next, after, leaves⟩ := again b (c.calls ++ [(key, .reconcile broadcastRef)])
              exact ⟨next, after, Or.inl ⟨b, rfl, leaves⟩⟩
          | timeout | serverError | challenge402 => exact ⟨row, found, Or.inr ⟨rfl, rfl⟩⟩

/-- A terminal record is returned as it is. -/
theorem round_terminal {call : String × String} (found : c.store.find? call.1 = some row)
    (terminal : row.verdict ≠ .indeterminate) : backend.round c call = c := by
  rw [Backend.round, executePayment, found]
  dsimp only
  cases verdict : row.verdict with
  | settled | refusedNotCharged => rfl
  | indeterminate => exact absurd verdict terminal

theorem round_open {call : String × String} (found : c.store.find? call.1 = some row)
    (pending : row.verdict = .indeterminate) : backend.round c call = (resume backend call.1 row c).2 := by
  rw [Backend.round, executePayment, found]
  dsimp only
  rw [pending]

/-- What a round asks of the answers, it asks of those to the record it is about. -/
theorem namesBroadcast_iff {call : String × String} (found : c.store.find? call.1 = some row)
    (pending : row.verdict = .indeterminate) (held : row.broadcastRef.isSome) :
    backend.NamesBroadcast c call ↔ ∀ b, backend.presentedTo? row c.backend = some b →
      ∀ raised, backend.lastAnswer row.authorization b = .error raised → raised.lost? ≠ some none := by
  constructor
  · intro names
    exact names row found pending held
  · intro own other there _ _
    cases found.symm.trans there
    exact own

/-- A round keeps a reference exactly where no answer is lost without one. -/
theorem round_broadcastRef (backend : Backend β) {call : String × String} (found : c.store.find? call.1 = some row)
    (held : row.broadcastRef.isSome) :
    ∃ next, (backend.round c call).store.find? call.1 = some next ∧
      ((backend.NamesBroadcast c call ∧ next.broadcastRef.isSome) ∨
        (¬ backend.NamesBroadcast c call ∧ next.verdict = .indeterminate ∧ next.broadcastRef = none)) := by
  by_cases terminal : row.verdict ≠ .indeterminate
  · refine ⟨row, by rwa [round_terminal found terminal], Or.inl ⟨?_, held⟩⟩
    intro other there pending
    cases found.symm.trans there
    exact absurd pending terminal
  have pending := not_not.mp terminal
  rw [namesBroadcast_iff found pending held, round_open found pending]
  obtain ⟨next, after, outcome⟩ := leaves_resume backend found
  refine ⟨next, after, ?_⟩
  rcases outcome with ⟨b, presented, ⟨raised, answer, lost, still⟩ | ⟨returned, same⟩⟩ | ⟨unasked, same⟩
  · cases named : next.broadcastRef with
    | some broadcastRef =>
        refine Or.inl ⟨?_, rfl⟩
        intro b' also raised' answer' lost'
        cases presented.symm.trans also
        cases answer.symm.trans answer'
        rw [lost, named] at lost'
        cases lost'
    | none =>
        rw [named] at lost
        exact Or.inr ⟨fun kept => kept b presented raised answer lost, still, rfl⟩
  · refine Or.inl ⟨?_, by rwa [same]⟩
    intro b' also raised answer lost
    cases presented.symm.trans also
    rw [returned raised answer] at lost
    cases lost
  · refine Or.inl ⟨?_, by rwa [same]⟩
    intro b' also
    cases unasked.symm.trans also

end

/-- The reference of an open settlement is kept in a run exactly where every answer that is
lost to a record with a reference comes with one. -/
theorem broadcastKept_iff (backend : Backend β) (b : β) (rounds : List (String × String)) :
    BroadcastKept backend b rounds ↔ Admits backend.round backend.NamesBroadcast (.fresh b) rounds := by
  constructor
  · intro kept
    rw [admits_iff_split]
    rintro before call after rfl
    by_contra unnamed
    -- such a round is one of a record with a reference, which it leaves without one
    obtain ⟨row, found, held⟩ : ∃ row, (run backend.round (.fresh b) before).store.find? call.1 = some row ∧
        row.broadcastRef.isSome := by
      simp only [Backend.NamesBroadcast, not_forall] at unnamed
      obtain ⟨row, found, _, held, _⟩ := unnamed
      exact ⟨row, found, held⟩
    obtain ⟨next, left, ⟨named, _⟩ | ⟨_, pending, forgotten⟩⟩ := round_broadcastRef backend found held
    · exact unnamed named
    · have still := kept before [call] after (by simp) call.1 row next found held (by rwa [run_concat]) pending
      rw [forgotten] at still
      cases still
  · rintro admitted before middle after rfl key row later found held there _
    have reached : Admits backend.round backend.NamesBroadcast (run backend.round (.fresh b) before) middle :=
      (admits_append.mp (admits_append.mp admitted).1).2
    obtain ⟨last, foundLast, kept⟩ := reached.invariant
      (P := fun c : Client β => ∃ row, c.store.find? key = some row ∧ row.broadcastRef.isSome)
      (by
        rintro c call ⟨row, found, held⟩ named
        by_cases own : key = call.1
        · subst own
          obtain ⟨next, after, ⟨_, kept⟩ | ⟨unnamed, _⟩⟩ := round_broadcastRef backend found held
          · exact ⟨next, after, kept⟩
          · exact absurd named unnamed
        · exact ⟨row, by rwa [(round_other backend c call own).1], held⟩) ⟨row, found, held⟩
    rw [run_append, foundLast] at there
    cases there
    exact kept

/-- A backend that settles with the answers of a script, and reconciles nothing. -/
def scripted : Backend (List (Except Fault SettleResult)) where
  settle _ script := (script.headD (.error (.serverError none)), script.tail)
  reconcile _ script := (.ok none, script)
  ledger _ := []

/-- A timeout names the broadcast, and a server error after it does not. -/
theorem not_broadcastKept_serverError : ¬ BroadcastKept scripted
    [.error (.timeout (some "0xATT")), .error (.serverError none)] [("a", "x"), ("a", "x")] := by
  intro kept
  have still := kept [("a", "x")] [("a", "x")] [] rfl "a"
    ⟨"a", .indeterminate, ⟨"sig-a", "x"⟩, some "0xATT", none, false⟩
    ⟨"a", .indeterminate, ⟨"sig-a", "x"⟩, none, none, false⟩ (by decide +kernel) rfl (by decide +kernel) rfl
  cases still

end Argentum.Settlement
