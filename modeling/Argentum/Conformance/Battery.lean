import Mathlib.Data.List.Dedup
import Argentum.Conformance.GenericBackend

/-! The battery of faults. Whatever fault the backend injects, a round that is not the first
of all settles its key, and the ledger ends with one entry for each key. -/
namespace Argentum.Settlement
open Argentum Transition

namespace MockFacilitator
variable {f : MockFacilitator} {authorization : Authorization}

theorem settleCalls_settle : (settle authorization f).2.settleCalls = f.settleCalls + 1 := by
  have written : ∀ (g : MockFacilitator) signature fault tx again,
      (g.loseFirst signature fault tx again).2.settleCalls = g.settleCalls := by
    intro g signature fault tx again
    unfold loseFirst
    split <;> rfl
  unfold settle
  dsimp only
  split
  · rfl
  · unfold settleNew
    split <;> first | rfl | exact written .. | (split <;> first | rfl | (split <;> rfl))

theorem settleCalls_reconcile (ref : String) : (reconcile ref f).2.settleCalls = f.settleCalls := by
  unfold reconcile
  dsimp only
  split <;> rfl

/-- Past the first call of all, an answer is lost no more, and the one that is due a challenge
is the second. -/
theorem settle_settles (authorization : Authorization) (asked : 1 ≤ f.settleCalls) :
    (∃ result, (settle authorization f).1 = .ok result) ∨
      f.settleCalls = 1 ∧ (settle authorization f).1 = .error .challenge402 := by
  have again : ∀ signature fault tx written,
      (loseFirst { f with settleCalls := f.settleCalls + 1 } signature fault tx written).1 = .ok ⟨written, true⟩ := by
    intro signature fault tx written
    rw [loseFirst, if_neg (by dsimp only; omega)]
  unfold settle
  dsimp only
  split
  · exact Or.inl ⟨_, rfl⟩
  · unfold settleNew
    split
    · exact Or.inl ⟨_, rfl⟩
    · exact Or.inl ⟨_, rfl⟩
    · exact Or.inl ⟨_, again ..⟩
    · exact Or.inl ⟨_, again ..⟩
    · exact Or.inl ⟨_, again ..⟩
    · exact Or.inl ⟨_, again ..⟩
    · rw [if_neg (by dsimp only; omega)]
      split
      · rename_i second
        exact Or.inr ⟨by dsimp only at second; omega, rfl⟩
      · exact Or.inl ⟨_, rfl⟩

/-- A reconciliation answers, or the reconciler is down. -/
theorem reconcile_answers (ref : String) : (∃ settled, (reconcile ref f).1 = .ok settled) ∨
    (reconcile ref f).1 = .error .reconcileUnavailable := by
  unfold reconcile
  dsimp only
  split
  · exact Or.inr rfl
  · exact Or.inl ⟨_, rfl⟩

end MockFacilitator

/-- A round returned the record of its key, which is settled. -/
def Settles {β : Type} (key : String) (answer : Except Fault (Option Record) × Client β) : Prop :=
  ∃ row, answer.1 = .ok (some row) ∧ row.verdict = .settled ∧ answer.2.store.find? key = some row

section
variable {c : Client MockFacilitator} {key : String} {authorization : Authorization}

theorem settles_markSettled (held : c.Holds key authorization) (tx : String) (declaredSafe : Bool) :
    Settles key (.ok ((c.markSettled key tx declaredSafe).store.find? key), c.markSettled key tx declaredSafe) := by
  obtain ⟨row, found, _⟩ := held
  have selects : ∀ row : Record, decide (row.idempotencyKey = key) = decide (Keyed.key row = key) := fun _ => rfl
  have read : (c.markSettled key tx declaredSafe).store.find? key =
      some { row with verdict := .settled, transactionRef := some tx, declaredSafe } := by
    rw [Client.markSettled]
    dsimp only
    rw [Table.find?_update_key selects, if_pos rfl, found]
    rfl
  exact ⟨_, by rw [read], rfl, read⟩

/-- A settlement attempt after the first call of all. -/
theorem settles_present (asked : 1 ≤ c.backend.settleCalls) (held : c.Holds key authorization) :
    Settles key (present mockFacilitator key authorization c) := by
  have answers := MockFacilitator.settle_settles authorization asked
  have counted : (mockFacilitator.settleFor key authorization c).2.backend.settleCalls = c.backend.settleCalls + 1 :=
    MockFacilitator.settleCalls_settle
  have holds : (mockFacilitator.settleFor key authorization c).2.Holds key authorization := held
  change (∃ result, (mockFacilitator.settleFor key authorization c).1 = .ok result) ∨ c.backend.settleCalls = 1 ∧
    (mockFacilitator.settleFor key authorization c).1 = .error .challenge402 at answers
  unfold present
  generalize mockFacilitator.settleFor key authorization c = one at answers counted holds
  obtain ⟨answer, next⟩ := one
  rcases answers with ⟨result, rfl⟩ | ⟨_, rfl⟩
  · exact settles_markSettled holds _ _
  · dsimp only at counted holds ⊢
    have asked : 1 ≤ next.backend.settleCalls := by omega
    have answers := MockFacilitator.settle_settles authorization asked
    have again : (mockFacilitator.settleFor key authorization next).2.Holds key authorization := holds
    change (∃ result, (mockFacilitator.settleFor key authorization next).1 = .ok result) ∨
      next.backend.settleCalls = 1 ∧ _ at answers
    generalize mockFacilitator.settleFor key authorization next = two at answers again
    obtain ⟨answer, last⟩ := two
    rcases answers with ⟨result, rfl⟩ | ⟨single, _⟩
    · exact settles_markSettled again _ _
    · omega

theorem settles_resume (asked : 1 ≤ c.backend.settleCalls) {row : Record} (found : c.store.find? key = some row) :
    Settles key (resume mockFacilitator key row c) := by
  have held : c.Holds key row.authorization := ⟨row, found, rfl⟩
  unfold resume
  split
  · exact settles_present asked held
  · rename_i ref _
    have answers := MockFacilitator.reconcile_answers (f := c.backend) ref
    have counted : (mockFacilitator.reconcileFor key ref c).2.backend.settleCalls = c.backend.settleCalls :=
      MockFacilitator.settleCalls_reconcile ref
    have holds : (mockFacilitator.reconcileFor key ref c).2.Holds key row.authorization := held
    change (∃ settled, (mockFacilitator.reconcileFor key ref c).1 = .ok settled) ∨
      (mockFacilitator.reconcileFor key ref c).1 = .error .reconcileUnavailable at answers
    generalize mockFacilitator.reconcileFor key ref c = one at answers counted holds
    obtain ⟨answer, next⟩ := one
    dsimp only at answers counted holds ⊢
    rcases answers with ⟨settled, rfl⟩ | rfl
    · cases settled with
      | none => exact settles_present (by omega) holds
      | some tx => exact settles_markSettled holds tx false
    · exact settles_present (by omega) holds

theorem settleCalls_present_le (c : Client MockFacilitator) (key : String) (authorization : Authorization) :
    c.backend.settleCalls + 1 ≤ (present mockFacilitator key authorization c).2.backend.settleCalls := by
  have counted : ∀ c : Client MockFacilitator,
      (mockFacilitator.settleFor key authorization c).2.backend.settleCalls = c.backend.settleCalls + 1 :=
    fun _ => MockFacilitator.settleCalls_settle
  have first := counted c
  unfold present
  split
  · rename_i result next settled
    rw [settled] at first
    exact first.ge
  · rename_i next challenged
    rw [challenged] at first
    have second := counted next
    split
    · rename_i result last settled
      rw [settled] at second
      change last.backend.settleCalls = _ at second
      change next.backend.settleCalls = _ at first
      change _ ≤ last.backend.settleCalls
      omega
    · rename_i raised last failed
      rw [failed] at second
      change last.backend.settleCalls = _ at second
      change next.backend.settleCalls = _ at first
      have asked : c.backend.settleCalls + 1 ≤ last.backend.settleCalls := by omega
      -- what is lost on the way is noted by the client, and not asked for again
      cases raised.lost? with
      | none => exact asked
      | some broadcastRef => exact asked
  · rename_i raised next _ failed
    rw [failed] at first
    cases raised.lost? with
    | none => exact first.ge
    | some broadcastRef => exact first.ge

/-- A round after the first call of all settles its key. -/
theorem settles_executePayment (c : Client MockFacilitator) (asked : 1 ≤ c.backend.settleCalls)
    (open' : ∀ row ∈ c.store.rows, row.verdict ≠ .refusedNotCharged) (key resource : String) :
    Settles key (executePayment mockFacilitator c key resource) := by
  unfold executePayment
  split
  · rename_i absent
    obtain ⟨store, started, _⟩ := start_eq absent ⟨"sig-" ++ key, resource⟩
    exact settles_present (by rw [started]; exact asked) (holds_start absent _)
  · rename_i row found
    split
    · rename_i settled
      exact ⟨row, rfl, settled, found⟩
    · rename_i refused
      exact absurd refused (open' row (Table.find?_mem found))
    · exact settles_resume asked found

theorem settleCalls_resume_le (c : Client MockFacilitator) (key : String) (row : Record) :
    c.backend.settleCalls ≤ (resume mockFacilitator key row c).2.backend.settleCalls := by
  have presented : ∀ next : Client MockFacilitator, next.backend.settleCalls = c.backend.settleCalls →
      c.backend.settleCalls ≤ (present mockFacilitator key row.authorization next).2.backend.settleCalls := by
    intro next same
    have asked := settleCalls_present_le next key row.authorization
    omega
  unfold resume
  split
  · exact presented c rfl
  · rename_i ref _
    have counted : (mockFacilitator.reconcileFor key ref c).2.backend.settleCalls = c.backend.settleCalls :=
      MockFacilitator.settleCalls_reconcile ref
    split
    · rename_i tx next settled
      rw [settled] at counted
      exact counted.ge
    · rename_i next unknown
      rw [unknown] at counted
      exact presented next counted
    · rename_i next unavailable
      rw [unavailable] at counted
      exact presented next counted
    · rename_i raised next _ failed
      rw [failed] at counted
      exact counted.ge

theorem settleCalls_round_le (c : Client MockFacilitator) (call : String × String) :
    c.backend.settleCalls ≤ (mockFacilitator.round c call).backend.settleCalls := by
  rw [Backend.round, executePayment]
  split
  · exact (Nat.le_succ _).trans (settleCalls_present_le (c.start call.1 ⟨"sig-" ++ call.1, call.2⟩) ..)
  · split
    · exact le_rfl
    · exact le_rfl
    · exact settleCalls_resume_le ..

/-- Once a round is made, the facilitator has been asked. -/
theorem asked_run (mode : Mode) {rounds : List (String × String)} (made : rounds ≠ []) :
    1 ≤ (run mockFacilitator.round (.fresh ⟨mode, [], 0, 0⟩) rounds).backend.settleCalls := by
  obtain ⟨first, rest, rfl⟩ := List.exists_cons_of_ne_nil made
  rw [run_cons]
  refine run_invariant (P := fun c : Client MockFacilitator => 1 ≤ c.backend.settleCalls)
    (fun c call asked => asked.trans (settleCalls_round_le c call)) rest ?_
  exact le_trans (Nat.le_add_left ..) (settleCalls_present_le _ first.1 ⟨"sig-" ++ first.1, first.2⟩)

end

/-- A round that is not the first settles its key. -/
theorem settles_round (mode : Mode) {rounds : List (String × String)} (made : rounds ≠ []) (key resource : String) :
    Settles key
      (executePayment mockFacilitator (run mockFacilitator.round (.fresh ⟨mode, [], 0, 0⟩) rounds) key resource) :=
  settles_executePayment _ (asked_run mode made)
    (fun row member => ((accounted_run truthful_mockFacilitator _ rounds).backed row member).open_or_settled)
    key resource

/-- A round that is not the first returns a settled record. Once the key of the first round
has come again, each key has one entry on the ledger, and there is no other. -/
def SettlesEach {β : Type} (backend : Backend β) (b : β) (rounds : List (String × String)) : Prop :=
  (∀ before call after, rounds = before ++ call :: after → before ≠ [] → ∃ row,
    (executePayment backend (run backend.round (.fresh b) before) call.1 call.2).1 = .ok (some row) ∧
      row.verdict = .settled) ∧
  ((∀ first rest, rounds = first :: rest → first.1 ∈ rest.map Prod.fst) →
    ((backend.ledger (run backend.round (.fresh b) rounds).backend).map Entry.signature).Perm
      ((rounds.map Prod.fst).dedup.map ("sig-" ++ ·)))

/-- Rounds leave the record of a key alone that is not theirs. -/
theorem run_others {β : Type} (backend : Backend β) (c : Client β) {key : String} {rounds : List (String × String)}
    (apart : key ∉ rounds.map Prod.fst) : (run backend.round c rounds).store.find? key = c.store.find? key := by
  induction rounds generalizing c with
  | nil => rfl
  | cons call rest ih =>
      rw [List.map_cons, List.mem_cons, not_or] at apart
      rw [run_cons, ih _ apart.2]
      exact (round_other backend c call apart.1).1

/-- After a round that is not the first, the ledger has the entry of its key. -/
theorem mem_ledger (mode : Mode) {rounds before after : List (String × String)} {call : String × String}
    (split : rounds = before ++ call :: after) (made : before ≠ []) : "sig-" ++ call.1 ∈
      (run mockFacilitator.round (.fresh ⟨mode, [], 0, 0⟩) rounds).backend.ledger.map Entry.signature := by
  obtain ⟨row, _, settled, found⟩ := settles_round mode made call.1 call.2
  have kept : (run mockFacilitator.round (.fresh ⟨mode, [], 0, 0⟩) rounds).store.find? call.1 = some row := by
    rw [split, run_append, run_cons]
    exact (run_settled mockFacilitator found settled after).1
  have backs := (accounted_run truthful_mockFacilitator ⟨mode, [], 0, 0⟩ rounds).backed row (Table.find?_mem kept)
  obtain ⟨tx, _, entered⟩ := backs.settled settled
  have named : row.idempotencyKey = call.1 := Table.find?_key found
  rw [← named, ← backs.signed]
  exact List.mem_map_of_mem entered

theorem settlesEach_mockFacilitator (mode : Mode) (rounds : List (String × String)) :
    SettlesEach mockFacilitator ⟨mode, [], 0, 0⟩ rounds := by
  constructor
  · rintro before call after rfl made
    obtain ⟨row, returned, settled, _⟩ := settles_round mode made call.1 call.2
    exact ⟨row, returned, settled⟩
  · intro again
    have empty : (((mockFacilitator.ledger ⟨mode, [], 0, 0⟩).map Entry.signature)).Nodup := List.nodup_nil
    have unique := ledger_run writesOnce_mockFacilitator empty rounds
    have accounted := accounted_run truthful_mockFacilitator ⟨mode, [], 0, 0⟩ rounds
    have named : Function.Injective ("sig-" ++ · : String → String) := fun _ _ => (String.append_right_inj "sig-").mp
    refine (List.perm_ext_iff_of_nodup unique ((List.nodup_dedup _).map named)).mpr fun signature => ⟨?_, ?_⟩
    · intro member
      obtain ⟨entry, entered, rfl⟩ := List.mem_map.mp member
      rcases accounted.owned entry entered with none | ⟨row, stored, signed⟩
      · cases none
      · rw [← signed, (accounted.backed row stored).signed]
        refine List.mem_map_of_mem (List.mem_dedup.mpr ?_)
        by_contra apart
        have found := Table.find?_eq_some_iff.mpr ⟨stored, (rfl : Keyed.key row = row.idempotencyKey)⟩
        cases (run_others mockFacilitator _ apart).symm.trans found
    · intro member
      obtain ⟨key, held, rfl⟩ := List.mem_map.mp member
      cases rounds with
      | nil => cases List.mem_dedup.mp held
      | cons first rest =>
          have later : key ∈ rest.map Prod.fst := by
            rcases List.mem_cons.mp (List.mem_dedup.mp held) with rfl | later
            · exact again first rest rfl
            · exact later
          obtain ⟨call, listed, rfl⟩ := List.mem_map.mp later
          obtain ⟨before, after, rfl⟩ := List.append_of_mem listed
          exact mem_ledger mode (List.cons_append ..).symm (List.cons_ne_nil first before)

/-- What is settled under one name is settled under another, on a ledger of the same keys. -/
theorem settlesEach_generic {mode : Mode} {rounds : List (String × String)}
    (each : SettlesEach mockFacilitator ⟨mode, [], 0, 0⟩ rounds) :
    SettlesEach genericBackend ⟨mode.generic, [], 0, 0⟩ rounds := by
  refine ⟨fun before call after split made => ?_, fun again => ?_⟩
  · obtain ⟨row, returned, settled⟩ := each.1 before call after split made
    have answers :=
      ((mirrors_battery mode before).executePayment simulates_mockFacilitator call.1 call.2).2
    rw [returned] at answers
    exact ⟨row.rename recordId, answers, settled⟩
  · have entries := simulates_mockFacilitator.ledger (mirrors_battery mode rounds).backend
    rw [entries, List.map_map]
    exact each.2 again

/-- Over both backends, in every mode, the retry neither loses nor repeats a payment. -/
theorem settlesEach (mode : Mode) (rounds : List (String × String)) :
    SettlesEach mockFacilitator ⟨mode, [], 0, 0⟩ rounds ∧
      SettlesEach genericBackend ⟨mode.generic, [], 0, 0⟩ rounds :=
  have each := settlesEach_mockFacilitator mode rounds
  ⟨each, settlesEach_generic each⟩

/-- A run under new names tells the truth of the ledger under new names. -/
theorem settledTruthfully_generic {mode : Mode} {rounds : List (String × String)}
    (truthful : SettledTruthfully mockFacilitator ⟨mode, [], 0, 0⟩ rounds) :
    SettledTruthfully genericBackend ⟨mode.generic, [], 0, 0⟩ rounds := by
  have mirrors := mirrors_battery mode rounds
  have entries := simulates_mockFacilitator.ledger mirrors.backend
  intro row member
  rw [mirrors.store] at member
  obtain ⟨original, stored, rfl⟩ := List.mem_map.mp member
  obtain ⟨broadcast, settled⟩ := truthful original stored
  rw [entries]
  refine ⟨fun ref held => ?_, fun verdict => ?_⟩
  · obtain ⟨named, raised, rfl⟩ := Option.map_eq_some_iff.mp held
    exact List.mem_map_of_mem (broadcast named raised)
  · obtain ⟨tx, named, only⟩ := settled verdict
    refine ⟨recordId tx, by rw [Record.rename, named]; rfl, ?_⟩
    rw [List.filter_map]
    exact congrArg (List.map (Entry.rename recordId)) only

/-- Over both backends, in every mode, the records say of each payment what the ledger holds. -/
theorem battery_settledTruthfully (mode : Mode) (rounds : List (String × String)) :
    SettledTruthfully mockFacilitator ⟨mode, [], 0, 0⟩ rounds ∧
      SettledTruthfully genericBackend ⟨mode.generic, [], 0, 0⟩ rounds := by
  have empty : ((mockFacilitator.ledger ⟨mode, [], 0, 0⟩).map Entry.signature).Nodup := List.nodup_nil
  have truthful := settledTruthfully truthful_mockFacilitator writesOnce_mockFacilitator empty rounds
  exact ⟨truthful, settledTruthfully_generic truthful⟩

end Argentum.Settlement
