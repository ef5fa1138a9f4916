import Argentum.Conformance.Backends

/-! A second backend, which is no payment rail. Under the same client it runs as the
facilitator does, but for the names of its modes and of its references. -/
namespace Argentum.Settlement
open Argentum Transition

/-- The fault a `GenericBackend` injects. -/
inductive GenericMode where
  | clean | declaredIdempotent | writeThenTimeout | errorAfterWrite | clientTimeout | reconcileUnavailable
  | reissueInsteadOfResume
  deriving DecidableEq, Repr

structure RecordEntry where
  key : String
  recordId : String
  deriving DecidableEq, Repr

structure GenericBackend where
  mode : GenericMode
  ledger : List RecordEntry
  settleCalls : Nat
  reconcileCalls : Nat
  deriving DecidableEq, Repr

namespace GenericBackend

def write (g : GenericBackend) (key recordId : String) : GenericBackend :=
  { g with ledger := g.ledger ++ [⟨key, recordId⟩] }

def loseFirst (g : GenericBackend) (key : String) (fault : Fault) (recordId again : String) :
    Except Fault SettleResult × GenericBackend :=
  if g.settleCalls = 1 then (.error fault, g.write key recordId)
  else (.ok ⟨again, true⟩, g.write key again)

/-- A key without a record. -/
def settleNew (g : GenericBackend) (key : String) : Except Fault SettleResult × GenericBackend :=
  match g.mode with
  | .clean => (.ok ⟨"rec-CLEAN", false⟩, g.write key "rec-CLEAN")
  | .declaredIdempotent => (.ok ⟨"rec-DSAFE", true⟩, g.write key "rec-DSAFE")
  | .writeThenTimeout => g.loseFirst key (.timeout (some "rec-WTT")) "rec-WTT" "rec-WTT_DUP"
  | .errorAfterWrite => g.loseFirst key (.serverError none) "rec-EAW" "rec-EAW_DUP"
  | .clientTimeout => g.loseFirst key (.timeout none) "rec-CTO" "rec-CTO_DUP"
  | .reconcileUnavailable => g.loseFirst key (.timeout (some "rec-RECU")) "rec-RECU" "rec-RECU_DUP"
  | .reissueInsteadOfResume =>
      if g.settleCalls = 1 then (.error (.timeout none), g)
      else if g.settleCalls = 2 then (.error .challenge402, g)
      else (.ok ⟨"rec-REISSUE", false⟩, g.write key "rec-REISSUE")

def settle (authorization : Authorization) (g : GenericBackend) : Except Fault SettleResult × GenericBackend :=
  let g := { g with settleCalls := g.settleCalls + 1 }
  match g.ledger.find? fun entry => entry.key = authorization.signature with
  | some existing => (.ok ⟨existing.recordId, true⟩, g)
  | none => g.settleNew authorization.signature

def reconcile (ref : String) (g : GenericBackend) : Except Fault (Option String) × GenericBackend :=
  let g := { g with reconcileCalls := g.reconcileCalls + 1 }
  if g.mode = .reconcileUnavailable ∧ g.reconcileCalls = 1 then (.error .reconcileUnavailable, g)
  else (.ok ((g.ledger.find? fun entry => entry.recordId = ref).map RecordEntry.recordId), g)

end GenericBackend

def genericBackend : Backend GenericBackend :=
  ⟨GenericBackend.settle, GenericBackend.reconcile, fun g => g.ledger.map fun entry => ⟨entry.key, entry.recordId⟩⟩

section
variable (ν : String → String)

def Entry.rename (entry : Entry) : Entry := { entry with tx := ν entry.tx }

def Fault.rename : Fault → Fault
  | .timeout broadcastRef => .timeout (broadcastRef.map ν)
  | .serverError broadcastRef => .serverError (broadcastRef.map ν)
  | .challenge402 => .challenge402
  | .reconcileUnavailable => .reconcileUnavailable

def Record.rename (row : Record) : Record :=
  { row with broadcastRef := row.broadcastRef.map ν, transactionRef := row.transactionRef.map ν }

def BackendCall.rename : BackendCall → BackendCall
  | .settle authorization => .settle authorization
  | .reconcile broadcastRef => .reconcile (ν broadcastRef)

/-- An answer, with what it returns and what it raises renamed. -/
def renamed {α : Type} (f : α → α) : Except Fault α → Except Fault α
  | .ok value => .ok (f value)
  | .error fault => .error (fault.rename ν)

def SettleResult.rename (result : SettleResult) : SettleResult :=
  { result with transactionRef := ν result.transactionRef }

end

section
variable {β γ : Type}

/-- The second backend answers as the first does, with its references renamed. A reference
that the first raises is known, and a known one may be asked for. -/
structure Backend.Simulates (first : Backend β) (second : Backend γ) (ν : String → String)
    (known : String → Prop) (R : β → γ → Prop) : Prop where
  settle : ∀ {b g}, R b g → ∀ authorization,
    R (first.settle authorization b).2 (second.settle authorization g).2 ∧
      (second.settle authorization g).1 = renamed ν (SettleResult.rename ν) (first.settle authorization b).1 ∧
      ∀ fault ref, (first.settle authorization b).1 = .error fault → fault.lost? = some (some ref) → known ref
  reconcile : ∀ {b g}, R b g → ∀ ref, known ref →
    R (first.reconcile ref b).2 (second.reconcile (ν ref) g).2 ∧
      (second.reconcile (ν ref) g).1 = renamed ν (Option.map ν) (first.reconcile ref b).1
  ledger : ∀ {b g}, R b g → second.ledger g = (first.ledger b).map (Entry.rename ν)
  named : ∀ ref, known ref → (ν ref = "" ↔ ref = "")

/-- The second client is the first with the references renamed. -/
structure Client.Mirrors (ν : String → String) (known : String → Prop) (R : β → γ → Prop) (c : Client β)
    (d : Client γ) : Prop where
  store : d.store.rows = c.store.rows.map (Record.rename ν)
  backend : R c.backend d.backend
  calls : d.calls = c.calls.map fun call => (call.1, call.2.rename ν)
  known : ∀ row ∈ c.store.rows, ∀ ref, row.broadcastRef = some ref → known ref

variable {first : Backend β} {second : Backend γ} {ν : String → String} {known : String → Prop}
  {R : β → γ → Prop} {c : Client β} {d : Client γ} {key : String} {authorization : Authorization}

theorem Client.Mirrors.find? (mirrors : c.Mirrors ν known R d) (key : String) :
    d.store.find? key = (c.store.find? key).map (Record.rename ν) := by
  rw [Table.find?, Table.find?, mirrors.store, List.find?_map]
  rfl

theorem Client.Mirrors.update (mirrors : c.Mirrors ν known R d) {f g : Record → Record}
    {keepsF : ∀ row, Keyed.key (f row) = Keyed.key row} {keepsG : ∀ row, Keyed.key (g row) = Keyed.key row}
    (same : ∀ row, g (row.rename ν) = (f row).rename ν)
    (raised : ∀ row ∈ c.store.rows, ∀ ref, (f row).broadcastRef = some ref → known ref) :
    Client.Mirrors ν known R
      { c with store := c.store.update (fun row => row.idempotencyKey = key) f keepsF }
      { d with store := d.store.update (fun row => row.idempotencyKey = key) g keepsG } where
  store := by
    rw [Table.rows_update, Table.rows_update, mirrors.store, List.map_map, List.map_map]
    apply List.map_congr_left
    intro row _
    change (if decide (row.idempotencyKey = key) then g (row.rename ν) else row.rename ν) =
      (if decide (row.idempotencyKey = key) then f row else row).rename ν
    split
    · exact same row
    · rfl
  backend := mirrors.backend
  calls := mirrors.calls
  known row member := by
    rw [Table.rows_update] at member
    obtain ⟨before, stored, rfl⟩ := List.mem_map.mp member
    split
    · exact raised before stored
    · exact mirrors.known before stored

theorem Client.Mirrors.markSettled (mirrors : c.Mirrors ν known R d) (tx : String) (declaredSafe : Bool) :
    (c.markSettled key tx declaredSafe).Mirrors ν known R (d.markSettled key (ν tx) declaredSafe) :=
  mirrors.update (fun _ => rfl) fun row member => mirrors.known row member

theorem Client.Mirrors.markIndeterminate (mirrors : c.Mirrors ν known R d) {broadcastRef : Option String}
    (raised : ∀ ref, broadcastRef = some ref → known ref) :
    (c.markIndeterminate key broadcastRef).Mirrors ν known R (d.markIndeterminate key (broadcastRef.map ν)) :=
  mirrors.update (fun _ => rfl) fun _ _ => raised

/-- What a mirrored call answers, and the client it leaves. -/
def Mirrored (ν : String → String) (known : String → Prop) (R : β → γ → Prop)
    (answer : Except Fault (Option Record) × Client β) (other : Except Fault (Option Record) × Client γ) : Prop :=
  answer.2.Mirrors ν known R other.2 ∧ other.1 = renamed ν (Option.map (Record.rename ν)) answer.1

theorem Client.Mirrors.settleFor (mirrors : c.Mirrors ν known R d) (simulates : first.Simulates second ν known R)
    (key : String) (authorization : Authorization) :
    (first.settleFor key authorization c).2.Mirrors ν known R (second.settleFor key authorization d).2 where
  store := mirrors.store
  backend := (simulates.settle mirrors.backend authorization).1
  calls := by
    change d.calls ++ [_] = (c.calls ++ [_]).map _
    rw [mirrors.calls, List.map_append]
    rfl
  known := mirrors.known

theorem Client.Mirrors.reconcileFor (mirrors : c.Mirrors ν known R d) (simulates : first.Simulates second ν known R)
    (key : String) {ref : String} (asked : known ref) :
    (first.reconcileFor key ref c).2.Mirrors ν known R (second.reconcileFor key (ν ref) d).2 where
  store := mirrors.store
  backend := (simulates.reconcile mirrors.backend ref asked).1
  calls := by
    change d.calls ++ [_] = (c.calls ++ [_]).map _
    rw [mirrors.calls, List.map_append]
    rfl
  known := mirrors.known

theorem lost_rename (fault : Fault) : (fault.rename ν).lost? = fault.lost?.map (Option.map ν) := by
  cases fault <;> rfl

theorem Client.Mirrors.answered (mirrors : c.Mirrors ν known R d) (key : String) :
    Mirrored ν known R (.ok (c.store.find? key), c) (.ok (d.store.find? key), d) :=
  ⟨mirrors, by rw [mirrors.find?]; rfl⟩

theorem Client.Mirrors.lost (mirrors : c.Mirrors ν known R d) {fault : Fault}
    (raised : ∀ ref, fault.lost? = some (some ref) → known ref) (key : String) :
    Mirrored ν known R
      (match fault.lost? with
        | some broadcastRef =>
            (.ok ((c.markIndeterminate key broadcastRef).store.find? key), c.markIndeterminate key broadcastRef)
        | none => (.error fault, c))
      (match (fault.rename ν).lost? with
        | some broadcastRef =>
            (.ok ((d.markIndeterminate key broadcastRef).store.find? key), d.markIndeterminate key broadcastRef)
        | none => (.error (fault.rename ν), d)) := by
  rw [lost_rename]
  cases lost : fault.lost? with
  | none => exact ⟨mirrors, rfl⟩
  | some broadcastRef =>
      exact (mirrors.markIndeterminate fun ref same => raised ref (by rw [lost, same])).answered key

theorem Client.Mirrors.present (mirrors : c.Mirrors ν known R d) (simulates : first.Simulates second ν known R)
    (key : String) (authorization : Authorization) :
    Mirrored ν known R (present first key authorization c) (present second key authorization d) := by
  have attempt : ∀ {c : Client β} {d : Client γ}, c.Mirrors ν known R d →
      (second.settleFor key authorization d).1 =
          renamed ν (SettleResult.rename ν) (first.settleFor key authorization c).1 ∧
        ∀ fault ref, (first.settleFor key authorization c).1 = .error fault → fault.lost? = some (some ref) →
          known ref :=
    fun mirrors => (simulates.settle mirrors.backend authorization).2
  unfold Settlement.present
  obtain ⟨answers, raises⟩ := attempt mirrors
  have left := mirrors.settleFor simulates key authorization
  generalize first.settleFor key authorization c = one at answers raises left
  generalize second.settleFor key authorization d = two at answers left
  obtain ⟨answer, next⟩ := one
  obtain ⟨other, next'⟩ := two
  cases answers
  cases answer with
  | ok result => exact (left.markSettled _ _).answered key
  | error fault =>
      cases fault with
      | timeout broadcastRef => exact left.lost (fun ref => raises _ ref rfl) key
      | serverError broadcastRef => exact left.lost (fun ref => raises _ ref rfl) key
      | reconcileUnavailable => exact left.lost (fun ref => raises _ ref rfl) key
      | challenge402 =>
          obtain ⟨answers, raises⟩ := attempt left
          have last := left.settleFor simulates key authorization
          dsimp only [renamed, Fault.rename] at answers raises last ⊢
          generalize first.settleFor key authorization next = one at answers raises last ⊢
          generalize second.settleFor key authorization next' = two at answers last ⊢
          obtain ⟨answer, final⟩ := one
          obtain ⟨other, final'⟩ := two
          cases answers
          cases answer with
          | ok result => exact (last.markSettled _ _).answered key
          | error fault => exact last.lost (fun ref => raises _ ref rfl) key

theorem Client.Mirrors.resume (mirrors : c.Mirrors ν known R d) (simulates : first.Simulates second ν known R)
    {row : Record} (found : c.store.find? key = some row) :
    Mirrored ν known R (resume first key row c) (resume second key (row.rename ν) d) := by
  unfold Settlement.resume
  have held : ∀ ref, row.broadcastRef = some ref → known ref := mirrors.known row (Table.find?_mem found)
  have same : (row.rename ν).broadcastRef = row.broadcastRef.map ν := rfl
  rw [same]
  cases broadcast : row.broadcastRef with
  | none => exact mirrors.present simulates key row.authorization
  | some ref =>
      have asked := held ref broadcast
      rw [Option.map_some]
      by_cases empty : ref = ""
      · rw [Option.filter_some_neg (by simpa using empty),
          Option.filter_some_neg (by simpa using (simulates.named ref asked).mpr empty)]
        exact mirrors.present simulates key row.authorization
      · rw [Option.filter_some_pos (by simpa using empty),
          Option.filter_some_pos (by simpa using fun same => empty ((simulates.named ref asked).mp same))]
        dsimp only
        have answers : (second.reconcileFor key (ν ref) d).1 =
            renamed ν (Option.map ν) (first.reconcileFor key ref c).1 :=
          (simulates.reconcile mirrors.backend ref asked).2
        have left := mirrors.reconcileFor simulates key asked
        generalize first.reconcileFor key ref c = one at answers left
        generalize second.reconcileFor key (ν ref) d = two at answers left
        obtain ⟨answer, next⟩ := one
        obtain ⟨other, next'⟩ := two
        cases answers
        cases answer with
        | ok settled =>
            cases settled with
            | none => exact left.present simulates key row.authorization
            | some tx => exact (left.markSettled tx false).answered key
        | error fault =>
            cases fault with
            | reconcileUnavailable => exact left.present simulates key row.authorization
            | _ => exact ⟨left, rfl⟩

theorem Client.Mirrors.start (mirrors : c.Mirrors ν known R d) (absent : c.store.find? key = none)
    (authorization : Authorization) :
    (c.start key authorization).Mirrors ν known R (d.start key authorization) := by
  have absent' : d.store.find? key = none := by rw [mirrors.find?, absent, Option.map_none]
  obtain ⟨store, started, inserted⟩ := start_eq absent authorization
  obtain ⟨store', started', inserted'⟩ := start_eq absent' authorization
  rw [started, started']
  refine ⟨?_, mirrors.backend, mirrors.calls, ?_⟩
  · rw [Table.rows_insert inserted, Table.rows_insert inserted', mirrors.store, List.map_append]
    rfl
  · intro other member ref broadcast
    rw [Table.rows_insert inserted] at member
    rcases List.mem_append.mp member with earlier | last
    · exact mirrors.known other earlier ref broadcast
    · rw [List.mem_singleton.mp last] at broadcast
      cases broadcast

/-- A round is mirrored, with what it returns. -/
theorem Client.Mirrors.executePayment (mirrors : c.Mirrors ν known R d)
    (simulates : first.Simulates second ν known R) (key resource : String) :
    Mirrored ν known R (executePayment first c key resource) (executePayment second d key resource) := by
  unfold Settlement.executePayment
  rw [mirrors.find? key]
  cases found : c.store.find? key with
  | none => exact (mirrors.start found _).present simulates key _
  | some row =>
      have same : (row.rename ν).verdict = row.verdict := rfl
      rw [Option.map_some]
      dsimp only
      rw [same]
      cases verdict : row.verdict with
      | settled => exact ⟨mirrors, rfl⟩
      | refusedNotCharged => exact ⟨mirrors, rfl⟩
      | indeterminate => exact mirrors.resume simulates found

theorem mirrors_run (simulates : first.Simulates second ν known R) {b : β} {g : γ} (related : R b g)
    (rounds : List (String × String)) :
    (run first.round (.fresh b) rounds).Mirrors ν known R (run second.round (.fresh g) rounds) := by
  induction rounds using List.reverseRecOn with
  | nil => exact ⟨rfl, related, rfl, fun row member => by cases member⟩
  | append_singleton rounds call ih =>
      rw [run_concat, run_concat]
      exact (ih.executePayment simulates call.1 call.2).1

end

/-- The mode of a `GenericBackend` that injects the fault of a facilitator's mode. -/
def Mode.generic : Mode → GenericMode
  | .clean => .clean
  | .declaredSafe => .declaredIdempotent
  | .acceptThenTimeout => .writeThenTimeout
  | .fivexxAfterSettle => .errorAfterWrite
  | .slowAnswer => .clientTimeout
  | .reconcileUnavailable => .reconcileUnavailable
  | .double402 => .reissueInsteadOfResume

/-- The references of the facilitator, each with that of the generic backend. -/
def recordIds : List (String × String) :=
  [("0xCLEAN", "rec-CLEAN"), ("0xDSAFE", "rec-DSAFE"), ("0xATT", "rec-WTT"), ("0xATT_DUP", "rec-WTT_DUP"),
    ("0x5XX", "rec-EAW"), ("0x5XX_DUP", "rec-EAW_DUP"), ("0xSLOW", "rec-CTO"), ("0xSLOW_DUP", "rec-CTO_DUP"),
    ("0xRECU", "rec-RECU"), ("0xRECU_DUP", "rec-RECU_DUP"), ("0xD402", "rec-REISSUE")]

def recordId (tx : String) : String := (recordIds.lookup tx).getD tx

/-- A reference that a facilitator writes. -/
def Issued (tx : String) : Prop := tx ∈ recordIds.map Prod.fst

/-- The generic backend holds what the facilitator does, under its own names. -/
structure MockFacilitator.Alike (f : MockFacilitator) (g : GenericBackend) : Prop where
  mode : g.mode = f.mode.generic
  ledger : g.ledger = f.ledger.map fun entry => ⟨entry.signature, recordId entry.tx⟩
  settleCalls : g.settleCalls = f.settleCalls
  reconcileCalls : g.reconcileCalls = f.reconcileCalls
  issued : ∀ entry ∈ f.ledger, Issued entry.tx

theorem recordId_injective {tx other : String} (issued : Issued tx) (issued' : Issued other)
    (same : recordId tx = recordId other) : tx = other := by
  have all : ∀ tx ∈ recordIds.map Prod.fst, ∀ other ∈ recordIds.map Prod.fst,
      recordId tx = recordId other → tx = other := by decide +kernel
  exact all tx issued other issued' same

theorem recordId_named {tx : String} (issued : Issued tx) : recordId tx = "" ↔ tx = "" := by
  have all : ∀ tx ∈ recordIds.map Prod.fst, (recordId tx = "" ↔ tx = "") := by decide +kernel
  exact all tx issued

namespace MockFacilitator
variable {f : MockFacilitator} {g : GenericBackend} {signature : String}

/-- What `settle` answers and leaves, under the names of the generic backend. -/
def Answers (answer : Except Fault SettleResult × MockFacilitator)
    (other : Except Fault SettleResult × GenericBackend) : Prop :=
  answer.2.Alike other.2 ∧ other.1 = renamed recordId (SettleResult.rename recordId) answer.1 ∧
    ∀ fault ref, answer.1 = .error fault → fault.lost? = some (some ref) → Issued ref

theorem Alike.write (alike : f.Alike g) (signature : String) {tx : String} (issued : Issued tx) :
    (f.write signature tx).Alike (g.write signature (recordId tx)) where
  mode := alike.mode
  ledger := by
    change g.ledger ++ [_] = (f.ledger ++ [_]).map _
    rw [alike.ledger, List.map_append]
    rfl
  settleCalls := alike.settleCalls
  reconcileCalls := alike.reconcileCalls
  issued entry member := by
    rcases List.mem_append.mp member with earlier | last
    · exact alike.issued entry earlier
    · rw [List.mem_singleton.mp last]
      exact issued

theorem Alike.returns (alike : f.Alike g) {tx : String} (declaredSafe : Bool) (issued : Issued tx) :
    Answers (.ok ⟨tx, declaredSafe⟩, f.write signature tx)
      (.ok ⟨recordId tx, declaredSafe⟩, g.write signature (recordId tx)) :=
  ⟨alike.write signature issued, rfl, fun _ _ failed => by cases failed⟩

/-- A fault that carries no reference. -/
theorem Alike.raises (alike : f.Alike g) {fault : Fault} (bare : ∀ ref, fault.lost? ≠ some (some ref)) :
    Answers (.error fault, f) (.error (fault.rename recordId), g) :=
  ⟨alike, rfl, fun _ ref failed lost => (bare ref (Except.error.inj failed ▸ lost)).elim⟩

theorem Alike.loseFirst (alike : f.Alike g) {fault : Fault} {tx again : String} (issued : Issued tx)
    (issued' : Issued again) (raised : ∀ ref, fault.lost? = some (some ref) → Issued ref) :
    Answers (f.loseFirst signature fault tx again)
      (g.loseFirst signature (fault.rename recordId) (recordId tx) (recordId again)) := by
  unfold MockFacilitator.loseFirst GenericBackend.loseFirst
  rw [alike.settleCalls]
  split
  · exact ⟨alike.write signature issued, rfl, fun _ ref failed lost => raised ref (Except.error.inj failed ▸ lost)⟩
  · exact alike.returns true issued'

theorem Alike.settleNew (alike : f.Alike g) (signature : String) :
    Answers (f.settleNew signature) (g.settleNew signature) := by
  have issued : ∀ tx, tx ∈ recordIds.map Prod.fst → Issued tx := fun _ member => member
  unfold MockFacilitator.settleNew GenericBackend.settleNew
  rw [alike.mode, alike.settleCalls]
  cases f.mode with
  | clean => exact alike.returns false (issued "0xCLEAN" (by decide))
  | declaredSafe => exact alike.returns true (issued "0xDSAFE" (by decide))
  | acceptThenTimeout =>
      exact alike.loseFirst (issued "0xATT" (by decide)) (issued "0xATT_DUP" (by decide)) fun ref lost => by
        cases lost
        exact issued "0xATT" (by decide)
  | fivexxAfterSettle =>
      exact alike.loseFirst (issued "0x5XX" (by decide)) (issued "0x5XX_DUP" (by decide)) fun ref lost => by cases lost
  | slowAnswer =>
      exact alike.loseFirst (issued "0xSLOW" (by decide)) (issued "0xSLOW_DUP" (by decide)) fun ref lost => by
        cases lost
  | reconcileUnavailable =>
      exact alike.loseFirst (issued "0xRECU" (by decide)) (issued "0xRECU_DUP" (by decide)) fun ref lost => by
        cases lost
        exact issued "0xRECU" (by decide)
  | double402 =>
      dsimp only [Mode.generic]
      split
      · exact alike.raises fun ref lost => by cases lost
      split
      · exact alike.raises fun ref lost => by cases lost
      · exact alike.returns false (issued "0xD402" (by decide))

theorem Alike.settle (alike : f.Alike g) (authorization : Authorization) :
    Answers (MockFacilitator.settle authorization f) (GenericBackend.settle authorization g) := by
  have counted : MockFacilitator.Alike { f with settleCalls := f.settleCalls + 1 }
      { g with settleCalls := g.settleCalls + 1 } :=
    ⟨alike.mode, alike.ledger, congrArg (· + 1) alike.settleCalls, alike.reconcileCalls, alike.issued⟩
  have searched : (g.ledger.find? fun entry => entry.key = authorization.signature) =
      (f.ledger.find? fun entry => entry.signature = authorization.signature).map fun entry =>
        ⟨entry.signature, recordId entry.tx⟩ := by
    rw [alike.ledger, List.find?_map]
    rfl
  unfold MockFacilitator.settle GenericBackend.settle
  dsimp only
  rw [searched]
  cases found : f.ledger.find? fun entry => entry.signature = authorization.signature with
  | none => exact counted.settleNew authorization.signature
  | some existing => exact ⟨counted, rfl, fun _ _ failed => by cases failed⟩

theorem Alike.reconcile (alike : f.Alike g) {ref : String} (issued : Issued ref) :
    (MockFacilitator.reconcile ref f).2.Alike (GenericBackend.reconcile (recordId ref) g).2 ∧
      (GenericBackend.reconcile (recordId ref) g).1 =
        renamed recordId (Option.map recordId) (MockFacilitator.reconcile ref f).1 := by
  have counted : MockFacilitator.Alike { f with reconcileCalls := f.reconcileCalls + 1 }
      { g with reconcileCalls := f.reconcileCalls + 1 } :=
    ⟨alike.mode, alike.ledger, alike.settleCalls, rfl, alike.issued⟩
  -- No two references of the ledger have one record id.
  have searched : (g.ledger.find? fun entry => entry.recordId = recordId ref) =
      (f.ledger.find? fun entry => entry.tx = ref).map fun entry => ⟨entry.signature, recordId entry.tx⟩ := by
    rw [alike.ledger, List.find?_map, ← List.head?_filter, ← List.head?_filter]
    congr 2
    apply List.filter_congr
    intro entry member
    have apart := recordId_injective (alike.issued entry member) issued
    exact decide_eq_decide.mpr ⟨apart, fun same => congrArg recordId same⟩
  have moded : g.mode = .reconcileUnavailable ↔ f.mode = .reconcileUnavailable := by
    rw [alike.mode]
    cases f.mode <;> simp [Mode.generic]
  unfold MockFacilitator.reconcile GenericBackend.reconcile
  dsimp only
  rw [alike.reconcileCalls, searched]
  by_cases down : f.mode = .reconcileUnavailable ∧ f.reconcileCalls + 1 = 1
  · rw [if_pos down, if_pos ⟨moded.mpr down.1, down.2⟩]
    exact ⟨counted, rfl⟩
  · rw [if_neg down, if_neg fun up => down ⟨moded.mp up.1, up.2⟩]
    refine ⟨counted, ?_⟩
    cases f.ledger.find? fun entry => entry.tx = ref <;> rfl

end MockFacilitator

theorem simulates_mockFacilitator :
    mockFacilitator.Simulates genericBackend recordId Issued MockFacilitator.Alike where
  settle alike authorization := alike.settle authorization
  reconcile alike _ issued := alike.reconcile issued
  ledger {f g} alike := by
    change g.ledger.map _ = f.ledger.map _
    rw [alike.ledger, List.map_map]
    rfl
  named _ issued := recordId_named issued

/-- The client ends over the generic backend as it does over the facilitator. -/
theorem mirrors_battery (mode : Mode) (rounds : List (String × String)) :
    (run mockFacilitator.round (.fresh ⟨mode, [], 0, 0⟩) rounds).Mirrors recordId Issued MockFacilitator.Alike
      (run genericBackend.round (.fresh ⟨mode.generic, [], 0, 0⟩) rounds) :=
  mirrors_run simulates_mockFacilitator ⟨rfl, rfl, rfl, rfl, fun _ member => by cases member⟩ rounds

/-- In every mode, and for rounds of any keys, the records, the calls and the ledger are the
same over the two backends, under other names, and so is what a further round answers. -/
def RunsAlike (mode : Mode) (rounds : List (String × String)) : Prop :=
  let c := run mockFacilitator.round (.fresh ⟨mode, [], 0, 0⟩) rounds
  let d := run genericBackend.round (.fresh ⟨mode.generic, [], 0, 0⟩) rounds
  d.store.rows = c.store.rows.map (Record.rename recordId) ∧
    d.calls = c.calls.map (fun call => (call.1, call.2.rename recordId)) ∧
    d.backend.ledger = c.backend.ledger.map (fun entry => ⟨entry.signature, recordId entry.tx⟩) ∧
    d.backend.settleCalls = c.backend.settleCalls ∧ d.backend.reconcileCalls = c.backend.reconcileCalls ∧
    ∀ key resource, (executePayment genericBackend d key resource).1 =
      renamed recordId (Option.map (Record.rename recordId)) (executePayment mockFacilitator c key resource).1

theorem runsAlike (mode : Mode) (rounds : List (String × String)) : RunsAlike mode rounds := by
  have mirrors := mirrors_battery mode rounds
  exact ⟨mirrors.store, mirrors.calls, mirrors.backend.ledger, mirrors.backend.settleCalls,
    mirrors.backend.reconcileCalls,
    fun key resource => (mirrors.executePayment simulates_mockFacilitator key resource).2⟩

end Argentum.Settlement
