import Argentum.Community.Confluence
import Argentum.Community.Conservation

/-! The two limits on attestations, one row for an action and attester and a
daily cap outside the genesis set, under interleaved REST requests. Both are
read before the await and written after it, and no constraint of the table
repeats them: they hold of the runs in which no request is overtaken, between
its checks and its insert, by another one of its attester. -/
namespace Argentum.Community
open Argentum Transition

/-- The rows of an action by one attester. -/
def Database.pairCount (db : Database) (a attesterId : String) : Nat :=
  db.attestations.rows.countP fun row => row.actionId = a ∧ row.attesterId = attesterId

/-- The rows of an attester created on a UTC day. -/
def Database.dayCount (db : Database) (attesterId : String) (day : Nat) : Nat :=
  db.attestations.rows.countP fun row => row.attesterId = attesterId ∧ utcDay row.createdAt = day

structure Limited (db : Database) : Prop where
  once : ∀ a attesterId, db.pairCount a attesterId ≤ 1
  daily : ∀ attesterId, attesterId ∉ genesisAttestors → ∀ day,
    db.dayCount attesterId day ≤ maxAttestationsPerDay

def Op.IsRestAttest : Op → Prop
  | .attestBegin .. | .attestResume .. => True
  | _ => False

/-- When a suspended request was checked: the day, and how many rows the table had. -/
structure Check where
  day : Nat
  rows : Nat

/-- The server, with the check of each suspended request in their order. No handler
reads it. -/
structure Watched where
  system : System
  checks : List Check

def Watched.step [SqliteSum] (s : Watched) (op : Op) : Watched where
  system := s.system.step op
  checks :=
    match op with
    | .attestBegin now .. =>
        -- a request that suspends is the last of the list
        s.checks ++ List.replicate ((s.system.step op).suspended.length - s.system.suspended.length)
          ⟨utcDay now, s.system.db.attestations.rows.length⟩
    | .attestResume index .. => s.checks.eraseIdx index
    | _ => s.checks

/-- A resumed request that inserts its row was not overtaken: no row of its attester
was inserted since its checks, and the clock did not go back to a day before them. -/
def NotOvertaken (s : Watched) (op : Op) : Prop :=
  op.IsRestAttest ∧ ∀ index now attestId markCount verified request check,
    op = .attestResume index now attestId markCount verified → s.system.suspended[index]? = some request →
    s.checks[index]? = some check → s.system.attests op ≠ none →
    check.day ≤ utcDay now ∧
      ∀ row ∈ s.system.db.attestations.rows.drop check.rows, row.attesterId ≠ request.req.attesterId

section
variable {db next : Database} {row : Attestation}

theorem pairCount_of_hasAttested {a attesterId : String} (unattested : db.hasAttested a attesterId = false) :
    db.pairCount a attesterId = 0 := by
  simpa [Database.pairCount, List.countP_eq_zero, Database.hasAttested] using unattested

/-- A row within both limits keeps the table within them. -/
theorem Limited.insert (limited : Limited db)
    (rows : next.attestations.rows = db.attestations.rows ++ [row])
    (unattested : db.hasAttested row.actionId row.attesterId = false)
    (room : row.attesterId ∉ genesisAttestors →
      db.dayCount row.attesterId (utcDay row.createdAt) < maxAttestationsPerDay) : Limited next where
  once a attesterId := by
    have counted : next.pairCount a attesterId = db.pairCount a attesterId +
        if row.actionId = a ∧ row.attesterId = attesterId then 1 else 0 := by
      rw [Database.pairCount, rows, List.countP_append, List.countP_singleton, Database.pairCount]
      simp
    rw [counted]
    split_ifs with same
    · obtain ⟨rfl, rfl⟩ := same
      rw [pairCount_of_hasAttested unattested]
    · exact limited.once a attesterId
  daily attesterId outside day := by
    have counted : next.dayCount attesterId day = db.dayCount attesterId day +
        if row.attesterId = attesterId ∧ utcDay row.createdAt = day then 1 else 0 := by
      rw [Database.dayCount, rows, List.countP_append, List.countP_singleton, Database.dayCount]
      simp
    rw [counted]
    split_ifs with same
    · obtain ⟨rfl, rfl⟩ := same
      exact room outside
    · exact limited.daily attesterId outside day

end

/-- What the checks of a request saw of the table: its attester had not attested the
action, and had room on every day from that of the checks on. -/
structure Check.Covers (check : Check) (rows : List Attestation) (request : Suspended) : Prop where
  within : check.rows ≤ rows.length
  unattested : ∀ row ∈ rows.take check.rows,
    ¬ (row.actionId = request.actionId ∧ row.attesterId = request.req.attesterId)
  room : (rows.take check.rows).countP (fun row =>
    row.attesterId = request.req.attesterId ∧ check.day ≤ utcDay row.createdAt) < maxAttestationsPerDay

section
variable {db : Database} {check : Check} {rows : List Attestation} {request : Suspended}

/-- A later row is none that the checks saw. -/
theorem Check.Covers.append (covers : check.Covers rows request) (row : Attestation) :
    check.Covers (rows ++ [row]) request := by
  obtain ⟨within, unattested, room⟩ := covers
  have seen : (rows ++ [row]).take check.rows = rows.take check.rows := List.take_append_of_le_length within
  exact ⟨by rw [List.length_append]; omega, by rwa [seen], by rwa [seen]⟩

/-- The checks of a request that suspends cover the table they read. -/
theorem covers_of_attestChecks {now : Instant} {actionId : String} {req : AttestRequest} {action : Action}
    (checked : Rest.attestChecks db now actionId req = .ok action) (outside : req.attesterId ∉ genesisAttestors) :
    Check.Covers ⟨utcDay now, db.attestations.rows.length⟩ db.attestations.rows ⟨actionId, req, action⟩ := by
  obtain ⟨_, _, _, unattested, room⟩ := Rest.attestChecks_eq_ok_iff.mp checked
  refine ⟨le_rfl, fun row member => ?_, ?_⟩
  · rw [List.take_length] at member
    simpa using List.any_eq_false.mp unattested row member
  · rw [List.take_length]
    simpa [Database.todayCount, todayStart_le_iff] using room outside

/-- What the checks saw is still so of a request that was not overtaken. -/
theorem Check.Covers.still (covers : check.Covers db.attestations.rows request)
    (others : ∀ row ∈ db.attestations.rows.drop check.rows, row.attesterId ≠ request.req.attesterId) :
    db.hasAttested request.actionId request.req.attesterId = false ∧ ∀ day, check.day ≤ day →
      db.dayCount request.req.attesterId day < maxAttestationsPerDay := by
  have rows := List.take_append_drop check.rows db.attestations.rows
  constructor
  · refine List.any_eq_false.mpr fun row member => ?_
    rw [← rows] at member
    rcases List.mem_append.mp member with seen | later
    · simpa using covers.unattested row seen
    · simp [others row later]
  · intro day later
    have none : (db.attestations.rows.drop check.rows).countP (fun row =>
        row.attesterId = request.req.attesterId ∧ utcDay row.createdAt = day) = 0 :=
      List.countP_eq_zero.mpr fun row member => by simp [others row member]
    rw [Database.dayCount, ← rows, List.countP_append, none, add_zero]
    refine (List.countP_mono_left fun row _ written => ?_).trans_lt covers.room
    simp only [decide_eq_true_eq] at written ⊢
    exact ⟨written.1, written.2 ▸ later⟩

end

section
variable [SqliteSum]

/-- One finished request keeps the limits when its row is within them. -/
theorem limited_attestFinish {s : System} {now : Instant} {attestId actionId : String} {action : Action}
    {req : AttestRequest} {markCount : Nat} {verified : Bool} (limited : Limited s.db)
    (within : ∀ attesterKarma weight,
      Rest.attestWeight s.db req markCount verified = .ok (attesterKarma, weight) →
      s.db.attestations.find? attestId = none →
      s.db.hasAttested actionId req.attesterId = false ∧ (req.attesterId ∉ genesisAttestors →
        s.db.dayCount req.attesterId (utcDay now) < maxAttestationsPerDay)) :
    Limited (s.commit (Rest.attestFinish s.db now attestId actionId action req markCount verified)).db := by
  cases result : Rest.attestFinish s.db now attestId actionId action req markCount verified with
  | error failure => exact limited
  | ok outcome =>
      obtain ⟨attesterKarma, weight, attested, granted, committed, db, _⟩ := Rest.attestFinish_ok result
      obtain ⟨unattested, room⟩ := within _ _ granted (commitAttestation_isOk_iff.mp ⟨attested, committed⟩)
      have rows : (s.commit (.ok outcome)).db.attestations.rows = _ :=
        (congrArg (fun db : Database => db.attestations.rows) db).trans
          (commitAttestation_attestations committed)
      exact limited.insert rows unattested room

/-- A finished request adds a row or none, and leaves the suspended ones alone. -/
theorem rows_attestFinish (s : System) (now : Instant) (attestId actionId : String) (action : Action)
    (req : AttestRequest) (markCount : Nat) (verified : Bool) :
    let after := s.commit (Rest.attestFinish s.db now attestId actionId action req markCount verified)
    after.suspended = s.suspended ∧ (after.db.attestations.rows = s.db.attestations.rows ∨
      ∃ row, after.db.attestations.rows = s.db.attestations.rows ++ [row]) := by
  intro after
  cases result : Rest.attestFinish s.db now attestId actionId action req markCount verified with
  | error failure =>
      simp only [after, result]
      exact ⟨rfl, Or.inl rfl⟩
  | ok outcome =>
      simp only [after, result]
      obtain ⟨_, _, attested, _, committed, db, _⟩ := Rest.attestFinish_ok result
      exact ⟨rfl, Or.inr ⟨_, (congrArg (fun db : Database => db.attestations.rows) db).trans
        (commitAttestation_attestations committed)⟩⟩

/-- What a run keeps: the limits, and that the checks of each suspended request cover
what stood in the table then. -/
structure Watched.Sound (s : Watched) : Prop where
  limited : Limited s.system.db
  paired : s.checks.length = s.system.suspended.length
  covered : ∀ (index : Nat) (request : Suspended) (check : Check), s.system.suspended[index]? = some request →
    s.checks[index]? = some check → check.Covers s.system.db.attestations.rows request

section
variable {s : Watched}

omit [SqliteSum] in
/-- The requests that stay suspended are covered by a table that grew. -/
theorem Watched.Sound.grown (sound : s.Sound) {next : Watched} (index : Nat) (limited : Limited next.system.db)
    (suspended : next.system.suspended = s.system.suspended.eraseIdx index)
    (checks : next.checks = s.checks.eraseIdx index)
    (rows : next.system.db.attestations.rows = s.system.db.attestations.rows ∨
      ∃ row, next.system.db.attestations.rows = s.system.db.attestations.rows ++ [row]) : next.Sound where
  limited := limited
  paired := by rw [suspended, checks, List.length_eraseIdx, List.length_eraseIdx, sound.paired]
  covered place request check waiting watched := by
    rw [suspended, List.getElem?_eraseIdx] at waiting
    rw [checks, List.getElem?_eraseIdx] at watched
    have covers : check.Covers s.system.db.attestations.rows request := by
      split at waiting
      · rename_i before
        rw [if_pos before] at watched
        exact sound.covered _ _ _ waiting watched
      · rename_i before
        rw [if_neg before] at watched
        exact sound.covered _ _ _ waiting watched
    rcases rows with same | ⟨row, longer⟩
    · rwa [same]
    · rw [longer]
      exact covers.append row

omit [SqliteSum] in
/-- A request that does not suspend leaves the suspended ones as they are. -/
theorem Watched.Sound.passed (sound : s.Sound) {next : Watched} (limited : Limited next.system.db)
    (suspended : next.system.suspended = s.system.suspended) (checks : next.checks = s.checks)
    (rows : next.system.db.attestations.rows = s.system.db.attestations.rows ∨
      ∃ row, next.system.db.attestations.rows = s.system.db.attestations.rows ++ [row]) : next.Sound := by
  have length := sound.paired
  refine sound.grown s.checks.length limited ?_ ?_ rows
  · rw [suspended, List.eraseIdx_of_length_le length.ge]
  · rw [checks, List.eraseIdx_of_length_le le_rfl]

omit [SqliteSum] in
/-- A request that suspends is the last one, and its checks cover the table they read. -/
theorem Watched.Sound.suspend (sound : s.Sound) {request : Suspended} {check : Check}
    (covers : check.Covers s.system.db.attestations.rows request) :
    Watched.Sound ⟨s.system.suspend request, s.checks ++ [check]⟩ where
  limited := sound.limited
  paired := by simp [System.suspend, sound.paired]
  covered index other watched waiting seen := by
    simp only [System.suspend] at waiting seen ⊢
    rcases Nat.lt_or_ge index s.system.suspended.length with before | last
    · rw [List.getElem?_append_left before] at waiting
      rw [List.getElem?_append_left (sound.paired ▸ before)] at seen
      exact sound.covered index other watched waiting seen
    · rw [List.getElem?_append_right last, List.getElem?_singleton] at waiting
      rw [List.getElem?_append_right (sound.paired ▸ last), List.getElem?_singleton] at seen
      split at waiting
      · rename_i own
        rw [sound.paired, if_pos own] at seen
        cases waiting
        cases seen
        exact covers
      · cases waiting

theorem Watched.Sound.begin (sound : s.Sound) (now : Instant) (attestId actionId : String) (req : AttestRequest) :
    (s.step (.attestBegin now attestId actionId req)).Sound := by
  have started : (s.system.step (.attestBegin now attestId actionId req)) =
      s.system.attestBegin now attestId actionId req := rfl
  cases checked : Rest.attestChecks s.system.db now actionId req with
  | error failure =>
      have same : s.system.attestBegin now attestId actionId req = s.system := by
        rw [System.attestBegin, checked]
      refine sound.passed ?_ ?_ ?_ (Or.inl ?_)
      · simpa only [Watched.step, started, same] using sound.limited
      · simp only [Watched.step, started, same]
      · simp [Watched.step, started, same]
      · simp only [Watched.step, started, same]
  | ok action =>
      by_cases genesis : req.attesterId ∈ genesisAttestors
      · have finished : s.system.attestBegin now attestId actionId req =
            s.system.commit (Rest.attestFinish s.system.db now attestId actionId action req 0 false) := by
          rw [System.attestBegin, checked]
          exact if_pos genesis
        obtain ⟨_, _, _, unattested, _⟩ := Rest.attestChecks_eq_ok_iff.mp checked
        obtain ⟨suspended, rows⟩ := rows_attestFinish s.system now attestId actionId action req 0 false
        refine sound.passed ?_ ?_ ?_ ?_
        · simp only [Watched.step, started, finished]
          exact limited_attestFinish sound.limited fun _ _ _ _ =>
            ⟨unattested, fun outside => absurd genesis outside⟩
        · simpa only [Watched.step, started, finished] using suspended
        · simp [Watched.step, started, finished, suspended]
        · simpa only [Watched.step, started, finished] using rows
      · have waits : s.system.attestBegin now attestId actionId req =
            s.system.suspend ⟨actionId, req, action⟩ := by
          rw [System.attestBegin, checked]
          exact if_neg genesis
        have watched : s.step (.attestBegin now attestId actionId req) =
            ⟨s.system.suspend ⟨actionId, req, action⟩,
              s.checks ++ [⟨utcDay now, s.system.db.attestations.rows.length⟩]⟩ := by
          simp [Watched.step, started, waits, System.suspend]
        rw [watched]
        exact sound.suspend (covers_of_attestChecks checked genesis)

theorem Watched.Sound.resume (sound : s.Sound) {index : Nat} {now : Instant} {attestId : String} {markCount : Nat}
    {verified : Bool} (guarded : NotOvertaken s (.attestResume index now attestId markCount verified)) :
    (s.step (.attestResume index now attestId markCount verified)).Sound := by
  have started : (s.system.step (.attestResume index now attestId markCount verified)) =
      s.system.attestResume index now attestId markCount verified := rfl
  cases waiting : s.system.suspended[index]? with
  | none =>
      have same : s.system.attestResume index now attestId markCount verified = s.system := by
        rw [System.attestResume, waiting]
      have past := List.getElem?_eq_none_iff.mp waiting
      refine sound.passed ?_ ?_ ?_ (Or.inl ?_)
      · simpa only [Watched.step, started, same] using sound.limited
      · simp only [Watched.step, started, same]
      · exact List.eraseIdx_of_length_le (sound.paired ▸ past)
      · simp only [Watched.step, started, same]
  | some request =>
      have finished : s.system.attestResume index now attestId markCount verified =
          (s.system.release index).commit (Rest.attestFinish s.system.db now attestId request.actionId
            request.action request.req markCount verified) := by
        rw [System.attestResume, waiting]
      obtain ⟨suspended, rows⟩ := rows_attestFinish (s.system.release index) now attestId request.actionId
        request.action request.req markCount verified
      have inside : index < s.checks.length :=
        sound.paired ▸ (List.getElem?_eq_some_iff.mp waiting).1
      have watched : s.checks[index]? = some s.checks[index] := List.getElem?_eq_getElem inside
      refine sound.grown index ?_ ?_ rfl ?_
      · simp only [Watched.step, started, finished]
        refine limited_attestFinish (s := s.system.release index) sound.limited fun attesterKarma weight granted fresh => ?_
        have inserts : s.system.attests (.attestResume index now attestId markCount verified) ≠ none := by
          have granted : Rest.attestWeight s.system.db request.req markCount verified =
              .ok (attesterKarma, weight) := granted
          have fresh : s.system.db.attestations.find? attestId = none := fresh
          simp [System.attests, waiting, granted, fresh]
        obtain ⟨later, others⟩ := guarded.2 _ _ _ _ _ request _ rfl waiting watched inserts
        obtain ⟨unattested, room⟩ := (sound.covered index request _ waiting watched).still others
        exact ⟨unattested, fun _ => room _ later⟩
      · simp only [Watched.step, started, finished]
        exact suspended
      · simp only [Watched.step, started, finished]
        exact rows

theorem Watched.Sound.step (sound : s.Sound) {op : Op} (guarded : NotOvertaken s op) : (s.step op).Sound := by
  cases op with
  | attestBegin now attestId actionId req => exact sound.begin now attestId actionId req
  | attestResume index now attestId markCount verified => exact sound.resume guarded
  | submitAction | mcpAttestAction | paymentWebhook | reportAction | confirmSlash | openDispute
  | klerosRuling | creditKarma => exact guarded.1.elim

end

/-- The limits hold in every state interleaved requests reach, as long as no request is
overtaken by another one of its attester. -/
theorem limited_after {start : System} {ops : List Op} (idle : start.suspended = []) (limited : Limited start.db)
    (admitted : Admits Watched.step NotOvertaken ⟨start, []⟩ ops) : Limited (start.after ops).db := by
  have begun : Watched.Sound ⟨start, []⟩ := {
    limited
    paired := by simp [idle]
    covered := fun index request check waiting => by simp [idle] at waiting }
  have sound := admitted.invariant (fun _ _ sound guarded => Watched.Sound.step sound guarded) begun
  have seen : (run Watched.step ⟨start, []⟩ ops).system = start.after ops :=
    run_image Watched.system (fun _ _ => rfl) _ ops
  exact seen ▸ sound.limited

end

/-- A request of an attester for the action. -/
def attestation (attesterId : String) : AttestRequest := ⟨attesterId, attesterId, ⟨none, none, none⟩⟩

section
open Sqlite

/-- Two attesters whose requests overlap, and one attester whose requests do. -/
def attestApart : List Op :=
  [.attestBegin 10 "att-1" "act" (attestation "carol"), .attestBegin 11 "att-2" "act" (attestation "dave"),
    .attestResume 0 20 "att-1" 1 false, .attestResume 0 21 "att-2" 1 false]

def attestTwice : List Op :=
  [.attestBegin 10 "att-1" "act" (attestation "carol"), .attestBegin 11 "att-2" "act" (attestation "carol"),
    .attestResume 0 20 "att-1" 1 false, .attestResume 0 21 "att-2" 1 false]

theorem limited_postedAction : Limited postedAction.db where
  once _ _ := Nat.zero_le _
  daily _ _ _ := Nat.zero_le _

theorem limited_after_attestApart : Limited (postedAction.after attestApart).db := by
  refine limited_after rfl limited_postedAction ⟨⟨trivial, ?_⟩, ⟨trivial, ?_⟩, ⟨trivial, ?_⟩, ⟨trivial, ?_⟩, trivial⟩
  · intro _ _ _ _ _ _ _ same
    cases same
  · intro _ _ _ _ _ _ _ same
    cases same
  · intro _ _ _ _ _ request check same waiting watched _
    cases same
    cases waiting
    cases watched
    exact ⟨by decide +kernel, by decide +kernel⟩
  · intro _ _ _ _ _ request check same waiting watched _
    cases same
    cases waiting
    cases watched
    exact ⟨by decide +kernel, by decide +kernel⟩

theorem not_limited_after_attestTwice :
    Limited postedAction.db ∧ ¬ Limited (postedAction.after attestTwice).db := by
  refine ⟨limited_postedAction, fun limited => ?_⟩
  exact absurd (limited.once "act" "carol") (by decide +kernel)

end
end Argentum.Community
