import Argentum.Community.Marketplace

/-! The MCP tools against the REST endpoints they were copied from, on one
database and for callers who sign nothing. The copies drop the marks gate, the
daily cap, the karma floor and the unsigned discount, and pay for unsigned
executions: they agree for the genesis attestors, and where nothing is paid. -/
namespace Argentum.Community
open Argentum

/-- An attestation that no guard common to both surfaces refuses. -/
def Attestable (db : Database) (attestId actionId attesterId : String) : Prop :=
  db.attestations.find? attestId = none ∧ ∃ action, db.actions.find? actionId = some action ∧
    action.status ≠ .verified ∧ action.entityId ≠ attesterId ∧
    db.hasAttested actionId attesterId = false

/-- MCP accepts nothing that unsigned REST refuses, and where both accept they
leave the same weight, status and wisdom. -/
def AttestSurfacesAgree [SqliteSum] (db : Database) (now : Instant)
    (attestId actionId attesterId attesterName : String) (timestamp : Option Int)
    (nonce : Option String) (markCount : Nat) (verified : Bool) : Prop :=
  ∀ mcp, Mcp.attestAction db now attestId actionId attesterId attesterName = .ok mcp →
    ∃ rest, Rest.attestAction db now attestId actionId
        ⟨attesterId, attesterName, ⟨none, timestamp, nonce⟩⟩ markCount verified = .ok rest ∧
      (rest.db.attestations.find? attestId).map Attestation.weight =
        (mcp.db.attestations.find? attestId).map Attestation.weight ∧
      rest.db.statusOf actionId = mcp.db.statusOf actionId ∧ rest.db.wisdom = mcp.db.wisdom

/-- An execution that both surfaces record as a success. -/
def RecordsSuccess (db : Database) (execId trailId status : String) : Prop :=
  status = "success" ∧ (∃ trail, db.trails.find? trailId = some trail) ∧
    db.trailExecutions.find? execId = none

def Database.exactKarma (db : Database) (k : String) : ℚ :=
  ((db.wisdom.find? k).map Wisdom.karma).getD 0

/-- MCP and unsigned REST leave every entity with the same karma. -/
def TrailSurfacesAgree (db : Database) (now : Instant) (execId trailId executorId executorName status
    outputHash paymentHash : String) (timestamp : Option Int) (nonce : Option String)
    (verified : Bool) : Prop :=
  ∀ k, (db.commit (Mcp.executeTrail db now execId trailId executorId executorName status outputHash
      paymentHash)).exactKarma k =
    (db.commit (Rest.recordTrailExecution db now execId trailId
      ⟨executorId, executorName, status, Mcp.orNone outputHash, Mcp.orNone paymentHash,
        ⟨none, timestamp, nonce⟩⟩ verified)).exactKarma k

section
variable [SqliteSum] {db : Database} {now : Instant} {attestId actionId attesterId attesterName : String}
  {timestamp : Option Int} {nonce : Option String} {markCount : Nat} {verified : Bool}

theorem mcp_attestAction_isOk_iff :
    (∃ mcp, Mcp.attestAction db now attestId actionId attesterId attesterName = .ok mcp) ↔
      Attestable db attestId actionId attesterId := by
  constructor
  · rintro ⟨mcp, done⟩
    obtain ⟨action, attested, checked, committed, _⟩ := Mcp.attestAction_ok done
    exact ⟨commitAttestation_isOk_iff.mp ⟨attested, committed⟩, action,
      Mcp.attestChecks_eq_ok_iff.mp checked⟩
  · rintro ⟨fresh, action, guards⟩
    have checked := Mcp.attestChecks_eq_ok_iff.mpr guards
    have done : ∃ attested, commitAttestation db now attestId actionId action attesterId attesterName
        (Mcp.attestWeight db attesterId) = .ok attested := commitAttestation_isOk_iff.mpr fresh
    obtain ⟨attested, committed⟩ := done
    simp [Mcp.attestAction, checked, committed]

/-- The weight MCP stores. -/
theorem mcp_attestAction_weight {mcp : Outcome Mcp.AttestResponse}
    (done : Mcp.attestAction db now attestId actionId attesterId attesterName = .ok mcp) :
    (mcp.db.attestations.find? attestId).map Attestation.weight =
      some (Mcp.attestWeight db attesterId) := by
  obtain ⟨_, attested, _, committed, written, _⟩ := Mcp.attestAction_ok done
  rw [written, commitAttestation_find? committed]
  rfl

/-- The weight REST stores for an unsigned attester outside the genesis set. -/
theorem rest_attestAction_weight (outside : attesterId ∉ genesisAttestors)
    {rest : Outcome AttestResponse}
    (done : Rest.attestAction db now attestId actionId
      ⟨attesterId, attesterName, ⟨none, timestamp, nonce⟩⟩ markCount verified = .ok rest) :
    (rest.db.attestations.find? attestId).map Attestation.weight =
      some (karmaWeight (db.karmaOf attesterId) * (1 / 2)) := by
  unfold Rest.attestAction at done
  split at done
  · contradiction
  obtain ⟨attesterKarma, weight, attested, granted, committed, written, _⟩ := Rest.attestFinish_ok done
  simp only [Rest.attestWeight, outside, if_false, verifyAgentSignature_unsigned,
    Bool.false_eq_true] at granted
  split_ifs at granted
  cases granted
  rw [written, commitAttestation_find? committed]
  rfl

theorem attestSurfacesAgree_iff :
    AttestSurfacesAgree db now attestId actionId attesterId attesterName timestamp nonce markCount verified ↔
      attesterId ∈ genesisAttestors ∨ ¬ Attestable db attestId actionId attesterId := by
  constructor
  · intro agree
    by_contra differ
    obtain ⟨outside, attestable⟩ := not_or.mp differ
    obtain ⟨mcp, accepted⟩ := mcp_attestAction_isOk_iff.mpr (not_not.mp attestable)
    obtain ⟨rest, done, same, _⟩ := agree mcp accepted
    rw [rest_attestAction_weight outside done, mcp_attestAction_weight accepted, Mcp.attestWeight,
      if_neg outside, Option.some.injEq] at same
    linarith [karmaWeight_pos (db.karmaOf attesterId)]
  · rintro (genesis | refused) mcp accepted
    · obtain ⟨action, attested, checked, committed, written, _⟩ := Mcp.attestAction_ok accepted
      obtain ⟨found, unverified, other, unattested⟩ := Mcp.attestChecks_eq_ok_iff.mp checked
      have restChecked : Rest.attestChecks db now actionId
          ⟨attesterId, attesterName, ⟨none, timestamp, nonce⟩⟩ = .ok action :=
        Rest.attestChecks_eq_ok_iff.mpr
          ⟨found, unverified, other, unattested, fun outside => absurd genesis outside⟩
      rw [Mcp.attestWeight, if_pos genesis] at committed
      have granted : Rest.attestWeight db ⟨attesterId, attesterName, ⟨none, timestamp, nonce⟩⟩
          markCount verified = .ok (0, 1) := if_pos genesis
      obtain ⟨rest, done, same⟩ := Rest.attestAction_of_checks restChecked granted committed
      refine ⟨rest, done, ?_⟩
      rw [written, same]
      exact ⟨rfl, rfl, rfl⟩
    · exact absurd (mcp_attestAction_isOk_iff.mp ⟨mcp, accepted⟩) refused

end

section
variable {db : Database} {now : Instant} {execId trailId executorId executorName status outputHash
  paymentHash : String} {timestamp : Option Int} {nonce : Option String} {verified : Bool}

/-- What a tool or endpoint does to the wisdom table, if it records an execution. -/
theorem commit_commitExecution {R : Type} {row : TrailExecution} {trail : Trail} {karmaReward : Int}
    {report : Database → Outcome R} (reports : ∀ committed, (report committed).db = committed) :
    (db.commit ((commitExecution db now row trail karmaReward).map report)).wisdom =
      if db.trailExecutions.find? row.id = none then rewardAuthor db.wisdom now trail karmaReward
      else db.wisdom := by
  have committed : (∃ next, commitExecution db now row trail karmaReward = .ok next) ↔
      db.trailExecutions.find? row.id = none := commitExecution_isOk_iff
  cases result : commitExecution db now row trail karmaReward with
  | error failure =>
      rw [if_neg]
      · rfl
      · intro fresh
        obtain ⟨next, done⟩ := committed.mpr fresh
        rw [result] at done
        cases done
  | ok next =>
      rw [if_pos (committed.mp ⟨next, result⟩), ← commitExecution_wisdom result]
      exact congrArg Database.wisdom (reports next)

/-- Unsigned REST pays nobody. -/
theorem recordTrailExecution_unsigned (req : ExecutionRequest) (unsigned : req.credentials = ⟨none, timestamp, nonce⟩) :
    (db.commit (Rest.recordTrailExecution db now execId trailId req verified)).wisdom = db.wisdom := by
  unfold Rest.recordTrailExecution
  split
  · rfl
  split
  · rfl
  simp only [unsigned, verifyAgentSignature_unsigned, Bool.false_eq_true, and_false, if_false]
  rw [commit_commitExecution fun _ => rfl]
  simp [rewardAuthor]

/-- MCP pays the author of every success it records. -/
theorem executeTrail_success {trail : Trail} (found : db.trails.find? trailId = some trail)
    (fresh : db.trailExecutions.find? execId = none) :
    (db.commit (Mcp.executeTrail db now execId trailId executorId executorName "success" outputHash
      paymentHash)).wisdom =
      upsertWisdom db.wisdom trail.authorId trail.authorName "unknown" trailAuthorKarmaReward false false
        (some now) := by
  have success : ExecutionStatus.parse "success" = some .success := rfl
  simp only [Mcp.executeTrail, success, found, if_true]
  rw [commit_commitExecution fun _ => rfl, if_pos fresh]
  rfl

/-- And nobody else. -/
theorem executeTrail_other (other : ¬ RecordsSuccess db execId trailId status) :
    (db.commit (Mcp.executeTrail db now execId trailId executorId executorName status outputHash
      paymentHash)).wisdom = db.wisdom := by
  unfold Mcp.executeTrail
  split
  · rfl
  rename_i parsed result
  split
  · rfl
  rename_i trail found
  dsimp only
  rw [commit_commitExecution fun _ => rfl]
  split_ifs with fresh success
  · subst success
    exact absurd ⟨(ExecutionStatus.parse_eq_success_iff status).mp result, ⟨trail, found⟩, fresh⟩ other
  · simp [rewardAuthor]
  · rfl

theorem exactKarma_upsertWisdom (entityId entityName entityType : String) (karmaDelta : ℚ)
    (action attestation : Bool) (lastAction : Option Instant) :
    ({ db with
      wisdom := upsertWisdom db.wisdom entityId entityName entityType karmaDelta action attestation
        lastAction } : Database).exactKarma entityId = db.exactKarma entityId + karmaDelta := by
  simp [Database.exactKarma, find?_upsertWisdom, Wisdom.karma, upserted_karma]

theorem trailSurfacesAgree_iff :
    TrailSurfacesAgree db now execId trailId executorId executorName status outputHash paymentHash
      timestamp nonce verified ↔ ¬ RecordsSuccess db execId trailId status := by
  have same_karma : ∀ {first second : Database} (k : String), first.wisdom = second.wisdom →
      first.exactKarma k = second.exactKarma k := by
    intro first second k same
    rw [Database.exactKarma, same, Database.exactKarma]
  constructor
  · rintro agree ⟨rfl, ⟨trail, found⟩, fresh⟩
    have paid := agree trail.authorId
    rw [same_karma _ (recordTrailExecution_unsigned _ rfl)] at paid
    have rewarded : (db.commit (Mcp.executeTrail db now execId trailId executorId executorName
        "success" outputHash paymentHash)).exactKarma trail.authorId =
        db.exactKarma trail.authorId + trailAuthorKarmaReward :=
      (same_karma _ (executeTrail_success found fresh)).trans (exactKarma_upsertWisdom ..)
    rw [rewarded, trailAuthorKarmaReward] at paid
    norm_num at paid
  · intro other k
    exact same_karma k ((executeTrail_other other).trans (recordTrailExecution_unsigned _ rfl).symm)

end

/-- The MCP copies agree with unsigned REST exactly for the genesis attestors,
for attestations both refuse, and where no success is recorded. -/
theorem surfacesAgree_iff [SqliteSum] (db : Database) (now : Instant)
    (attestId actionId attesterId attesterName : String) (timestamp : Option Int)
    (nonce : Option String) (markCount : Nat) (verified : Bool)
    (execId trailId executorId executorName status outputHash paymentHash : String) :
    (AttestSurfacesAgree db now attestId actionId attesterId attesterName timestamp nonce markCount
        verified ↔
      attesterId ∈ genesisAttestors ∨ ¬ Attestable db attestId actionId attesterId) ∧
    (TrailSurfacesAgree db now execId trailId executorId executorName status outputHash paymentHash
        timestamp nonce verified ↔
      ¬ RecordsSuccess db execId trailId status) :=
  ⟨attestSurfacesAgree_iff, trailSurfacesAgree_iff⟩

/-- An action and a trail by one poster. -/
def listedTrail : Database :=
  { Database.empty with
    actions := ⟨[⟨"act", "poster", "Poster", "agent", .pending, 20, none⟩], List.nodup_singleton _⟩
    trails := ⟨[⟨"trail", "poster", "Poster", 0, 0, 0, 0⟩], List.nodup_singleton _⟩ }

open Sqlite in
/-- MCP takes an attestation from a caller without a mark, whom REST refuses,
and pays three karma for an unsigned execution. -/
theorem not_surfacesAgree_listedTrail :
    ¬ AttestSurfacesAgree listedTrail 10 "att-1" "act" "carol" "Carol" none none 0 false ∧
    ¬ TrailSurfacesAgree listedTrail 10 "exec-1" "trail" "carol" "Carol" "success" "" "" none none
      false := by
  constructor
  · intro agree
    have accepted : (Mcp.attestAction listedTrail 10 "att-1" "act" "carol" "Carol").isOk = true := by
      decide +kernel
    have refused : (Rest.attestAction listedTrail 10 "att-1" "act"
        ⟨"carol", "Carol", ⟨none, none, none⟩⟩ 0 false).isOk = false := by decide +kernel
    cases mcp : Mcp.attestAction listedTrail 10 "att-1" "act" "carol" "Carol" with
    | error failure =>
        rw [mcp] at accepted
        cases accepted
    | ok outcome =>
        obtain ⟨rest, done, _⟩ := agree outcome mcp
        rw [done] at refused
        cases refused
  · intro agree
    exact absurd (agree "poster") (by decide +kernel)

end Argentum.Community
