import Argentum.Mycelium.Receipt

/-! `POST /external/trail`. The nonce is spent first, then the trail is recorded, and
karma is credited whether it was or not. A request is all-or-nothing where recording
is neither refused nor raises. -/
namespace Argentum.Mycelium
open Argentum Text Transition

def conformanceTier : List (String × ℚ) :=
  [("nexus", 1), ("aps", nearestDouble (7 / 10)), ("nobulex", nearestDouble (7 / 10))]

def karmaProviderWeight : ℚ := nearestDouble (7 / 10)

def karmaDefaultWeight : ℚ := nearestDouble (1 / 5)

/-- `(body.get(name) or default).strip()` -/
def textField (body : Json) (name default : String) : Except Raised Str :=
  match (body.get (ofString name)).or (.str (ofString default)) with
  | .str s => .ok (strip s)
  | _ => .error .attributeError

/-- `re.fullmatch(r"[0-9a-f]{64}", s)` -/
def isActionRef (s : Str) : Bool := s.length = 64 && s.all fun c => isDigit c || (97 ≤ c.val && c.val ≤ 102)

structure ExternalRequest where
  actionRef : String
  apiKey : Str
  service : Str
  operation : Str

/-- The checks of the body. -/
def readExternal (body : Json) : Except Raised (Except Refusal ExternalRequest) :=
  if !body.isDict then .error .attributeError
  else do
    let actionRef ← textField body "action_ref" ""
    let apiKey ← textField body "api_key" ""
    let service ← textField body "service" "external"
    let operation ← textField body "operation" "action"
    if actionRef = [] ∨ apiKey = [] then return .error ⟨400, "action_ref, api_key required"⟩
    else if !isActionRef actionRef then return .error ⟨422, "action_ref must be 64 hex chars (SHA-256)"⟩
    else do
      let actionRef ← bindStr actionRef
      return .ok ⟨actionRef, apiKey, service, operation⟩

/-- `(account.get("conformance_source") or "").strip().lower()` -/
def conformanceSource (lower : String → String) (account : Account) : String :=
  lower ((toString? (strip (ofString (account.conformanceSource.getD "")))).getD "")

/-- The karma of a trail by the source of its account. -/
def tierWeight (source : String) : ℚ :=
  match conformanceTier.lookup source with
  | some weight => weight
  | none => if source ≠ "" then karmaProviderWeight else karmaDefaultWeight

/-- The trail of a request; a verified provider has no cap. -/
def ExternalRequest.trail (request : ExternalRequest) (settings : Settings) (account : Account) (source : String) :
    NewTrail :=
  { agentId := account.agentId
    service := .str request.service
    operation := request.operation
    nonce := ofString request.actionRef
    rateLimitCap := if source ≠ "" then 0 else settings.trailDailyLimit
    skipMonthlyLimit := source ≠ ""
    origin := "external" }

structure ExternalAnswer where
  trailId : Option String
  agentId : String
  actionRef : String
  source : String
  karmaDelta : ℚ
  tier : String

/-- One request: its body, the `uuid4` that `record_trail` draws and the clock. -/
structure ExternalCall where
  trailId : String
  body : Json
  now : Seconds
  lastAction : Community.Instant

/-- What follows on the checks. -/
def recordExternal (lower : String → String) (settings : Settings) (call : ExternalCall) (request : ExternalRequest)
    (account : Account) : Script (Except Refusal ExternalAnswer) := do
  let source := conformanceSource lower account
  let weight := tierWeight source
  sql (.insertNonce ⟨request.actionRef, account.agentId, call.now⟩)
  let trailId ← recordTrail settings call.trailId (request.trail settings account source) call.now
  match trailId with
  | some trailId => sql (.setActionRef trailId request.actionRef)
  | none => pure ()
  sql (.creditKarma account.agentId weight call.lastAction)
  return .ok
    { trailId, agentId := account.agentId, actionRef := request.actionRef
      source := if source = "" then "unknown" else source
      karmaDelta := weight
      tier := if (conformanceTier.lookup source).isSome then "conformance_verified" else "default" }

def externalTrail (lower : String → String) (settings : Settings) (call : ExternalCall) :
    Script (Except Refusal ExternalAnswer) := do
  match ← bound (readExternal call.body) with
  | .error refusal => return .error refusal
  | .ok request => do
      let key ← bound (bindStr request.apiKey)
      match ← getPaygAccount key with
      | none => return .error ⟨401, "api_key not found"⟩
      | some account => do
          if ← sql (.hasNonce request.actionRef) then return .error ⟨409, "action_ref already processed"⟩
          else recordExternal lower settings call request account

/-- The request and the account, where every check passes. -/
def admittedExternal (body : Json) (w : World) : Option (ExternalRequest × Account) :=
  match readExternal body with
  | .ok (.ok request) =>
      match bindStr request.apiKey with
      | .ok key =>
          (w.accounts.find? key).bind fun account =>
            if (w.nonces.find? request.actionRef).isSome then none else some (request, account)
      | .error _ => none
  | _ => none

/-- The karma of an entity that has a row. -/
def World.karmaOf (w : World) (entityId : String) : Option ℚ := (w.wisdom.find? entityId).map Community.Wisdom.karma

/-- The karma that one credit leaves: the first opens the row, a later one is added as a double. -/
def addKarma (karma : Option ℚ) (karmaDelta : ℚ) : Option ℚ :=
  some (karma.elim karmaDelta fun held => doubleSum held karmaDelta)

section
variable {w : World}

theorem karmaOf_creditKarma (agentId : String) (karmaDelta : ℚ) (lastAction : Community.Instant) (entityId : String) :
    (exec (.creditKarma agentId karmaDelta lastAction) w).2.karmaOf entityId =
      if agentId = entityId then addKarma (w.karmaOf entityId) karmaDelta else w.karmaOf entityId := by
  simp only [World.karmaOf, exec, Community.find?_upsertWisdomWith]
  split
  · rename_i same
    subst same
    rw [Option.map_some, Community.Wisdom.karma, Community.totalKarmaReal_upserted, Option.getD_some, addKarma]
  · rfl

end

/-- The trail that a request asks for at its account. -/
def askedExternal (lower : String → String) (settings : Settings) (request : ExternalRequest) (account : Account) :
    NewTrail :=
  request.trail settings account (conformanceSource lower account)

/-- The tables after the nonce is spent. -/
def World.noted (w : World) (call : ExternalCall) (request : ExternalRequest) (account : Account) : World :=
  (exec (.insertNonce ⟨request.actionRef, account.agentId, call.now⟩) w).2

/-- The tables after the karma is credited. -/
def World.rewarded (w : World) (lower : String → String) (call : ExternalCall) (account : Account) : World :=
  (exec (.creditKarma account.agentId (tierWeight (conformanceSource lower account)) call.lastAction) w).2

section
variable {lower : String → String} {settings : Settings} {call : ExternalCall} {w : World}

theorem admittedExternal_eq_some {body : Json} {request : ExternalRequest} {account : Account}
    (admitted : admittedExternal body w = some (request, account)) :
    readExternal body = .ok (.ok request) ∧ ∃ key, bindStr request.apiKey = .ok key ∧
      w.accounts.find? key = some account ∧ w.nonces.find? request.actionRef = none := by
  unfold admittedExternal at admitted
  split at admitted
  · rename_i read
    split at admitted
    · rename_i key bound
      obtain ⟨stored, found, fresh⟩ := Option.bind_eq_some_iff.mp admitted
      split at fresh
      · cases fresh
      · rename_i unused
        cases fresh
        exact ⟨read, key, bound, found, by simpa using unused⟩
    · cases admitted
  · cases admitted

/-- A request is answered without a write, or it is recorded. -/
theorem run_externalTrail (lower : String → String) (settings : Settings) (call : ExternalCall) (w : World) :
    (admittedExternal call.body w = none ∧ ((externalTrail lower settings call).run w).2 = w ∧
      ∀ answer, ((externalTrail lower settings call).run w).1 ≠ .ok (.ok answer)) ∨
    ∃ request account, admittedExternal call.body w = some (request, account) ∧
      (externalTrail lower settings call).run w = (recordExternal lower settings call request account).run w := by
  unfold admittedExternal
  rw [externalTrail, Script.run_bind, Script.run_bound]
  rcases readExternal call.body with raised | refusal | request
  · exact Or.inl ⟨rfl, rfl, fun _ => by simp⟩
  · exact Or.inl ⟨rfl, rfl, fun _ => by simp⟩
  dsimp only
  rw [Script.run_bind, Script.run_bound]
  cases bindStr request.apiKey with
  | error raised => exact Or.inl ⟨rfl, rfl, fun _ => by simp⟩
  | ok key =>
      dsimp only
      rw [getPaygAccount, Script.run_sql_bind]
      have read : (exec (.account key) w).1 = w.accounts.find? key := rfl
      rw [read]
      cases w.accounts.find? key with
      | none => exact Or.inl ⟨rfl, rfl, fun _ => by simp⟩
      | some account =>
          dsimp only
          rw [Script.run_sql_bind, Option.bind_some]
          have used : (exec (.hasNonce request.actionRef) (exec (.account key) w).2).1 =
              (w.nonces.find? request.actionRef).isSome := rfl
          rw [used]
          cases (w.nonces.find? request.actionRef).isSome with
          | true => exact Or.inl ⟨rfl, rfl, fun _ => by simp⟩
          | false => exact Or.inr ⟨request, account, rfl, rfl⟩

/-- The nonce is spent and karma is credited, whatever becomes of the trail, unless
recording raises: then the nonce is spent alone. -/
theorem run_recordExternal (lower : String → String) (settings : Settings) (call : ExternalCall) (w : World)
    (request : ExternalRequest) (account : Account) :
    let asked := askedExternal lower settings request account
    let ended := (recordExternal lower settings call request account).run w
    (settings.refuses asked call.now w = true ∧ (∃ answer, ended.1 = .ok (.ok answer)) ∧
      ended.2 = (w.noted call request account).rewarded lower call account) ∨
    (settings.refuses asked call.now w = false ∧ asked.fits call.trailId call.now w = false ∧
      (∀ answer, ended.1 ≠ .ok (.ok answer)) ∧ ended.2 = w.noted call request account) ∨
    (settings.refuses asked call.now w = false ∧ asked.fits call.trailId call.now w = true ∧
      (∃ answer, ended.1 = .ok (.ok answer)) ∧ ∃ trails row,
        trails.rows = w.trails.rows ++ [row] ∧ row.agentId = account.agentId ∧
        row.actionRef = some request.actionRef ∧
        ended.2 = { (w.noted call request account).rewarded lower call account with trails }) := by
  intro asked ended
  have steps : ended = Script.run (do
      let trailId ← recordTrail settings call.trailId asked call.now
      match trailId with
      | some trailId => sql (.setActionRef trailId request.actionRef)
      | none => pure ()
      sql (.creditKarma account.agentId (tierWeight (conformanceSource lower account)) call.lastAction)
      return .ok
        { trailId, agentId := account.agentId, actionRef := request.actionRef
          source := if conformanceSource lower account = "" then "unknown" else conformanceSource lower account
          karmaDelta := tierWeight (conformanceSource lower account)
          tier := if (conformanceTier.lookup (conformanceSource lower account)).isSome then "conformance_verified"
            else "default" }) (w.noted call request account) := rfl
  have same : (w.noted call request account).trails = w.trails := rfl
  rw [Script.run_bind, run_recordTrail, refuses_congr same, same] at steps
  cases refused : settings.refuses asked call.now w with
  | true =>
      rw [refused, if_pos rfl] at steps
      rw [steps]
      exact Or.inl ⟨rfl, ⟨_, rfl⟩, rfl⟩
  | false =>
      rw [refused, if_neg Bool.false_ne_true] at steps
      unfold NewTrail.fits
      cases made : asked.row call.trailId call.now with
      | error raised =>
          rw [made] at steps
          rw [steps]
          exact Or.inr (Or.inl ⟨rfl, rfl, fun _ => by simp, rfl⟩)
      | ok row =>
          rw [made] at steps
          dsimp only at steps ⊢
          cases inserted : w.trails.insert? row with
          | none =>
              rw [inserted] at steps
              rw [steps]
              exact Or.inr (Or.inl ⟨rfl, rfl, fun _ => by simp, rfl⟩)
          | some trails =>
              rw [inserted] at steps
              rw [steps]
              obtain ⟨rows, absent⟩ := Table.insert?_eq_some_iff.mp inserted
              obtain ⟨named, agent, _⟩ := row_stored made
              have fresh : ∀ other ∈ w.trails.rows, other.trailId ≠ call.trailId := by
                intro other member
                rw [← named]
                exact Table.find?_eq_none_iff.mp absent other member
              have last := @rows_updateTrail_last { w.noted call request account with trails } _
                (fun row => { row with actionRef := some request.actionRef }) (fun _ => rfl) _ _ rows named fresh
              exact Or.inr (Or.inr ⟨rfl, rfl, ⟨_, rfl⟩, _, _, last, agent, rfl, rfl⟩)

end

/-- A request answered 201 recorded one trail with its action reference, spent the
reference and credited the karma of the tier. Any other wrote nothing, so that a
refused request can be sent again. -/
def AllOrNothing (lower : String → String) (settings : Settings) (w : World) (call : ExternalCall) : Prop :=
  let ended := (externalTrail lower settings call).run w
  match ended.1 with
  | .ok (.ok _) => ∃ request account row, admittedExternal call.body w = some (request, account) ∧
      ended.2.trails.rows = w.trails.rows ++ [row] ∧ row.agentId = account.agentId ∧
      row.actionRef = some request.actionRef ∧
      ended.2.nonces.rows = w.nonces.rows ++ [⟨request.actionRef, account.agentId, call.now⟩] ∧
      ∀ entityId, ended.2.karmaOf entityId =
        if account.agentId = entityId then
          addKarma (w.karmaOf entityId) (tierWeight (conformanceSource lower account))
        else w.karmaOf entityId
  | _ => ended.2.trails = w.trails ∧ ended.2.nonces = w.nonces ∧ ended.2.wisdom = w.wisdom

/-- Recording is neither refused nor raises, where the request gets so far. -/
def Recordable (lower : String → String) (settings : Settings) (w : World) (call : ExternalCall) : Prop :=
  ∀ request account, admittedExternal call.body w = some (request, account) →
    settings.refuses (askedExternal lower settings request account) call.now w = false ∧
      (askedExternal lower settings request account).fits call.trailId call.now w = true

section
variable {lower : String → String} {settings : Settings} {call : ExternalCall} {w : World}

theorem rows_noted (call : ExternalCall) {request : ExternalRequest} (account : Account)
    (unused : w.nonces.find? request.actionRef = none) :
    (w.noted call request account).nonces.rows =
      w.nonces.rows ++ [⟨request.actionRef, account.agentId, call.now⟩] := by
  have fresh : (w.nonces.insert? ⟨request.actionRef, account.agentId, call.now⟩).isSome :=
    Table.insert?_isSome_iff.mpr unused
  obtain ⟨next, inserted⟩ := Option.isSome_iff_exists.mp fresh
  rw [World.noted]
  simp only [exec, inserted, Option.getD_some]
  exact Table.rows_insert inserted

theorem karmaOf_rewarded (call : ExternalCall) (request : ExternalRequest) (account : Account) (entityId : String) :
    ((w.noted call request account).rewarded lower call account).karmaOf entityId =
      if account.agentId = entityId then
        addKarma (w.karmaOf entityId) (tierWeight (conformanceSource lower account))
      else w.karmaOf entityId := by
  rw [World.rewarded, karmaOf_creditKarma]
  rfl

theorem allOrNothing_iff_recordable : AllOrNothing lower settings w call ↔ Recordable lower settings w call := by
  unfold AllOrNothing
  dsimp only
  rcases run_externalTrail lower settings call w with
    ⟨unread, same, refused⟩ | ⟨request, account, admitted, same⟩
  · constructor
    · intro _ request account admitted
      rw [unread] at admitted
      cases admitted
    · intro _
      split
      · rename_i answer ended
        exact absurd ended (refused answer)
      · rw [same]
        exact ⟨rfl, rfl, rfl⟩
  · obtain ⟨_, _, _, _, unused⟩ := admittedExternal_eq_some admitted
    have nonces := rows_noted call account unused
    rw [same]
    rcases run_recordExternal lower settings call w request account with
      ⟨refused, ⟨answer, created⟩, after⟩ | ⟨asked, unfit, raised, after⟩ |
        ⟨asked, fit, ⟨answer, created⟩, trails, row, rows, agent, ref, after⟩
    · rw [created, after]
      constructor
      · rintro ⟨_, _, row, _, longer, _⟩
        exact absurd (congrArg List.length longer) (by simp [World.rewarded, World.noted, exec])
      · intro recordable
        rw [(recordable request account admitted).1] at refused
        cases refused
    · constructor
      · intro kept
        split at kept
        · rename_i answer ended
          exact absurd ended (raised answer)
        · rw [after] at kept
          rw [kept.2.1] at nonces
          exact absurd (congrArg List.length nonces) (by simp)
      · intro recordable
        rw [(recordable request account admitted).2] at unfit
        cases unfit
    · rw [created, after]
      constructor
      · intro _ other owner again
        rw [admitted] at again
        cases again
        exact ⟨asked, fit⟩
      · intro _
        exact ⟨request, account, row, admitted, rows, agent, ref, nonces,
          karmaOf_rewarded call request account⟩

end

/-- The weights of the trails of an agent that a request recorded: the tier of its account, once for each. -/
def trailWeights (lower : String → String) (settings : Settings) (entityId : String) (w : World) (call : ExternalCall) :
    List ℚ :=
  let after := ((externalTrail lower settings call).run w).2
  let count (w : World) : Nat := w.trails.rows.countP fun row => row.agentId = entityId
  match admittedExternal call.body w with
  | some (_, account) =>
      List.replicate (count after - count w) (tierWeight (conformanceSource lower account))
  | none => []

/-- The tables after a request. -/
def afterExternal (lower : String → String) (settings : Settings) (w : World) (call : ExternalCall) : World :=
  ((externalTrail lower settings call).run w).2

/-- Every request of the run is all-or-nothing, and an agent's karma is what it was, with
the weight of each trail added that was recorded for it. -/
def AllOrNothingRun (lower : String → String) (settings : Settings) (start : World) (calls : List ExternalCall) :
    Prop :=
  (∀ before call after, calls = before ++ call :: after →
    AllOrNothing lower settings (run (afterExternal lower settings) start before) call) ∧
  ∀ entityId, (run (afterExternal lower settings) start calls).karmaOf entityId =
    (logged (afterExternal lower settings) (trailWeights lower settings entityId) start calls).foldl addKarma
      (start.karmaOf entityId)

section
variable {lower : String → String} {settings : Settings} {call : ExternalCall} {w : World}

/-- A request that is all-or-nothing credits what it recorded. -/
theorem AllOrNothing.karma (kept : AllOrNothing lower settings w call) (entityId : String) :
    (afterExternal lower settings w call).karmaOf entityId =
      (trailWeights lower settings entityId w call).foldl addKarma (w.karmaOf entityId) := by
  unfold AllOrNothing at kept
  unfold afterExternal trailWeights
  dsimp only at kept ⊢
  split at kept
  · obtain ⟨request, account, row, admitted, rows, agent, _, _, karma⟩ := kept
    rw [karma, admitted, rows, List.countP_append, List.countP_singleton]
    by_cases own : account.agentId = entityId <;> simp [agent, own]
  · obtain ⟨trails, _, wisdom⟩ := kept
    rw [World.karmaOf, wisdom, trails, Nat.sub_self]
    split <;> rfl

theorem AllOrNothingRun.second {first second : ExternalCall}
    (holds : AllOrNothingRun lower settings w [first, second]) :
    Recordable lower settings (run (afterExternal lower settings) w [first]) second := by
  apply allOrNothing_iff_recordable.mp
  exact holds.1 [first] second [] rfl

end

/-- A run is all-or-nothing iff in none of its requests that pass the checks recording
is refused or raises. -/
theorem allOrNothing_iff {lower : String → String} {settings : Settings} {start : World} {calls : List ExternalCall} :
    AllOrNothingRun lower settings start calls ↔
      Admits (afterExternal lower settings) (Recordable lower settings) start calls := by
  constructor
  · rintro ⟨each, _⟩
    apply admits_iff_split.mpr
    intro before call after split
    exact allOrNothing_iff_recordable.mp (each before call after split)
  · intro admitted
    refine ⟨fun before call after split => ?_, fun entityId => ?_⟩
    · exact allOrNothing_iff_recordable.mpr (admits_iff_split.mp admitted before call after split)
    · exact admitted.records (P := fun w weights => w.karmaOf entityId = weights.foldl addKarma (start.karmaOf entityId))
        (fun w call weights so recordable => by
          rw [(allOrNothing_iff_recordable.mpr recordable).karma, so, List.foldl_append]) rfl

/-- A deployment that records one trail a day for an account that is not verified. -/
def oneADay : Settings := ⟨1, [], fun _ => 0, true, true⟩

def externalCall (trailId actionRef : String) : ExternalCall :=
  ⟨trailId, .dict [(ofString "action_ref", .str (ofString actionRef)),
    (ofString "api_key", .str (ofString "key"))], 100, 0⟩

def firstCall : ExternalCall :=
  externalCall "first" "aaaaaaaaaaaaaaaaaaaaaaaaaaaaaaaaaaaaaaaaaaaaaaaaaaaaaaaaaaaaaaaa"

/-- The same account on the same day. -/
def secondCall : ExternalCall :=
  externalCall "second" "bbbbbbbbbbbbbbbbbbbbbbbbbbbbbbbbbbbbbbbbbbbbbbbbbbbbbbbbbbbbbbbb"

/-- The second request is answered 201 and credited, and no trail is recorded. -/
theorem not_allOrNothingRun_capped : ¬ AllOrNothingRun id oneADay oneCredit [firstCall, secondCall] := by
  intro holds
  have recordable := holds.second
  have refused : ((admittedExternal secondCall.body (run (afterExternal id oneADay) oneCredit [firstCall])).any
      fun admitted => oneADay.refuses (askedExternal id oneADay admitted.1 admitted.2) secondCall.now
        (run (afterExternal id oneADay) oneCredit [firstCall])) = true := by decide +kernel
  obtain ⟨⟨request, account⟩, admitted, capped⟩ := (Option.any_eq_true ..).mp refused
  rw [(recordable request account admitted).1] at capped
  cases capped

end Argentum.Mycelium
