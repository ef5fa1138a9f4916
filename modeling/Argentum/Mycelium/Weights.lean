import Argentum.Mycelium.External

/-! The weight of a conformance source, as `POST /payg/account/conformance` answers it and
as the next `POST /external/trail` credits it. The first looks the lowered source up and
falls back to the default. The second strips it as well, and has a third weight for a
source that no tier names. -/
namespace Argentum.Mycelium
open Argentum Text Transition

/-- `s.strip()` -/
def stripped (s : String) : String := (toString? (strip (ofString s))).getD ""

/-- `set_conformance_source`: the `UPDATE`, and the row under the key. -/
def setConformanceSource (w : World) (apiKey source : String) (now : Seconds) : Option Account × World :=
  let after := w.updateAccounts (fun row => row.apiKey = apiKey)
    (fun row => { row with conformanceSource := if source = "" then none else some source, updatedAt := now })
    fun _ => rfl
  (after.accounts.find? apiKey, after)

/-- One call of the endpoint. -/
structure ConformanceCall where
  adminToken : String
  apiKey : Str
  source : Option Str
  now : Seconds

structure ConformanceAnswer where
  apiKey : String
  agentId : String
  conformanceSource : Option String
  karmaWeight : ℚ
  tier : String

/-- The weight that the endpoint answers with. -/
def shownWeight (lower : String → String) (source : String) : ℚ :=
  (conformanceTier.lookup (lower source)).getD karmaDefaultWeight

/-- `set_account_conformance`. `adminToken` is the one of the deployment, the call's own
comes in the header. -/
def setAccountConformance (lower : String → String) (adminToken : String) (call : ConformanceCall) (w : World) :
    Except Raised (Except Refusal ConformanceAnswer) × World :=
  if adminToken = "" ∨ call.adminToken ≠ adminToken then
    (.ok (.error ⟨401, "invalid or missing X-Admin-Token"⟩), w)
  else
    match bindStr (call.source.getD []), bindStr call.apiKey with
    | .ok source, .ok apiKey =>
        match setConformanceSource w apiKey source call.now with
        | (none, after) => (.ok (.error ⟨404, "api_key not found"⟩), after)
        | (some account, after) =>
            (.ok (.ok
              { apiKey := account.apiKey
                agentId := account.agentId
                conformanceSource := account.conformanceSource
                karmaWeight := shownWeight lower source
                tier := if (conformanceTier.lookup source).isSome then "conformance_verified" else "default" }), after)
    | .error raised, _ => (.error raised, w)
    | _, .error raised => (.error raised, w)

/-- A statement that gives no account the key. None but the endpoint's own writes a source. -/
def Bypasses {β : Type} (apiKey : String) : Sql β → Prop
  | .rekey newApiKey _ _ => newApiKey ≠ apiKey
  | _ => True

/-- A statement of any other call. -/
inductive OtherStatement (apiKey : String) : Type 1 where
  | mk {β : Type} (op : Sql β) (bypasses : Bypasses apiKey op)

def OtherStatement.step {apiKey : String} (w : World) : OtherStatement apiKey → World
  | .mk op _ => (exec op w).2

/-- The account under a key, if there is one, is the agent's and has the source. -/
def HasSource (apiKey agentId : String) (source : Option String) (w : World) : Prop :=
  ∀ account, w.accounts.find? apiKey = some account → account.agentId = agentId ∧ account.conformanceSource = source

/-- What `lower` does: white space has no case, and no character is lost. -/
structure Lowers (lower : String → String) : Prop where
  empty : ∀ s, lower s = "" ↔ s = ""
  strip : ∀ s, stripped (lower s) = lower (stripped s)

section
variable {apiKey agentId : String} {source : Option String} {w : World} {lower : String → String}

theorem HasSource.update {p : Account → Bool} {f : Account → Account} {keeps : ∀ row, Keyed.key (f row) = Keyed.key row}
    (has : HasSource apiKey agentId source w)
    (same : ∀ row, (f row).agentId = row.agentId ∧ (f row).conformanceSource = row.conformanceSource) :
    HasSource apiKey agentId source (w.updateAccounts p f keeps) := by
  intro account found
  rw [World.updateAccounts, Table.find?_update] at found
  obtain ⟨row, before, rfl⟩ := Option.map_eq_some_iff.mp found
  have kept := has row before
  split
  · rw [(same row).1, (same row).2]
    exact kept
  · exact kept

/-- A rotation to another key leaves the row under this one alone, or takes it away. -/
theorem HasSource.rekey {newApiKey oldApiKey : String} {now : Seconds} (has : HasSource apiKey agentId source w)
    (apart : newApiKey ≠ apiKey) : HasSource apiKey agentId source (exec (.rekey newApiKey oldApiKey now) w).2 := by
  simp only [exec]
  cases updated : w.accounts.rekey? (fun row => row.apiKey = oldApiKey) fun row =>
      { row with apiKey := newApiKey, updatedAt := now } with
  | none => exact has
  | some accounts =>
      intro account found
      obtain ⟨member, named⟩ := Table.find?_eq_some_iff.mp found
      rw [show (constrained w _ _).2.accounts = accounts from rfl, Table.rows_rekey updated] at member
      obtain ⟨row, before, rfl⟩ := List.mem_map.mp member
      split at named
      · exact absurd named apart
      · rename_i kept
        rw [if_neg kept]
        exact has row (Table.find?_eq_some_iff.mpr ⟨before, named⟩)

theorem HasSource.step (has : HasSource apiKey agentId source w) (statement : OtherStatement apiKey) :
    HasSource apiKey agentId source (statement.step w) := by
  obtain ⟨op, bypasses⟩ := statement
  cases op with
  | addCredit => exact has.update fun _ => ⟨rfl, rfl⟩
  | takeCredit => exact has.update fun _ => ⟨rfl, rfl⟩
  | rekey => exact has.rekey bypasses
  | insertIntent row =>
      simp only [OtherStatement.step, exec]
      cases w.intents.insert? row <;> exact has
  | insertTrail row =>
      simp only [OtherStatement.step, exec]
      cases w.trails.insert? row <;> exact has
  | account | accountByAgent | notifyWebhook | pendingIntents | pendingIntent | markFulfilled | hasNonce | insertNonce
  | countSince | countBilledSince | setActionRef | setPreimage | setTxHash | confirmAnchor | failAnchor
  | submittedTrails | insertBilling | creditKarma | startThread | anchorActionRef | notifyAnchor => exact has

theorem HasSource.run (has : HasSource apiKey agentId source w) (between : List (OtherStatement apiKey)) :
    HasSource apiKey agentId source (run OtherStatement.step w between) :=
  run_invariant (fun _ statement has => has.step statement) between has

/-- What the endpoint answers 200 with, and the source it leaves. -/
theorem setAccountConformance_ok {adminToken : String} {call : ConformanceCall} {answer : ConformanceAnswer}
    {after : World} (set : setAccountConformance lower adminToken call w = (.ok (.ok answer), after)) :
    ∃ source apiKey, bindStr (call.source.getD []) = .ok source ∧ bindStr call.apiKey = .ok apiKey ∧
      answer.karmaWeight = shownWeight lower source ∧
      HasSource apiKey answer.agentId (if source = "" then none else some source) after := by
  unfold setAccountConformance at set
  split at set
  · cases set
  split at set
  · rename_i source apiKey bound bound'
    refine ⟨source, apiKey, bound, bound', ?_⟩
    split at set
    · cases set
    · rename_i account after' stored
      cases set
      refine ⟨rfl, fun row found => ?_⟩
      obtain ⟨returned, rfl⟩ := Prod.mk.inj stored
      obtain rfl := Option.some.inj (returned.symm.trans found)
      refine ⟨rfl, ?_⟩
      rw [World.updateAccounts, Table.find?_update] at found
      obtain ⟨old, there, rfl⟩ := Option.map_eq_some_iff.mp found
      rw [if_pos (decide_eq_true (show old.apiKey = apiKey from Table.find?_key there))]
  · cases set
  · cases set

/-- A request that is answered 201 credits the weight of its account's source. -/
theorem externalTrail_weight {settings : Settings} {call : ExternalCall} {answer : ExternalAnswer}
    (accepted : ((externalTrail lower settings call).run w).1 = .ok (.ok answer)) :
    ∃ request account, readExternal call.body = .ok (.ok request) ∧
      (∃ key, bindStr request.apiKey = .ok key ∧ w.accounts.find? key = some account) ∧
      answer.karmaDelta = tierWeight (conformanceSource lower account) ∧
      ∀ entityId, ((externalTrail lower settings call).run w).2.karmaOf entityId =
        if account.agentId = entityId then addKarma (w.karmaOf entityId) answer.karmaDelta
        else w.karmaOf entityId := by
  rcases run_externalTrail lower settings call w with ⟨_, _, refused⟩ | ⟨request, account, admitted, same⟩
  · exact absurd accepted (refused answer)
  · obtain ⟨read, key, bound, found, _⟩ := admittedExternal_eq_some admitted
    rw [same] at accepted
    have weight : answer.karmaDelta = tierWeight (conformanceSource lower account) := by
      rw [recordExternal, Script.run_sql_bind, Script.run_bind] at accepted
      split at accepted
      · rename_i trailId after recorded
        cases trailId with
        | none =>
            cases accepted
            rfl
        | some trailId =>
            cases accepted
            rfl
      · cases accepted
    refine ⟨request, account, read, ⟨key, bound, found⟩, weight, fun entityId => ?_⟩
    rw [same, weight, ← karmaOf_rewarded call request account]
    rcases run_recordExternal lower settings call w request account with
      ⟨_, _, after⟩ | ⟨_, _, raised, _⟩ | ⟨_, _, _, trails, row, _, _, _, after⟩
    · rw [after]
    · exact absurd accepted (raised answer)
    · rw [after]
      rfl

/-- The tiers have names without white space, and no weight of the default. -/
theorem lookup_conformanceTier {name : String} {weight : ℚ} (found : conformanceTier.lookup name = some weight) :
    stripped name = name ∧ weight ≠ karmaDefaultWeight := by
  have apart : (1 : ℚ) ≠ karmaDefaultWeight ∧ nearestDouble (7 / 10) ≠ karmaDefaultWeight := by decide +kernel
  simp only [conformanceTier, List.lookup_cons, List.lookup_nil] at found
  split at found
  · rename_i nexus
    cases found
    rw [beq_iff_eq.mp nexus]
    exact ⟨by decide +kernel, apart.1⟩
  split at found
  · rename_i aps
    cases found
    rw [beq_iff_eq.mp aps]
    exact ⟨by decide +kernel, apart.2⟩
  split at found
  · rename_i nobulex
    cases found
    rw [beq_iff_eq.mp nobulex]
    exact ⟨by decide +kernel, apart.2⟩
  · cases found

theorem tierWeight_ne_default {name : String} (full : name ≠ "") : tierWeight name ≠ karmaDefaultWeight := by
  unfold tierWeight
  split
  · rename_i weight found
    exact (lookup_conformanceTier found).2
  · rw [if_pos full]
    decide +kernel

theorem shownWeight_eq_iff (lowers : Lowers lower) (source : String) :
    shownWeight lower source = tierWeight (lower (stripped source)) ↔
      (conformanceTier.lookup (lower source)).isSome ∨ stripped source = "" := by
  rw [shownWeight]
  cases found : conformanceTier.lookup (lower source) with
  | some weight =>
      refine iff_of_true ?_ (Or.inl rfl)
      rw [← lowers.strip, (lookup_conformanceTier found).1, tierWeight, found]
      rfl
  | none =>
      rw [Option.getD_none, Option.isSome_none, or_iff_right Bool.false_ne_true]
      constructor
      · intro same
        by_contra full
        exact tierWeight_ne_default (mt (lowers.empty _).mp full) same.symm
      · intro empty
        rw [empty, (lowers.empty "").mpr rfl]
        rfl

end

/-- The weight the endpoint answers with is the one that the account's next accepted trail
is credited with iff the lowered source names a tier, or the source is blank. -/
theorem karmaWeight_eq_iff {lower : String → String} (lowers : Lowers lower) {settings : Settings} {adminToken : String}
    {call : ConformanceCall} {shown : ConformanceAnswer} {w after : World} {apiKey source : String}
    {next : ExternalCall} {request : ExternalRequest} {credited : ExternalAnswer}
    (set : setAccountConformance lower adminToken call w = (.ok (.ok shown), after))
    (keyed : bindStr call.apiKey = .ok apiKey) (named : bindStr (call.source.getD []) = .ok source)
    (between : List (OtherStatement apiKey)) (read : readExternal next.body = .ok (.ok request))
    (own : request.apiKey = call.apiKey)
    (accepted : ((externalTrail lower settings next).run (run OtherStatement.step after between)).1 =
      .ok (.ok credited)) :
    (shown.karmaWeight = credited.karmaDelta ↔
      (conformanceTier.lookup (lower source)).isSome ∨ stripped source = "") ∧
    ((externalTrail lower settings next).run (run OtherStatement.step after between)).2.karmaOf shown.agentId =
      addKarma ((run OtherStatement.step after between).karmaOf shown.agentId) credited.karmaDelta := by
  obtain ⟨source', apiKey', named', keyed', weight, has⟩ := setAccountConformance_ok set
  obtain rfl := Except.ok.inj (named.symm.trans named')
  obtain rfl := Except.ok.inj (keyed.symm.trans keyed')
  obtain ⟨request', account, read', ⟨key, bound, found⟩, delta, karma⟩ := externalTrail_weight accepted
  obtain rfl := Except.ok.inj (Except.ok.inj (read.symm.trans read'))
  rw [own] at bound
  obtain rfl := Except.ok.inj (keyed.symm.trans bound)
  obtain ⟨agent, stored⟩ := has.run between account found
  have kept : account.conformanceSource.getD "" = source := by
    rw [stored]
    split
    · rename_i empty
      rw [empty]
      rfl
    · rfl
  constructor
  · rw [weight, delta, conformanceSource, kept]
    exact shownWeight_eq_iff lowers source
  · rw [karma, if_pos agent]

/-- The administrator names a provider that is in no tier. -/
def named : ConformanceCall := ⟨"admin", ofString "key", some (ofString "safeagent"), 10⟩

/-- What two calls are answered with, if both are accepted. -/
def answers? (lower : String → String) (settings : Settings) (adminToken : String) (call : ConformanceCall)
    (next : ExternalCall) (w : World) : Option (ConformanceAnswer × ExternalAnswer) :=
  match setAccountConformance lower adminToken call w with
  | (.ok (.ok shown), after) =>
      match ((externalTrail lower settings next).run after).1 with
      | .ok (.ok credited) => some (shown, credited)
      | _ => none
  | _ => none

theorem answers?_eq_some {lower : String → String} {settings : Settings} {adminToken : String} {call : ConformanceCall}
    {next : ExternalCall} {w : World} {shown : ConformanceAnswer} {credited : ExternalAnswer}
    (answered : answers? lower settings adminToken call next w = some (shown, credited)) :
    ∃ after, setAccountConformance lower adminToken call w = (.ok (.ok shown), after) ∧
      ((externalTrail lower settings next).run after).1 = .ok (.ok credited) := by
  unfold answers? at answered
  split at answered
  · rename_i page after set
    split at answered
    · rename_i made accepted
      cases answered
      exact ⟨after, set, accepted⟩
    · cases answered
  · cases answered

/-- The request's key, where its body is read. -/
def keyOf? (body : Json) : Option Str :=
  match readExternal body with
  | .ok (.ok request) => some request.apiKey
  | _ => none

theorem karmaWeight_eq_iff_named : ∃ shown credited after,
    setAccountConformance id "admin" named oneCredit = (.ok (.ok shown), after) ∧
    ((externalTrail id oneADay firstCall).run after).1 = .ok (.ok credited) ∧
    (shown.karmaWeight = credited.karmaDelta ↔
      (conformanceTier.lookup (id "safeagent")).isSome ∨ stripped "safeagent" = "") := by
  have answers : (answers? id oneADay "admin" named firstCall oneCredit).isSome := by decide +kernel
  obtain ⟨⟨shown, credited⟩, answered⟩ := Option.isSome_iff_exists.mp answers
  obtain ⟨after, set, accepted⟩ := answers?_eq_some answered
  obtain ⟨request, _, read, _⟩ := externalTrail_weight accepted
  have own : request.apiKey = named.apiKey := by
    have key : keyOf? firstCall.body = some named.apiKey := by decide +kernel
    rw [keyOf?, read] at key
    exact Option.some.inj key
  have lowers : Lowers id := ⟨fun _ => Iff.rfl, fun _ => rfl⟩
  have keyed : bindStr named.apiKey = .ok "key" := by decide +kernel
  have text : bindStr (named.source.getD []) = .ok "safeagent" := by decide +kernel
  exact ⟨shown, credited, after, set, accepted, (karmaWeight_eq_iff lowers set keyed text [] read own accepted).1⟩

/-- The source is shown with the default weight, and credited with a provider's. -/
theorem karmaWeight_ne_named : ∃ shown credited after,
    setAccountConformance id "admin" named oneCredit = (.ok (.ok shown), after) ∧
    ((externalTrail id oneADay firstCall).run after).1 = .ok (.ok credited) ∧
    shown.karmaWeight ≠ credited.karmaDelta := by
  have weights : (answers? id oneADay "admin" named firstCall oneCredit).map
      (fun answers => (answers.1.karmaWeight, answers.2.karmaDelta)) =
        some (karmaDefaultWeight, karmaProviderWeight) := by
    decide +kernel
  have apart : karmaDefaultWeight ≠ karmaProviderWeight := by decide +kernel
  obtain ⟨⟨shown, credited⟩, answered, weights⟩ := Option.map_eq_some_iff.mp weights
  obtain ⟨after, set, accepted⟩ := answers?_eq_some answered
  obtain ⟨first, second⟩ := Prod.mk.inj weights
  exact ⟨shown, credited, after, set, accepted, first ▸ second ▸ apart⟩

end Argentum.Mycelium
