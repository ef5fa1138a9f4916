import Argentum.Mycelium.Anchor
import Argentum.Mycelium.External
import Argentum.Trail.Loads

/-! `GET /trails/{trail_id}` of a receipt that was recorded over `POST /nexus/trail`. The
preimage passes through the canonical encoder into the row and through `json.loads` out
of it, and its hash is computed again when it is read. It is the stored reference, and
the one of `compute_action_ref` where the profile admits the timestamp. -/
namespace Argentum.Mycelium
open Argentum Text Transition

/-- `_jcs_encode` -/
def jcsEncode (items : List (Str × Json)) : Except PyError Bytes :=
  Dumps.encodeUtf8 (Dumps.dumps (.dict (Dumps.sortItems items)))

def computeActionRef (agentId actionType scope timestamp : Str) : Except Raised (Except OutOfProfile Str) := do
  match ← validateDomain (.str agentId) (.str actionType) (.str scope) timestamp false with
  | some refused => return .error refused
  | none => do
      let bytes ← fromPy (jcsEncode [(ofString "agent_id", .str agentId), (ofString "action_type", .str actionType),
        (ofString "scope", .str scope), (ofString "timestamp", .str timestamp)])
      return .ok (hexOf (Sha256.sha256 bytes))

/-- What `anchor_proof` says that a row decides. -/
structure AnchorProof where
  preimage : Json
  actionRefVerified : Bool

/-- The proof of a row: none where there is no preimage, or where reading it raises. -/
def anchorProof (parseFloat : Str → Float64) (row : TrailRow) : Option AnchorProof := do
  let text ← row.preimageJson.filter (· ≠ [])
  let preimage ← (Loads.loads parseFloat text).toOption
  let bytes ← (Jcs.boundlessBytes preimage).toOption
  return ⟨preimage, row.actionRef.any fun actionRef => ofString actionRef = hexOf (Sha256.sha256 bytes)⟩

/-- `trails.db` and its surroundings, and the ids of the marketplace's own table of trails. -/
structure Service where
  world : World
  marketplace : List String

/-- The page of a marketplace trail, or of a recorded one. -/
inductive TrailPage where
  | marketplace (trailId : String)
  | mycelium (row : TrailRow) (anchorProof : Option AnchorProof)

/-- The marketplace is looked up first. -/
def getTrail (parseFloat : Str → Float64) (service : Service) (trailId : String) : Except Refusal TrailPage :=
  if trailId ∈ service.marketplace then .ok (.marketplace trailId)
  else
    match service.world.trails.find? trailId with
    | none => .error ⟨404, "trail not found"⟩
    | some row => .ok (.mycelium row (anchorProof parseFloat row))

/-- `str(uuid.uuid4())` -/
structure Uuid where
  text : String
  long : text.length = 36

/-- A statement that writes neither the reference nor the preimage of a row. -/
def LeavesReceipts {β : Type} : Sql β → Prop
  | .setActionRef .. => False
  | .setPreimage .. => False
  | _ => True

/-- A request over NEXUS or from outside, a marketplace trail that is registered under the
first eight characters of its id, or a statement of any other code. -/
inductive Activity : Type 1 where
  | nexus (trailId : String) (body : Json) (now : Seconds)
  | external (call : ExternalCall)
  | register (uuid : Uuid)
  | statement {β : Type} (op : Sql β) (leaves : LeavesReceipts op)

def Service.step (lower : String → String) (settings : Settings) (service : Service) : Activity → Service
  | .nexus trailId body now =>
      { service with world := ((nexusTrail settings trailId body now).run service.world).2 }
  | .external call => { service with world := ((externalTrail lower settings call).run service.world).2 }
  | .register uuid =>
      let trailId := String.ofList (uuid.text.toList.take 8)
      if trailId ∈ service.marketplace then service
      else { service with marketplace := service.marketplace ++ [trailId] }
  | .statement op _ => { service with world := (exec op service.world).2 }

/-- The four fields, as a row keeps them. -/
def Receipt.fields (receipt : Receipt) : Json :=
  .dict [(ofString "action_type", .str receipt.actionType), (ofString "agent_id", .str (ofString receipt.agentId)),
    (ofString "scope", .str receipt.scope), (ofString "timestamp", .str receipt.timestamp)]

/-- The page proves the receipt: its preimage is the four fields, the stored reference is
their hash, and where the timestamp is of RFC 3339 it is the one of the canonical profile. -/
structure Proves (receipt : Receipt) (row : TrailRow) (proof : AnchorProof) : Prop where
  preimage : proof.preimage = receipt.fields
  verified : proof.actionRefVerified = true
  hashed : ∃ actionRef, row.actionRef = some actionRef ∧ actionRefOf (ofString receipt.agentId) receipt.actionType
    receipt.scope receipt.timestamp = .ok (ofString actionRef)
  canonical : timestampShaped receipt.timestamp = true → ∃ actionRef, row.actionRef = some actionRef ∧
    computeActionRef (ofString receipt.agentId) receipt.actionType receipt.scope receipt.timestamp =
      .ok (.ok (ofString actionRef))

section
variable {agentId actionType scope timestamp : Str}

theorem canonicalize_preimage : Jcs.canonicalize (preimage agentId actionType scope timestamp) =
    .dict [(ofString "action_type", .str actionType), (ofString "agent_id", .str agentId),
      (ofString "scope", .str scope), (ofString "timestamp", .str timestamp)] := rfl

theorem sortItems_preimage : Dumps.sortItems [(ofString "agent_id", .str agentId),
    (ofString "action_type", .str actionType), (ofString "scope", .str scope), (ofString "timestamp", .str timestamp)] =
    [(ofString "action_type", .str actionType), (ofString "agent_id", .str agentId),
      (ofString "scope", .str scope), (ofString "timestamp", .str timestamp)] := rfl

theorem loadable_preimage : Loads.Loadable (preimage agentId actionType scope timestamp) := by
  have keys : [ofString "agent_id", ofString "action_type", ofString "scope", ofString "timestamp"].Nodup := by decide
  refine .dict keys ?_
  simp only [List.mem_cons, List.not_mem_nil, or_false]
  rintro item (rfl | rfl | rfl | rfl) <;> exact .str _

/-- Both encoders write the same bytes of the four fields. -/
theorem jcsEncode_preimage {bytes : Bytes}
    (encoded : Jcs.boundlessBytes (preimage agentId actionType scope timestamp) = .ok bytes) :
    jcsEncode [(ofString "agent_id", .str agentId), (ofString "action_type", .str actionType),
      (ofString "scope", .str scope), (ofString "timestamp", .str timestamp)] = .ok bytes := by
  obtain ⟨text, dumped, utf⟩ := Jcs.boundlessBytes_eq_ok_iff.mp encoded
  have same := Loads.dumps_of_encode loadable_preimage.canonicalize dumped
  rw [canonicalize_preimage] at same
  rw [jcsEncode, sortItems_preimage, ← same, Dumps.encodeUtf8_eq_ok_iff, utf]

theorem fromPy_eq_ok {α : Type} {value : Except PyError α} {x : α} (read : fromPy value = .ok x) : value = .ok x := by
  cases value with
  | error raised => cases read
  | ok y =>
      cases read
      rfl

/-- Where a timestamp is of RFC 3339, it does not matter whether an epoch is admitted. -/
theorem validateDomain_of_shaped (shaped : timestampShaped timestamp = true) (agentId actionType scope : Json) :
    validateDomain agentId actionType scope timestamp true =
      validateDomain agentId actionType scope timestamp false := by
  have half : validateTimestamp true timestamp = validateTimestamp false timestamp := by
    simp only [validateTimestamp, not_epochMsShaped shaped, shaped, Bool.and_false, Bool.not_true, Bool.false_eq_true,
      if_false]
  rw [validateDomain, validateDomain, half]

/-- A receipt whose timestamp is canonical has the reference of `compute_action_ref`. -/
theorem computeActionRef_of_hashed {actionRef : Str}
    (admitted : validateDomain (.str agentId) (.str actionType) (.str scope) timestamp true = .ok none)
    (hashed : actionRefOf agentId actionType scope timestamp = .ok actionRef)
    (shaped : timestampShaped timestamp = true) :
    computeActionRef agentId actionType scope timestamp = .ok (.ok actionRef) := by
  obtain ⟨bytes, encoded, hashed⟩ := bind_ok hashed
  rw [validateDomain_of_shaped shaped] at admitted
  rw [computeActionRef, admitted]
  change (fromPy (jcsEncode _) >>= _) = _
  rw [jcsEncode_preimage (fromPy_eq_ok encoded)]
  cases hashed
  rfl

/-- The page of a row that keeps the fields of a receipt and their hash. -/
theorem proves_of_stored {parseFloat : Str → Float64} {receipt : Receipt} {row : TrailRow} {text : Str}
    (ref : row.actionRef = some receipt.actionRef) (kept : row.preimageJson = some text)
    (dumped : Jcs.boundlessDumps (preimage (ofString receipt.agentId) receipt.actionType receipt.scope receipt.timestamp) =
      .ok text)
    (hashed : actionRefOf (ofString receipt.agentId) receipt.actionType receipt.scope receipt.timestamp =
      .ok (ofString receipt.actionRef))
    (admitted : validateDomain (.str (ofString receipt.agentId)) (.str receipt.actionType) (.str receipt.scope)
      receipt.timestamp true = .ok none) :
    ∃ proof, anchorProof parseFloat row = some proof ∧ Proves receipt row proof := by
  obtain ⟨bytes, encoded, digest⟩ := bind_ok hashed
  obtain ⟨loaded, recoded⟩ := @Loads.loads_of_boundlessDumps parseFloat _ loadable_preimage _ dumped
  have full : text ≠ [] := by
    rw [Loads.dumps_of_encode loadable_preimage.canonicalize dumped]
    exact List.cons_ne_nil _ _
  have proof : anchorProof parseFloat row = some ⟨receipt.fields, true⟩ := by
    rw [anchorProof, kept, Option.filter_some, if_pos (by simpa using full), Option.bind_eq_bind, Option.bind_some,
      loaded]
    change ((Jcs.boundlessBytes _).toOption >>= _) = _
    rw [recoded, fromPy_eq_ok encoded]
    have same : hexOf (Sha256.sha256 bytes) = ofString receipt.actionRef := Except.ok.inj digest
    change some (AnchorProof.mk _ (row.actionRef.any _)) = _
    rw [ref, same, canonicalize_preimage]
    simp [Receipt.fields]
  refine ⟨_, proof, rfl, rfl, ⟨_, ref, hashed⟩, fun shaped => ⟨_, ref, ?_⟩⟩
  exact computeActionRef_of_hashed admitted hashed shaped

end

/-- A receipt passed the domain check, and its reference is the hash of its fields. -/
theorem readReceipt_eq_ok {body : Json} {receipt : Receipt} (read : readReceipt body = .ok (.ok receipt)) :
    validateDomain (.str (ofString receipt.agentId)) (.str receipt.actionType) (.str receipt.scope)
        receipt.timestamp true = .ok none ∧
      actionRefOf (ofString receipt.agentId) receipt.actionType receipt.scope receipt.timestamp =
        .ok (ofString receipt.actionRef) := by
  unfold readReceipt at read
  split at read
  · cases read
  obtain ⟨key, _, read⟩ := bind_ok read
  split at read
  · cases read
  dsimp only at read
  split at read
  · cases read
  obtain ⟨checked, admitted, read⟩ := bind_ok read
  split at read
  · cases read
  split at read
  · rename_i agent action extent isAgent isAction isExtent
    obtain ⟨expected, hashed, read⟩ := bind_ok read
    split at read
    · cases read
    obtain ⟨negotiated, _, read⟩ := bind_ok read
    split at read
    · cases read
    obtain ⟨actionRef, refBound, read⟩ := bind_ok read
    obtain ⟨agentId, agentBound, read⟩ := bind_ok read
    cases read
    rw [isAgent, isAction, isExtent] at admitted
    dsimp only
    rw [ofString_of_bindStr refBound, ofString_of_bindStr agentBound]
    exact ⟨admitted, hashed⟩
  · cases read

section
variable {settings : Settings} {trailId : String} {receipt : Receipt} {now : Seconds} {w : World} {created : Created}

/-- What an answered request leaves in the row that it inserted. -/
theorem stored_of_afterRecord {row : TrailRow} (stored : w.trails.find? trailId = some row)
    (answered : ((afterRecord settings trailId receipt now).run w).1 = .ok (.ok created)) :
    created.trailId = trailId ∧ ∃ text, Jcs.boundlessDumps
      (preimage (ofString receipt.agentId) receipt.actionType receipt.scope receipt.timestamp) = .ok text ∧
      ((afterRecord settings trailId receipt now).run w).2.trails.find? trailId =
        some { row with actionRef := some receipt.actionRef, preimageJson := some text } := by
  revert answered
  rw [afterRecord, Script.run_sql_bind, Script.run_bind, setTrailPreimage, Script.run_bind, Script.run_bound]
  cases dumped : Jcs.boundlessDumps
      (preimage (ofString receipt.agentId) receipt.actionType receipt.scope receipt.timestamp) with
  | error raised =>
      intro answered
      cases answered
  | ok text =>
      dsimp only [fromPy]
      rw [Script.run_sql]
      dsimp only
      let kept := (exec (.setPreimage trailId text) (exec (.setActionRef trailId receipt.actionRef) w).2).2
      have found : kept.trails.find? trailId =
          some { row with actionRef := some receipt.actionRef, preimageJson := some text } := by
        change (World.updateTrail (World.updateTrail w _ _ _) _ _ _).trails.find? _ = _
        rw [find?_updateTrail, if_pos rfl, find?_updateTrail, if_pos rfl, stored]
        rfl
      change (Script.run (billTrail trailId receipt now >>= _) kept).1 = _ → _ ∧ ∃ _, _ ∧
        (Script.run (billTrail trailId receipt now >>= _) kept).2.trails.find? _ = _
      rw [Script.run_bind]
      have billed : ((billTrail trailId receipt now).run kept).2.trails = kept.trails := by
        rcases billTrail_cases trailId receipt now kept with same | ⟨event, _, same⟩ <;> rw [same]
      rcases ended : (billTrail trailId receipt now).run kept with ⟨raised | _, after⟩
      · intro answered
        cases answered
      · rw [ended] at billed
        dsimp only at billed ⊢
        cases settings.arbPayOk with
        | true =>
            rintro ⟨⟩
            exact ⟨rfl, text, rfl, (congrArg (Table.find? · trailId) billed).trans found⟩
        | false =>
            rintro ⟨⟩
            exact ⟨rfl, text, rfl, (congrArg (Table.find? · trailId) billed).trans found⟩

theorem afterRefusal_ne_created (charged : Option Account) :
    ((afterRefusal settings charged receipt now).run w).1 ≠ .ok (.ok created) := by
  have refused : ∀ v : World, (Script.run (do
      let usedMonth ← countTrailsThisMonth settings receipt.agentId now
      if monthlyLimitFree ≤ usedMonth then return .error ⟨429, "monthly_limit_exceeded"⟩
      else return .error ⟨429, "rate limit exceeded"⟩ : Script (Except Refusal Created)) v).1 ≠ .ok (.ok created) := by
    intro v
    rw [countTrailsThisMonth, Script.run_sql_bind]
    split <;> rintro ⟨⟩
  cases charged with
  | none => exact refused w
  | some account => exact refused _

/-- A request answered 201 stored the reference and the preimage of its receipt. -/
theorem stored_of_nexusTrail {body : Json}
    (answered : ((nexusTrail settings trailId body now).run w).1 = .ok (.ok created)) :
    created.trailId = trailId ∧ ∃ receipt row text, readReceipt body = .ok (.ok receipt) ∧
      Jcs.boundlessDumps (preimage (ofString receipt.agentId) receipt.actionType receipt.scope receipt.timestamp) = .ok text ∧
      ((nexusTrail settings trailId body now).run w).2.trails.find? trailId = some row ∧
      row.actionRef = some receipt.actionRef ∧ row.preimageJson = some text := by
  revert answered
  rw [nexusTrail, Script.run_bind, Script.run_bound]
  rcases readReceipt body with raised | refusal | receipt
  · rintro ⟨⟩
  · rintro ⟨⟩
  dsimp only
  rw [Script.run_bind, chargeAgent_eq]
  dsimp only
  rw [Script.run_bind, run_recordTrail]
  cases settings.refuses (receipt.trail settings (w.payer? receipt.agentId).isSome) now
      (w.chargedFor receipt.agentId now) with
  | true =>
      rw [if_pos rfl]
      intro answered
      exact absurd answered (afterRefusal_ne_created _)
  | false =>
      rw [if_neg Bool.false_ne_true]
      cases made : (receipt.trail settings (w.payer? receipt.agentId).isSome).row trailId now with
      | error raised => rintro ⟨⟩
      | ok row =>
          dsimp only
          cases inserted : (w.chargedFor receipt.agentId now).trails.insert? row with
          | none => rintro ⟨⟩
          | some trails =>
              intro answered
              obtain ⟨named, _⟩ := row_stored made
              have stored : Table.find? trails trailId = some row := by
                rw [Table.find?_insert inserted]
                exact if_pos named
              have after := @stored_of_afterRecord settings trailId receipt now
                { w.chargedFor receipt.agentId now with trails } created row stored answered
              obtain ⟨returned, text, dumped, found⟩ := after
              exact ⟨returned, receipt, _, text, rfl, dumped, found, rfl, rfl⟩

end

/-- Every row that is there stays, with its reference and its preimage. -/
def World.KeepsReceipts (before after : World) : Prop := ∀ trailId row, before.trails.find? trailId = some row →
  ∃ later, after.trails.find? trailId = some later ∧ later.actionRef = row.actionRef ∧
    later.preimageJson = row.preimageJson

section
variable {before middle after w : World} {lower : String → String} {settings : Settings}

theorem keeps_of_trails (same : after.trails = before.trails) : before.KeepsReceipts after := by
  intro trailId row stored
  exact ⟨row, by rw [same, stored], rfl, rfl⟩

theorem World.KeepsReceipts.trans (first : before.KeepsReceipts middle) (second : middle.KeepsReceipts after) :
    before.KeepsReceipts after := by
  intro trailId row stored
  obtain ⟨between, found, ref, kept⟩ := first trailId row stored
  obtain ⟨later, found, ref', kept'⟩ := second trailId between found
  exact ⟨later, found, ref'.trans ref, kept'.trans kept⟩

/-- Rows are added at the end. -/
theorem keeps_of_append {more : List TrailRow} (longer : after.trails.rows = before.trails.rows ++ more) :
    before.KeepsReceipts after := by
  intro trailId row stored
  obtain ⟨member, named⟩ := Table.find?_eq_some_iff.mp stored
  have kept : row ∈ after.trails.rows := by
    rw [longer]
    exact List.mem_append_left more member
  exact ⟨row, Table.find?_eq_some_iff.mpr ⟨kept, named⟩, rfl, rfl⟩

theorem keeps_updateTrail (named : String) {f : TrailRow → TrailRow} {keeps : ∀ row, Keyed.key (f row) = Keyed.key row}
    (ref : ∀ row, (f row).actionRef = row.actionRef) (kept : ∀ row, (f row).preimageJson = row.preimageJson) :
    w.KeepsReceipts (w.updateTrail named f keeps) := by
  intro trailId row stored
  rw [find?_updateTrail]
  split
  · exact ⟨f row, by rw [stored, Option.map_some], ref row, kept row⟩
  · exact ⟨row, stored, rfl, rfl⟩

theorem keeps_exec {β : Type} {op : Sql β} (leaves : LeavesReceipts op) : w.KeepsReceipts (exec op w).2 := by
  cases op with
  | setActionRef | setPreimage => exact absurd leaves id
  | setTxHash | confirmAnchor | failAnchor =>
      simp only [exec]
      exact keeps_updateTrail _ (fun _ => rfl) fun _ => rfl
  | insertTrail row =>
      simp only [exec]
      cases inserted : w.trails.insert? row with
      | none => exact keeps_of_trails rfl
      | some trails => exact keeps_of_append (Table.rows_insert inserted)
  | insertIntent row =>
      simp only [exec]
      cases w.intents.insert? row <;> exact keeps_of_trails rfl
  | rekey newApiKey oldApiKey now =>
      simp only [exec]
      cases w.accounts.rekey? (fun row => row.apiKey = oldApiKey) fun row =>
        { row with apiKey := newApiKey, updatedAt := now } <;> exact keeps_of_trails rfl
  | _ => exact keeps_of_trails rfl

theorem keeps_nexusTrail (trailId : String) (body : Json) (now : Seconds) :
    w.KeepsReceipts ((nexusTrail settings trailId body now).run w).2 := by
  obtain ⟨accounts, same | ⟨receipt, _, recorded⟩⟩ := nexusTrail_frame settings trailId body now w
  · rw [same]
    exact keeps_of_trails rfl
  · obtain ⟨row, rows, _⟩ := recorded.trails
    exact keeps_of_append rows

theorem keeps_externalTrail (call : ExternalCall) :
    w.KeepsReceipts ((externalTrail lower settings call).run w).2 := by
  rcases run_externalTrail lower settings call w with ⟨_, same, _⟩ | ⟨request, account, _, same⟩
  · rw [same]
    exact keeps_of_trails rfl
  · rw [same]
    rcases run_recordExternal lower settings call w request account with
      ⟨_, _, after⟩ | ⟨_, _, _, after⟩ | ⟨_, _, _, trails, row, rows, _, _, after⟩
    · rw [after]
      exact keeps_of_trails rfl
    · rw [after]
      exact keeps_of_trails rfl
    · rw [after]
      exact keeps_of_append rows

/-- No activity touches a receipt that is there. -/
theorem keeps_step (service : Service) (activity : Activity) :
    service.world.KeepsReceipts (service.step lower settings activity).world := by
  cases activity with
  | nexus trailId body now => exact keeps_nexusTrail trailId body now
  | external call => exact keeps_externalTrail call
  | register uuid =>
      simp only [Service.step]
      split <;> exact keeps_of_trails rfl
  | statement op leaves => exact keeps_exec leaves

theorem keeps_run (service : Service) (activities : List Activity) :
    service.world.KeepsReceipts (run (Service.step lower settings) service activities).world := by
  induction activities generalizing service with
  | nil => exact keeps_of_trails rfl
  | cons activity later ih => exact (keeps_step service activity).trans (ih _)

end

/-- The ids of the marketplace are of eight characters. -/
theorem marketplace_run {lower : String → String} {settings : Settings} (start : World) (activities : List Activity) :
    ∀ trailId ∈ (run (Service.step lower settings) ⟨start, []⟩ activities).marketplace, trailId.length = 8 := by
  refine run_invariant (P := fun service : Service => ∀ trailId ∈ service.marketplace, trailId.length = 8) ?_ activities
    (by simp)
  intro service activity short
  cases activity with
  | nexus | external | statement => exact short
  | register uuid =>
      simp only [Service.step]
      split
      · exact short
      · intro trailId member
        rcases List.mem_append.mp member with earlier | last
        · exact short trailId earlier
        · rw [List.mem_singleton.mp last, String.length_ofList, List.length_take, String.length_toList, uuid.long]
          rfl

/-- A receipt that is answered 201 stays recomputable, whatever goes on after it. -/
theorem provesReceipts {lower : String → String} {settings : Settings} (parseFloat : Str → Float64) (start : World)
    (before : List Activity) (uuid : Uuid) (body : Json) (now : Seconds) (later : List Activity) {created : Created}
    (answered : ((nexusTrail settings uuid.text body now).run
      (run (Service.step lower settings) ⟨start, []⟩ before).world).1 = .ok (.ok created)) :
    ∃ receipt row proof, readReceipt body = .ok (.ok receipt) ∧
      getTrail parseFloat (run (Service.step lower settings) ⟨start, []⟩ (before ++ .nexus uuid.text body now :: later))
        created.trailId = .ok (.mycelium row (some proof)) ∧ Proves receipt row proof := by
  obtain ⟨returned, receipt, first, text, read, dumped, stored, ref, kept⟩ := stored_of_nexusTrail answered
  obtain ⟨admitted, hashed⟩ := readReceipt_eq_ok read
  have short := @marketplace_run lower settings start (before ++ .nexus uuid.text body now :: later)
  rw [run_append, run_cons] at short ⊢
  let recorded := (run (Service.step lower settings) ⟨start, []⟩ before).step lower settings (.nexus uuid.text body now)
  obtain ⟨row, found, ref', kept'⟩ := @keeps_run lower settings recorded later uuid.text first stored
  obtain ⟨proof, proved, proves⟩ := @proves_of_stored parseFloat receipt row text (ref'.trans ref) (kept'.trans kept)
    dumped hashed admitted
  refine ⟨receipt, row, proof, read, ?_, proves⟩
  rw [returned, getTrail, if_neg, found]
  · exact congrArg (fun proof => Except.ok (TrailPage.mycelium row proof)) proved
  · intro member
    have eight := short uuid.text member
    rw [uuid.long] at eight
    cases eight

/-- A receipt whose fields have to be escaped, at a time of RFC 3339. -/
def escapedReceipt : Json :=
  let (agent, action, extent, time) : Str × Str × Str × Str :=
    (ofString "a\"gent", [112, 0, 10, 31], ofString "all\\", ofString "2026-06-29T17:00:00.000Z")
  .dict [(ofString "action_ref", .str ((actionRefOf agent action extent time).toOption.getD [])),
    (ofString "service", .str (ofString "nexus")),
    (ofString "preimage", .dict [(ofString "agent_id", .str agent), (ofString "action_type", .str action),
      (ofString "scope", .str extent), (ofString "timestamp", .str time)])]

def drawn : Uuid := ⟨"0b8f7c52-9d1e-4c3a-8f60-2e5d7a913b4c", by decide⟩

/-- It is anchored, a marketplace trail is registered, and the receipt is sent again. -/
def goesOn : List Activity :=
  [.statement (.setTxHash drawn.text "0x1" 200) trivial, .register drawn, .nexus drawn.text escapedReceipt 300]

/-- What a script answers, where it is no refusal and no exception. -/
def answer? {α : Type} : Except Raised (Except Refusal α) → Option α
  | .ok (.ok answer) => some answer
  | _ => none

theorem answer?_eq_some {α : Type} {result : Except Raised (Except Refusal α)} {answer : α}
    (answered : answer? result = some answer) : result = .ok (.ok answer) := by
  unfold answer? at answered
  split at answered
  · cases answered
    rfl
  · cases answered

theorem provesReceipts_escaped : ∃ (created : Created) (receipt : Receipt) (row : TrailRow) (proof : AnchorProof),
    readReceipt escapedReceipt = .ok (.ok receipt) ∧ timestampShaped receipt.timestamp = true ∧
    getTrail (fun _ => .nan) (run (Service.step id deployed) ⟨oneCredit, []⟩
      ([] ++ .nexus drawn.text escapedReceipt 100 :: goesOn)) created.trailId = .ok (.mycelium row (some proof)) ∧
    Proves receipt row proof := by
  have answers : (answer? ((nexusTrail deployed drawn.text escapedReceipt 100).run oneCredit).1).isSome := by
    decide +kernel
  have shaped : (answer? (readReceipt escapedReceipt)).all (fun receipt => timestampShaped receipt.timestamp) := by
    decide +kernel
  obtain ⟨created, answered⟩ := Option.isSome_iff_exists.mp answers
  obtain ⟨receipt, row, proof, read, page, proves⟩ := @provesReceipts id deployed (fun _ => .nan) oneCredit [] drawn
    escapedReceipt 100 goesOn created (answer?_eq_some answered)
  rw [read] at shaped
  exact ⟨created, receipt, row, proof, read, shaped, page, proves⟩

end Argentum.Mycelium
