import Argentum.Mycelium.Negotiation
import Argentum.Mycelium.Webhook
import Argentum.Trail.Dumps

/-! `POST /webhook/docuseal`. A signed document is fetched, where its URL is allowed to be, and
its hash becomes the reference of the negotiation; where there is none, a status says why. The
trail is left to Pioneer, and recorded here where Pioneer does not take it. -/
namespace Argentum.Mycelium.Docuseal
open Argentum Text Url Transition

/-- An address of either family, as its number. -/
inductive IpNumber where
  | v4 (n : Nat)
  | v6 (n : Nat)

/-- `ip in net`, for a network of this length; the families are apart. -/
def IpNumber.within : IpNumber → IpNumber → Nat → Bool
  | .v4 n, .v4 base, length => n / 2 ^ (32 - length) = base / 2 ^ (32 - length)
  | .v6 n, .v6 base, length => n / 2 ^ (128 - length) = base / 2 ^ (128 - length)
  | _, _, _ => false

/-- `_PRIVATE_NETWORKS` -/
def privateNetworks : List (IpNumber × Nat) :=
  [(.v4 0x7F000000, 8), (.v6 1, 128), (.v4 0x0A000000, 8), (.v4 0xAC100000, 12), (.v4 0xC0A80000, 16),
    (.v4 0xA9FE0000, 16), (.v4 0, 8), (.v6 (0xFC * 2 ^ 120), 7)]

def IpNumber.isPrivate (ip : IpNumber) : Bool := privateNetworks.any fun network => ip.within network.1 network.2

/-- `_DOCUSEAL_ALLOWED_HOSTS` -/
def allowedHosts : List Str :=
  [ofString "api.docuseal.com", ofString "api.docuseal.co", ofString "app.docuseal.com", ofString "docuseal.com"]

/-- An answer to a request for a document. -/
inductive Fetched where
  | unreachable
  | response (status : Nat) (content : Bytes)

/-- What is posted to Pioneer. -/
structure Activation where
  submissionId : Str
  signerEmail : Json
  negotiationRef : Option Str
  negotiationRefStatus : String

/-- The deployment and what it can reach: the resolver, `ipaddress.ip_address` by number, which
may raise, the documents, and whether Pioneer answers 200. `str` is the one of Python. -/
structure Service where
  docusealToken : Str
  settings : Settings
  machine : Webhook.Machine
  number : Str → Option IpNumber
  fetch : Str → Fetched
  pioneer : Activation → Bool
  str : Json → Str

/-- The loop over the addresses of a host. -/
def Service.allPublic (service : Service) (infos : List Str) : Bool :=
  infos.all fun text => (service.number text).any fun ip => !ip.isPrivate

/-- `_safe_docuseal_url`, where an exception is a no. -/
def Service.safeDocusealUrl (service : Service) (url : Str) : Bool :=
  match urlsplit service.machine.addresses service.machine.nfkc url with
  | .error _ => false
  | .ok parts =>
      let host := (parts.hostname service.machine.casing).getD []
      parts.scheme = ofString "https" && allowedHosts.contains host &&
        (service.machine.getaddrinfo host).any service.allPublic

/-- `_fetch_negotiation_ref`; a URL that is no text is not parsed. -/
def Service.fetchNegotiationRef (service : Service) (documentUrl : Json) : Option Str × String :=
  if !documentUrl.truthy then (none, "no_document")
  else
    match documentUrl with
    | .str url =>
        if !service.safeDocusealUrl url then (none, "not_allowlisted")
        else
          match service.fetch url with
          | .unreachable => (none, "unreachable")
          | .response status content =>
              if status ≠ 200 then (none, "http_error")
              else if content = [] then (none, "empty_body")
              else (some (hexOf (Sha256.sha256 content)), "ok")
    | _ => (none, "not_allowlisted")

/-- A delivery: the three headers, the body, which may be no JSON, and what the clock and
`uuid4` say. `timestamp` is the clock in the text of the action reference. -/
structure Call where
  signature : Option Str
  token : Option Str
  webhookToken : Option Str
  body : Option Json
  timestamp : Str
  trailId : String
  now : Seconds

/-- The first of the headers that is not empty. -/
def Call.sig (call : Call) : Str :=
  ((call.signature.filter (· ≠ [])).or ((call.token.filter (· ≠ [])).or call.webhookToken)).getD []

/-- `hmac.compare_digest` of two texts, which have to be of ASCII. -/
def compareDigest (first second : Str) : Except Raised Bool :=
  if first.all (fun c => c.val < 128) && second.all (fun c => c.val < 128) then .ok (first = second)
  else .error (.python .typeError)

/-- The submission of an event, its signer, and the URL of its first document or of its audit log. -/
structure Submission where
  submissionId : Json
  signerEmail : Json
  documentUrl : Json

/-- The URL of the first document, where there are documents. -/
def firstUrl (documents : Json) : Except Raised Json :=
  if !documents.truthy then .ok .null
  else
    match documents with
    | .list (document :: _) =>
        if document.isDict then .ok (document.get (ofString "url")) else .error .attributeError
    | .str _ => .error .attributeError
    | .dict _ => .error (.python .keyError)
    | _ => .error (.python .typeError)

def readSubmission (data : Json) : Except Raised Submission := do
  let submission := data.getD (ofString "submission") (.dict [])
  if !data.isDict || !submission.isDict then .error .attributeError
  else do
    let url ← firstUrl (data.getD (ofString "documents") (.list []))
    return { submissionId := (submission.get (ofString "id")).or (data.getD (ofString "id") (.str []))
             signerEmail := data.getD (ofString "email") (.str [])
             documentUrl := url.or (data.getD (ofString "audit_log_url") (.str [])) }

/-- The action reference of the activation. -/
def rsaActionRef (timestamp : Str) : Except Raised Str := do
  let canonical ← fromPy (Dumps.encodeUtf8 (Dumps.dumps (.dict
    [(ofString "action_type", .str (ofString "rsa_activation")),
      (ofString "agent_id", .str (ofString "pioneer-agent-001")),
      (ofString "scope", .str (ofString "mycelium.safeagent")), (ofString "timestamp", .str timestamp)])))
  return hexOf (Sha256.sha256 canonical)

/-- The trail that is recorded where Pioneer does not take it. -/
def rsaTrail (settings : Settings) (actionRef : Str) (negotiation : Option Str × String) : NewTrail :=
  { agentId := "pioneer-agent-001"
    service := .str (ofString "mycelium.safeagent")
    operation := ofString "rsa_activation"
    nonce := actionRef
    rateLimitCap := settings.trailDailyLimit
    scope := some (ofString "mycelium.safeagent")
    negotiationRef := (negotiation.1.map Json.str).getD .null
    negotiationRefStatus := some negotiation.2 }

inductive Answer where
  | ignored (eventType : Json)
  | triggered (submissionId : Str) (signerEmail : Json) (negotiationRef : Option Str) (negotiationRefStatus : String)
      (viaPioneer : Bool) (trailId : Option String)

/-- What follows on a submission that was read. -/
def Service.activate (service : Service) (call : Call) (submission : Submission) : Script (Except Refusal Answer) := do
  let negotiation := service.fetchNegotiationRef submission.documentUrl
  let submissionId := service.str submission.submissionId
  if service.pioneer ⟨submissionId, submission.signerEmail, negotiation.1, negotiation.2⟩ then
    return .ok (.triggered submissionId submission.signerEmail negotiation.1 negotiation.2 true none)
  else do
    let actionRef ← bound (rsaActionRef call.timestamp)
    let trailId ← recordTrail service.settings call.trailId (rsaTrail service.settings actionRef negotiation) call.now
    return .ok (.triggered submissionId submission.signerEmail negotiation.1 negotiation.2 false trailId)

/-- The part of the handler after the token was compared. -/
def Service.handle (service : Service) (call : Call) : Script (Except Refusal Answer) :=
  match call.body with
  | none => return .error ⟨400, "invalid JSON"⟩
  | some body =>
      if !body.isDict then bound (.error .attributeError)
      else
        let eventType := body.getD (ofString "event_type") (.str [])
        if !(eventType.eq (.str (ofString "form.completed")) ||
            eventType.eq (.str (ofString "submission.completed"))) then
          return .ok (.ignored eventType)
        else do
          let submission ← bound (readSubmission (body.getD (ofString "data") (.dict [])))
          service.activate call submission

/-- `docuseal_webhook` -/
def Service.docusealWebhook (service : Service) (call : Call) : Script (Except Refusal Answer) :=
  if service.docusealToken = [] then return .error ⟨503, "webhook not configured"⟩
  else if call.sig = [] then return .error ⟨401, "Invalid DocuSeal token"⟩
  else do
    if ← bound (compareDigest call.sig service.docusealToken) then service.handle call
    else return .error ⟨401, "Invalid DocuSeal token"⟩

/-- A URL of HTTPS whose host is one of DocuSeal's, and resolves to no private address. -/
def Service.Allowed (service : Service) (url : Str) : Prop :=
  ∃ parts host infos, urlsplit service.machine.addresses service.machine.nfkc url = .ok parts ∧
    parts.scheme = ofString "https" ∧ parts.hostname service.machine.casing = some host ∧ host ∈ allowedHosts ∧
    service.machine.getaddrinfo host = some infos ∧
    ∀ text ∈ infos, ∃ ip, service.number text = some ip ∧ ip.isPrivate = false

/-- A negotiation as it is obtained: the hash of what an allowed URL served, with `ok`, or no
reference and another status. -/
structure Service.Obtained (service : Service) (documentUrl : Json) (negotiation : Option Str × String) : Prop where
  listed : negotiation.2 ∈ negotiationRefStatuses
  paired : negotiation.2 = "ok" ↔ negotiation.1.isSome
  hashed : ∀ hash, negotiation.1 = some hash → ∃ url content, documentUrl = .str url ∧ service.Allowed url ∧
    service.fetch url = .response 200 content ∧ content ≠ [] ∧ hash = hexOf (Sha256.sha256 content)

/-- The delivery carries the token of the deployment, which has one. -/
def Service.Authorised (service : Service) (call : Call) : Prop :=
  service.docusealToken ≠ [] ∧ call.sig = service.docusealToken

/-- The body of the delivery is a completion of this submission. -/
def Call.Completes (call : Call) (submission : Submission) : Prop :=
  ∃ body, call.body = some body ∧ readSubmission (body.getD (ofString "data") (.dict [])) = .ok submission

/-- The row that a delivery leaves. -/
structure Call.Row (call : Call) (negotiation : Option Str × String) (row : TrailRow) : Prop where
  named : row.trailId = call.trailId
  agent : row.agentId = "pioneer-agent-001"
  timestamp : row.timestamp = call.now
  status : row.negotiationRefStatus = some negotiation.2
  reference : bindText ((negotiation.1.map Json.str).getD .null) = .ok row.negotiationRef
  consistent : row.Consistent

/-- What a delivery may end in: the answer, and the tables it leaves. -/
inductive Service.Ends (service : Service) (call : Call) (w : World) :
    Except Raised (Except Refusal Answer) × World → Prop
  | refused (refusal : Refusal) : service.Ends call w (.ok (.error refusal), w)
  | raised (raised : Raised) : service.Ends call w (.error raised, w)
  | ignored (eventType : Json) : service.Authorised call → service.Ends call w (.ok (.ok (.ignored eventType)), w)
  | unrecorded {submission : Submission} {negotiation : Option Str × String} (viaPioneer : Bool) :
      service.Authorised call → call.Completes submission → service.Obtained submission.documentUrl negotiation →
      service.Ends call w (.ok (.ok (.triggered (service.str submission.submissionId) submission.signerEmail
        negotiation.1 negotiation.2 viaPioneer none)), w)
  | recorded {submission : Submission} {negotiation : Option Str × String} {row : TrailRow} {after : World} :
      service.Authorised call → call.Completes submission → service.Obtained submission.documentUrl negotiation →
      service.pioneer ⟨service.str submission.submissionId, submission.signerEmail, negotiation.1, negotiation.2⟩ =
        false →
      call.Row negotiation row → after = { w with trails := after.trails } →
      after.trails.rows = w.trails.rows ++ [row] →
      service.Ends call w (.ok (.ok (.triggered (service.str submission.submissionId) submission.signerEmail
        negotiation.1 negotiation.2 false (some call.trailId))), after)

section
variable {service : Service} {call : Call} {w : World}

theorem allowed_of_safe {url : Str} (safe : service.safeDocusealUrl url = true) : service.Allowed url := by
  unfold Service.safeDocusealUrl at safe
  split at safe
  · cases safe
  rename_i parts split
  dsimp only at safe
  rw [Bool.and_eq_true, Bool.and_eq_true, decide_eq_true_eq, List.contains_iff_mem] at safe
  obtain ⟨⟨scheme, listed⟩, resolved⟩ := safe
  cases named : parts.hostname service.machine.casing with
  | none =>
      rw [named] at listed
      exact absurd listed (by decide)
  | some host =>
      rw [named, Option.getD_some] at listed resolved
      obtain ⟨infos, found, every⟩ := (Option.any_eq_true _ _).mp resolved
      refine ⟨parts, host, infos, split, scheme, named, listed, found, fun text member => ?_⟩
      obtain ⟨ip, shown, outside⟩ := (Option.any_eq_true _ _).mp (List.all_eq_true.mp every text member)
      exact ⟨ip, shown, by simpa using outside⟩

theorem fetchNegotiationRef_obtained (documentUrl : Json) :
    service.Obtained documentUrl (service.fetchNegotiationRef documentUrl) := by
  unfold Service.fetchNegotiationRef
  split
  · exact ⟨by decide, by decide, fun _ none => nomatch none⟩
  split
  · rename_i url _
    split
    · exact ⟨by decide, by decide, fun _ none => nomatch none⟩
    rename_i safe
    cases served : service.fetch url with
    | unreachable => exact ⟨by decide, by decide, fun _ none => nomatch none⟩
    | response status content =>
        dsimp only
        split
        · exact ⟨by decide, by decide, fun _ none => nomatch none⟩
        rename_i succeeded
        split
        · exact ⟨by decide, by decide, fun _ none => nomatch none⟩
        rename_i full
        refine ⟨show "ok" ∈ negotiationRefStatuses by decide, by simp, fun hash same => ?_⟩
        rw [not_not.mp succeeded] at served
        exact ⟨url, content, rfl, allowed_of_safe (by simpa using safe), served, full, (Option.some.inj same).symm⟩
  · exact ⟨by decide, by decide, fun _ none => nomatch none⟩

/-- An obtained reference is a hash, and is stored. -/
theorem consistent_rsaTrail {settings : Settings} {actionRef : Str} {documentUrl : Json}
    {negotiation : Option Str × String} (obtained : service.Obtained documentUrl negotiation) :
    (rsaTrail settings actionRef negotiation).Consistent := by
  intro status held
  cases held
  change (negotiation.2 = "ok" ↔ isStored ((negotiation.1.map Json.str).getD .null) = true) ∧
    (negotiation.1.map Json.str).getD .null ≠ .str []
  rw [obtained.paired]
  cases found : negotiation.1 with
  | none => exact ⟨by decide, nofun⟩
  | some hash =>
      obtain ⟨_, content, _, _, _, _, rfl⟩ := obtained.hashed hash found
      refine ⟨by simp [isStored], fun empty => ?_⟩
      have length := length_hexOf (Sha256.sha256 content)
      injection (show Json.str (hexOf (Sha256.sha256 content)) = .str [] from empty) with none
      rw [none, Sha256.length_sha256] at length
      exact absurd length (by decide)

theorem ends_activate {submission : Submission} (authorised : service.Authorised call)
    (completes : call.Completes submission) : service.Ends call w ((service.activate call submission).run w) := by
  have obtained : service.Obtained _ _ := fetchNegotiationRef_obtained submission.documentUrl
  rw [Service.activate]
  cases taken : service.pioneer ⟨service.str submission.submissionId, submission.signerEmail,
      (service.fetchNegotiationRef submission.documentUrl).1,
      (service.fetchNegotiationRef submission.documentUrl).2⟩ with
  | true => exact .unrecorded true authorised completes obtained
  | false =>
      rw [if_neg Bool.false_ne_true, Script.run_bind, Script.run_bound]
      cases rsaActionRef call.timestamp with
      | error raised => exact .raised raised
      | ok actionRef =>
          let trail := rsaTrail service.settings actionRef (service.fetchNegotiationRef submission.documentUrl)
          change service.Ends call w
            (Script.run (recordTrail service.settings call.trailId trail call.now >>= _) w)
          have ran := run_recordTrail service.settings call.trailId trail call.now w
          split at ran
          · rw [Script.run_bind, ran]
            exact .unrecorded false authorised completes obtained
          rename_i accepted
          cases made : trail.row call.trailId call.now with
          | error raised =>
              rw [made] at ran
              rw [Script.run_bind, ran]
              exact .raised raised
          | ok row =>
              rw [made] at ran
              dsimp only at ran
              cases inserted : w.trails.insert? row with
              | none =>
                  rw [inserted] at ran
                  rw [Script.run_bind, ran]
                  exact .raised .integrityError
              | some trails =>
                  rw [inserted] at ran
                  rw [Script.run_bind, ran]
                  have valid : trail.invalid = false := by
                    rw [Settings.refuses, Bool.or_eq_true, not_or] at accepted
                    simpa using accepted.1
                  have stored := row_stored made
                  obtain ⟨reference, status⟩ := row_negotiation made
                  exact .recorded authorised completes obtained taken
                    ⟨stored.named, stored.agent, stored.timestamp, status, reference,
                      consistent_row (consistent_rsaTrail obtained) valid made⟩
                    rfl (Table.rows_insert inserted)

theorem ends_docusealWebhook (service : Service) (call : Call) (w : World) :
    service.Ends call w ((service.docusealWebhook call).run w) := by
  unfold Service.docusealWebhook
  split
  · exact .refused _
  rename_i configured
  split
  · exact .refused _
  rw [Script.run_bind, Script.run_bound]
  cases compared : compareDigest call.sig service.docusealToken with
  | error raised => exact .raised raised
  | ok same =>
      cases same with
      | false => exact .refused _
      | true =>
          have authorised : service.Authorised call := by
            refine ⟨configured, ?_⟩
            rw [compareDigest] at compared
            split at compared
            · injection compared with equal
              simpa using equal
            · cases compared
          change service.Ends call w ((service.handle call).run w)
          unfold Service.handle
          split
          · exact .refused _
          rename_i body given
          split
          · exact .raised _
          dsimp only
          split
          · exact .ignored _ authorised
          rw [Script.run_bind, Script.run_bound]
          cases read : readSubmission (body.getD (ofString "data") (.dict [])) with
          | error raised => exact .raised raised
          | ok submission => exact ends_activate authorised ⟨body, given, read⟩

/-- Only allowed URLs are fetched: what any other would serve makes no difference. -/
theorem docusealWebhook_congr {fetch : Str → Fetched}
    (same : ∀ url, service.Allowed url → fetch url = service.fetch url) :
    ({ service with fetch } : Service).docusealWebhook call = service.docusealWebhook call := by
  have fetched (documentUrl : Json) : ({ service with fetch } : Service).fetchNegotiationRef documentUrl =
      service.fetchNegotiationRef documentUrl := by
    unfold Service.fetchNegotiationRef
    split
    · rfl
    split
    · rename_i url _
      have checked : ({ service with fetch } : Service).safeDocusealUrl url = service.safeDocusealUrl url := rfl
      rw [checked]
      split
      · rfl
      · rename_i safe
        rw [show ({ service with fetch } : Service).fetch url = service.fetch url from
          same url (allowed_of_safe (by simpa using safe))]
    · rfl
  have activated (submission : Submission) : ({ service with fetch } : Service).activate call submission =
      service.activate call submission := by
    rw [Service.activate, Service.activate, fetched]
  unfold Service.docusealWebhook Service.handle
  simp only [activated]

/-- A delivery ends in one of the ways of `Ends`, and only what is served under allowed URLs
has a part in how. -/
theorem delivered (service : Service) (call : Call) (w : World) :
    service.Ends call w ((service.docusealWebhook call).run w) ∧
      ∀ fetch, (∀ url, service.Allowed url → fetch url = service.fetch url) →
        (({ service with fetch } : Service).docusealWebhook call).run w = (service.docusealWebhook call).run w :=
  ⟨ends_docusealWebhook service call w, fun _ same => by rw [docusealWebhook_congr same]⟩

theorem inserts_docusealWebhook : Script.Uses (Inserts TrailRow.Consistent) (service.docusealWebhook call) := by
  have activates (submission : Submission) :
      Script.Uses (Inserts TrailRow.Consistent) (service.activate call submission) := by
    unfold Service.activate
    dsimp only
    split
    · exact Script.uses_pure _
    generalize rsaActionRef call.timestamp = hashed
    refine Script.Uses.bind (Script.uses_bound hashed) fun actionRef => ?_
    have obtained : service.Obtained _ _ := fetchNegotiationRef_obtained submission.documentUrl
    have consistent : (rsaTrail service.settings actionRef _).Consistent := consistent_rsaTrail obtained
    refine Script.Uses.bind (inserts_recordTrail fun valid row made => ?_) fun _ => Script.uses_pure _
    exact consistent_row consistent valid made
  unfold Service.docusealWebhook
  split
  · exact Script.uses_pure _
  split
  · exact Script.uses_pure _
  refine Script.Uses.bind (Script.uses_bound _) fun same => ?_
  split
  · unfold Service.handle
    split
    · exact Script.uses_pure _
    split
    · exact Script.uses_bound _
    dsimp only
    split
    · exact Script.uses_pure _
    · exact Script.Uses.bind (Script.uses_bound _) fun submission => activates submission
  · exact Script.uses_pure _

end

/-- The calls of a deployment that record trails, and the others. A trail on the service's own
account is one of `submit_action`, `attest_action` and the demonstration. -/
inductive Recording (Other : Type) where
  | receipt (trailId : String) (body : Json) (now : Seconds)
  | external (call : ExternalCall)
  | delivery (call : Call)
  | own (trailId : String) (trail : NewTrail) (now : Seconds)
  | other (call : Other)

section
variable {Other : Type} (service : Service) (lower : String → String) (others : Other → Script Unit)

def Recording.code : Recording Other → Program Sql (Except Raised Unit)
  | .receipt trailId body now => ExceptT.run do let _ ← nexusTrail service.settings trailId body now
  | .external call => ExceptT.run do let _ ← externalTrail lower service.settings call
  | .delivery call => ExceptT.run do let _ ← service.docusealWebhook call
  | .own trailId trail now => ExceptT.run do let _ ← recordTrail service.settings trailId trail now
  | .other call => ExceptT.run (others call)

/-- The tables after these moves of the calls, statement by statement, from these. -/
def Recording.reached (start : World) (moves : List (Move (Recording Other))) : World :=
  (run (Pool.step exec (Recording.code service lower others)) ⟨start, []⟩ moves).state

/-- A receipt keeps its reference, and a trail on the service's own account says nothing of a
negotiation. -/
def Recording.Reports : Recording Other → Prop
  | .receipt _ body _ => KeepsReference body
  | .own _ trail _ => trail.negotiationRefStatus = none
  | _ => True

theorem Recording.inserts {call : Recording Other} (reports : call.Reports)
    (elsewhere : ∀ call, Script.Uses (Inserts fun _ => False) (others call)) :
    (call.code service lower others).Uses (Inserts TrailRow.Consistent) := by
  cases call with
  | receipt trailId body now =>
      refine Script.Uses.bind (inserts_nexusTrail fun receipt consumed row read valid made => ?_)
        fun _ => Script.uses_pure _
      exact consistent_row (consistent_receipt reports read) valid made
  | external call => exact Script.Uses.bind inserts_externalTrail fun _ => Script.uses_pure _
  | delivery call => exact Script.Uses.bind inserts_docusealWebhook fun _ => Script.uses_pure _
  | own trailId trail now =>
      refine Script.Uses.bind (inserts_recordTrail fun valid row made => ?_) fun _ => Script.uses_pure _
      exact consistent_row (consistent_of_unstated reports) valid made
  | other call =>
      refine Program.Uses.mono (elsewhere call) fun op inserts => ?_
      cases op with
      | insertTrail row => exact inserts.elim
      | _ => trivial

/-- In every interleaving of the calls, crashes included, what `verify_chain` reports of a
negotiation hangs together. -/
theorem negotiations_coherent {start : World} {moves : List (Move (Recording Other))}
    (elsewhere : ∀ call, Script.Uses (Inserts fun _ => False) (others call)) (consistent : start.Consistent)
    (reports : ∀ call, .start call ∈ moves → call.Reports) :
    (Recording.reached service lower others start moves).NegotiationsCoherent :=
  coherent_of_consistent (Pool.uses_run (fun call started => Recording.inserts service lower others
    (reports call started) elsewhere) consistent_exec consistent)

end

/-- A deployment that Pioneer does not answer. -/
def deployment : Service where
  docusealToken := ofString "token"
  settings := deployed
  machine :=
    { Webhook.oneHost with
      getaddrinfo := fun host => if host = ofString "docuseal.com" then some [ofString "93.184.215.14"] else none }
  number text := if text = ofString "93.184.215.14" then some (.v4 0x5DB8D70E) else none
  fetch _ := .response 200 [37, 80, 68, 70]
  pioneer _ := false
  str := pyStr

def completed (trailId : String) : Call where
  signature := none
  token := some (ofString "token")
  webhookToken := none
  body := some (.dict [(ofString "event_type", .str (ofString "form.completed")),
    (ofString "data", .dict [(ofString "id", .int 7), (ofString "documents",
      .list [.dict [(ofString "url", .str (ofString "https://docuseal.com/file/signed.pdf"))]])])])
  timestamp := ofString "2026-09-22T00:00:00.000Z"
  trailId
  now := 100

/-- Two deliveries at once, of which the first dies before its `INSERT`. -/
def twoDeliveries : List (Move (Recording Empty)) :=
  [.start (.delivery (completed "first")), .start (.delivery (completed "second")), .advance 0, .advance 1, .advance 1,
    .crash 0, .advance 0]

theorem negotiations_coherent_twoDeliveries :
    ((Recording.reached deployment id nofun .empty twoDeliveries).trails.rows.map
      fun row => (row.trailId, row.negotiationRefStatus)) = [("second", some "ok")] ∧
    (Recording.reached deployment id nofun .empty twoDeliveries).NegotiationsCoherent := by
  constructor
  · decide +kernel
  apply negotiations_coherent
  · intro call
    cases call
  · intro row member
    cases member
  · intro call started
    simp only [twoDeliveries, List.mem_cons, Move.start.injEq, reduceCtorEq, List.not_mem_nil, or_false] at started
    rcases started with rfl | rfl <;> trivial

end Argentum.Mycelium.Docuseal
