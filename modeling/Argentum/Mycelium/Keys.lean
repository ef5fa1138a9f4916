import Argentum.Mycelium.Certification
import Argentum.Mycelium.Invoices
import Argentum.Mycelium.Poller
import Argentum.Mycelium.Webhook

/-! The accounts over whole runs. An account is known by its key, which its owner shows with
each request and an administrator may replace. Of an account, the handlers that do not spend
its credit write its key, its source and its webhook; what they write is an event on the list
of profiles. A source of a tier comes from an administrator, a webhook from who had the key,
and a key that was replaced opens nothing again. -/
namespace Argentum.Mycelium
open Argentum Text Transition Webhook

/-- `create_payg_account`; the key is the hexadecimal `uuid4` the call draws. -/
def createPaygAccount (w : World) (apiKey : String) (agentId : Str) (now : Seconds) : Except Raised String × World :=
  match bindStr agentId with
  | .error raised => (.error raised, w)
  | .ok agentId =>
      constrained w apiKey ((w.accounts.insert? ⟨apiKey, agentId, .free, 0, none, none, now, now⟩).map
        fun accounts => { w with accounts })

/-- `set_payg_webhook` -/
def setPaygWebhook (w : World) (apiKey : String) (url : Option String) (now : Seconds) : Option Account × World :=
  let after := w.updateAccounts (fun row => row.apiKey = apiKey)
    (fun row => { row with notifyWebhook := url, updatedAt := now }) fun _ => rfl
  (after.accounts.find? apiKey, after)

/-- `set_account_webhook` -/
def setAccountWebhook (settings : Settings) (machine : Machine) (apiKey : Str) (url : Option Str) (now : Seconds)
    (w : World) : Except Raised (Except Refusal Account) × World :=
  let url := strip (url.getD [])
  if url ≠ [] ∧ ¬ (settings.webhookOk && isSafeWebhookUrl machine url) = true then
    (.ok (.error ⟨422, "invalid webhook url — must be http(s) and resolve to a public host"⟩), w)
  else
    match (if url = [] then .ok none else (bindStr url).map some : Except Raised (Option String)), bindStr apiKey with
    | .ok url, .ok apiKey =>
        match setPaygWebhook w apiKey url now with
        | (none, after) => (.ok (.error ⟨404, "api_key not found"⟩), after)
        | (some account, after) => (.ok (.ok account), after)
    | .error raised, _ => (.error raised, w)
    | _, .error raised => (.error raised, w)

structure Rotated where
  oldApiKey : String
  newApiKey : String
  agentId : String
  deriving DecidableEq

/-- `rotate_account_api_key` -/
def rotateAccountApiKey (adminToken token newApiKey : String) (apiKey : Str) (now : Seconds) :
    Script (Except Refusal Rotated) :=
  if adminToken = "" ∨ token ≠ adminToken then return .error ⟨401, "invalid or missing X-Admin-Token"⟩
  else do
    let oldApiKey ← bound (bindStr apiKey)
    match ← rotatePaygAccount newApiKey oldApiKey now with
    | none => return .error ⟨404, "api_key not found"⟩
    | some account => return .ok ⟨oldApiKey, account.apiKey, account.agentId⟩

/-- `payg_balance` -/
def paygBalance (apiKey : Str) : Script (Except Refusal Account) := do
  let key ← bound (bindStr apiKey)
  match ← getPaygAccount key with
  | none => return .error ⟨404, "api_key not found"⟩
  | some account => return .ok account

/-- The statement is none of a rotation. -/
def KeepsKeys {β : Type} : Sql β → Prop
  | .rekey .. => False
  | _ => True

structure Deployment where
  casing : Casing
  settings : Settings
  adminToken : String

/-- The tables, what the process remembers of the questions to GitHub, and the requests that
wait for an answer. -/
structure Desk where
  world : World
  last : Asked
  waiting : List Certification

/-- A request about an account, an answer of GitHub, a statement of any other handler, or a
restart of the process. -/
inductive DeskStep : Type 1 where
  | create (apiKey : String) (agentId : Str) (now : Seconds)
  | webhook (machine : Machine) (apiKey : Str) (url : Option Str) (now : Seconds)
  | rotate (token newApiKey : String) (apiKey : Str) (now : Seconds)
  | conformance (call : ConformanceCall)
  | certify (body : Json) (now : ℚ)
  | github (index : Nat) (reply : GithubReply) (now : Seconds)
  | statement {β : Type} (op : Sql β) (keeps : KeepsKeys op)
  | restart

def Deployment.step (d : Deployment) (s : Desk) : DeskStep → Desk
  | .create apiKey agentId now => { s with world := (createPaygAccount s.world apiKey agentId now).2 }
  | .webhook machine apiKey url now =>
      { s with world := (setAccountWebhook d.settings machine apiKey url now s.world).2 }
  | .rotate token newApiKey apiKey now =>
      { s with world := ((rotateAccountApiKey d.adminToken token newApiKey apiKey now).run s.world).2 }
  | .conformance call =>
      { s with world := (setAccountConformance (lowered d.casing) d.adminToken call s.world).2 }
  | .certify body now =>
      match certifyAsk d.casing body now s.world s.last with
      | (.ok (.ok certification), last) => { s with last, waiting := s.waiting ++ [certification] }
      | (_, last) => { s with last }
  | .github index reply now =>
      match s.waiting[index]? with
      | none => s
      | some certification =>
          { s with world := (certifyReply reply certification now s.world).2, waiting := s.waiting.eraseIdx index }
  | .statement op _ => { s with world := (exec op s.world).2 }
  | .restart => { s with last := [], waiting := [] }

/-- What an account is to the requests about it. -/
structure Profile where
  apiKey : String
  agentId : String
  source : Option String
  webhook : Option String
  deriving DecidableEq

def Account.profile (row : Account) : Profile := ⟨row.apiKey, row.agentId, row.conformanceSource, row.notifyWebhook⟩

def World.profiles (w : World) : List Profile := w.accounts.rows.map Account.profile

/-- What becomes of the profiles. -/
inductive ProfileEvent where
  | idle
  | enrol (apiKey agentId : String)
  | rename (newApiKey oldApiKey : String)
  | certify (apiKey : String) (source : Option String)
  | subscribe (apiKey : String) (webhook : Option String)

/-- The event on one profile. -/
def ProfileEvent.change : ProfileEvent → Profile → Profile
  | .rename newApiKey oldApiKey, p => if p.apiKey = oldApiKey then { p with apiKey := newApiKey } else p
  | .certify apiKey source, p => if p.apiKey = apiKey then { p with source } else p
  | .subscribe apiKey webhook, p => if p.apiKey = apiKey then { p with webhook } else p
  | _, p => p

/-- The profile that is new. -/
def ProfileEvent.enrolled : ProfileEvent → List Profile
  | .enrol apiKey agentId => [⟨apiKey, agentId, none, none⟩]
  | _ => []

def ProfileEvent.apply (event : ProfileEvent) (profiles : List Profile) : List Profile :=
  profiles.map event.change ++ event.enrolled

/-- The events of a step, with the checks that it has passed. -/
inductive Causes (d : Deployment) (s : Desk) : DeskStep → ProfileEvent → Prop where
  | idle {step : DeskStep} : Causes d s step .idle
  | create {apiKey : String} {agentId : Str} {now : Seconds} {agent : String} (named : bindStr agentId = .ok agent) :
      Causes d s (.create apiKey agentId now) (.enrol apiKey agent)
  | rotate {newApiKey oldApiKey : String} {apiKey : Str} {now : Seconds} (guarded : d.adminToken ≠ "")
      (shown : bindStr apiKey = .ok oldApiKey) :
      Causes d s (.rotate d.adminToken newApiKey apiKey now) (.rename newApiKey oldApiKey)
  | conformance {call : ConformanceCall} {apiKey source : String} (guarded : d.adminToken ≠ "")
      (token : call.adminToken = d.adminToken) (shown : bindStr call.apiKey = .ok apiKey)
      (named : bindStr (call.source.getD []) = .ok source) :
      Causes d s (.conformance call) (.certify apiKey (if source = "" then none else some source))
  | github {index : Nat} {reply : GithubReply} {now : Seconds} {certification : Certification} {folder : String}
      (waited : s.waiting[index]? = some certification) (named : ofString folder = certification.folder) :
      Causes d s (.github index reply now)
        (.certify certification.apiKey (if folder = "" then none else some folder))
  | webhook {machine : Machine} {apiKey : Str} {url : Option Str} {now : Seconds} {key : String} {text : Option String}
      (shown : bindStr apiKey = .ok key)
      (safe : ∀ registered ∈ text, isSafeWebhookUrl machine (ofString registered) = true) :
      Causes d s (.webhook machine apiKey url now) (.subscribe key text)

theorem ProfileEvent.apply_idle (profiles : List Profile) : ProfileEvent.idle.apply profiles = profiles :=
  (List.append_nil _).trans (List.map_id profiles)

section
variable {w : World} {now : Seconds}

/-- An update whose effect on a row is the event's on its profile. -/
theorem profiles_updateAccounts {p : Account → Bool} {f : Account → Account}
    {keeps : ∀ row, Keyed.key (f row) = Keyed.key row} {event : ProfileEvent}
    (same : ∀ row : Account, (if p row then f row else row).profile = event.change row.profile) :
    (w.updateAccounts p f keeps).profiles = w.profiles.map event.change := by
  rw [World.profiles, World.updateAccounts, Table.rows_update, World.profiles, List.map_map, List.map_map]
  exact List.map_congr_left fun row _ => same row

theorem profiles_setPaygWebhook (apiKey : String) (url : Option String) :
    (setPaygWebhook w apiKey url now).2.profiles = (ProfileEvent.subscribe apiKey url).apply w.profiles := by
  refine (profiles_updateAccounts fun row => ?_).trans (List.append_nil _).symm
  by_cases own : row.apiKey = apiKey <;> simp [own, ProfileEvent.change, Account.profile]

theorem profiles_setConformanceSource (apiKey source : String) :
    (setConformanceSource w apiKey source now).2.profiles =
      (ProfileEvent.certify apiKey (if source = "" then none else some source)).apply w.profiles := by
  refine (profiles_updateAccounts fun row => ?_).trans (List.append_nil _).symm
  by_cases own : row.apiKey = apiKey <;> simp [own, ProfileEvent.change, Account.profile]

/-- An update that leaves the profile of each row. -/
theorem profiles_updateAccounts_kept {p : Account → Bool} {f : Account → Account}
    {keeps : ∀ row, Keyed.key (f row) = Keyed.key row} (kept : ∀ row, (f row).profile = row.profile) :
    (w.updateAccounts p f keeps).profiles = w.profiles := by
  have same : (w.updateAccounts p f keeps).profiles = w.profiles.map ProfileEvent.idle.change :=
    profiles_updateAccounts fun row => by
      split
      · exact kept row
      · rfl
  exact same.trans (List.map_id w.profiles)

theorem profiles_exec {β : Type} (op : Sql β) (keeps : KeepsKeys op) (w : World) :
    (exec op w).2.profiles = w.profiles := by
  cases op with
  | rekey => cases keeps
  | addCredit | takeCredit => exact profiles_updateAccounts_kept fun _ => rfl
  | insertIntent row =>
      simp only [exec]
      cases w.intents.insert? row <;> rfl
  | insertTrail row =>
      simp only [exec]
      cases w.trails.insert? row <;> rfl
  | _ => rfl

theorem profiles_rekey (newApiKey oldApiKey : String) :
    exec (.rekey newApiKey oldApiKey now) w = (.error .integrityError, w) ∨
      (exec (.rekey newApiKey oldApiKey now) w).2.profiles =
        (ProfileEvent.rename newApiKey oldApiKey).apply w.profiles := by
  simp only [exec]
  cases updated : w.accounts.rekey? (fun row => row.apiKey = oldApiKey) fun row =>
      { row with apiKey := newApiKey, updatedAt := now } with
  | none => exact Or.inl rfl
  | some accounts =>
      refine Or.inr (Eq.trans ?_ (List.append_nil _).symm)
      change accounts.rows.map Account.profile = _
      rw [Table.rows_rekey updated, World.profiles, List.map_map, List.map_map]
      refine List.map_congr_left fun row _ => ?_
      by_cases own : row.apiKey = oldApiKey <;> simp [own, ProfileEvent.change, Account.profile]

/-- A rotation is refused, or is the `UPDATE` of the key. -/
theorem run_rotateAccountApiKey (adminToken token newApiKey : String) (apiKey : Str) (now : Seconds) (w : World) :
    (((rotateAccountApiKey adminToken token newApiKey apiKey now).run w).2 = w ∧
      ∀ rotated, ((rotateAccountApiKey adminToken token newApiKey apiKey now).run w).1 ≠ .ok (.ok rotated)) ∨
    adminToken ≠ "" ∧ token = adminToken ∧ ∃ oldApiKey, bindStr apiKey = .ok oldApiKey ∧
      ((rotateAccountApiKey adminToken token newApiKey apiKey now).run w).2 =
        (exec (.rekey newApiKey oldApiKey now) w).2 ∧
      ∀ rotated, ((rotateAccountApiKey adminToken token newApiKey apiKey now).run w).1 = .ok (.ok rotated) →
        rotated.oldApiKey = oldApiKey ∧ (exec (.rekey newApiKey oldApiKey now) w).1 = .ok true := by
  rw [rotateAccountApiKey]
  split
  · exact Or.inl ⟨rfl, fun _ => by simp⟩
  rename_i allowed
  obtain ⟨guarded, same⟩ := not_or.mp allowed
  rw [Script.run_bind, Script.run_bound]
  cases bindStr apiKey with
  | error raised => exact Or.inl ⟨rfl, fun _ => by simp⟩
  | ok oldApiKey =>
      refine Or.inr ⟨guarded, not_not.mp same, oldApiKey, rfl, ?_⟩
      dsimp only
      rw [Script.run_bind, rotatePaygAccount, Script.run_bind, Script.run_sqlOrRaise]
      rcases exec (.rekey newApiKey oldApiKey now) w with ⟨raised | (_ | _), after⟩
      · exact ⟨rfl, fun _ answered => nomatch answered⟩
      · exact ⟨rfl, fun _ answered => nomatch answered⟩
      · dsimp only [if_true]
        rw [if_pos rfl, Script.run_sql]
        dsimp only
        split
        · exact ⟨rfl, fun _ answered => nomatch answered⟩
        · refine ⟨rfl, fun rotated answered => ?_⟩
          cases answered
          exact ⟨rfl, rfl⟩

/-- A request about a webhook is refused, or sets one that is public. -/
theorem profiles_setAccountWebhook (settings : Settings) (machine : Machine) (apiKey : Str) (url : Option Str) :
    (setAccountWebhook settings machine apiKey url now w).2 = w ∨
      ∃ key text, bindStr apiKey = .ok key ∧
        (∀ registered ∈ text, isSafeWebhookUrl machine (ofString registered) = true) ∧
        (setAccountWebhook settings machine apiKey url now w).2.profiles =
          (ProfileEvent.subscribe key text).apply w.profiles := by
  rw [setAccountWebhook]
  split
  · exact Or.inl rfl
  rename_i allowed
  split
  · rename_i text key bound shown
    refine Or.inr ⟨key, text, shown, fun registered held => ?_, ?_⟩
    · rw [Option.mem_def] at held
      subst held
      split at bound
      · cases bound
      · rename_i written
        cases named : bindStr (strip (url.getD [])) with
        | error raised =>
            rw [named] at bound
            cases bound
        | ok text =>
            rw [named] at bound
            cases bound
            rw [ofString_of_bindStr named]
            have checked := not_not.mp (not_and.mp allowed written)
            exact (Bool.and_eq_true_iff.mp checked).2
    · rw [← profiles_setPaygWebhook key text]
      split
      · rename_i stored
        rw [stored]
      · rename_i stored
        rw [stored]
  · exact Or.inl rfl
  · exact Or.inl rfl

theorem profiles_setAccountConformance (lower : String → String) (adminToken : String) (call : ConformanceCall) :
    (setAccountConformance lower adminToken call w).2 = w ∨
      ∃ apiKey source, adminToken ≠ "" ∧ call.adminToken = adminToken ∧ bindStr call.apiKey = .ok apiKey ∧
        bindStr (call.source.getD []) = .ok source ∧
        (setAccountConformance lower adminToken call w).2.profiles =
          (ProfileEvent.certify apiKey (if source = "" then none else some source)).apply w.profiles := by
  rw [setAccountConformance]
  split
  · exact Or.inl rfl
  rename_i allowed
  obtain ⟨guarded, same⟩ := not_or.mp allowed
  split
  · rename_i source apiKey named shown
    refine Or.inr ⟨apiKey, source, guarded, not_not.mp same, shown, named, ?_⟩
    rw [← profiles_setConformanceSource apiKey source]
    split
    · rename_i stored
      rw [stored]
    · rename_i stored
      rw [stored]
  · exact Or.inl rfl
  · exact Or.inl rfl

theorem profiles_certifyReply (reply : GithubReply) (certification : Certification) :
    (certifyReply reply certification now w).2 = w ∨
      ∃ folder, ofString folder = certification.folder ∧ (certifyReply reply certification now w).2.profiles =
        (ProfileEvent.certify certification.apiKey (if folder = "" then none else some folder)).apply w.profiles := by
  unfold certifyReply
  split
  · exact Or.inl rfl
  · exact Or.inl rfl
  rename_i folder status content shown
  split
  · exact Or.inl rfl
  split
  · exact Or.inl rfl
  split
  · exact Or.inl rfl
  · refine Or.inr ⟨folder, ofString_of_toString? shown, ?_⟩
    rw [← profiles_setConformanceSource certification.apiKey folder]
    split
    · rename_i stored
      rw [stored]
    · rename_i stored
      rw [stored]
  · exact Or.inl rfl

theorem profiles_createPaygAccount (apiKey : String) (agentId : Str) :
    (createPaygAccount w apiKey agentId now).2 = w ∨ ∃ agent, bindStr agentId = .ok agent ∧
      (createPaygAccount w apiKey agentId now).2.profiles = (ProfileEvent.enrol apiKey agent).apply w.profiles := by
  rw [createPaygAccount]
  cases named : bindStr agentId with
  | error raised => exact Or.inl rfl
  | ok agent =>
      dsimp only
      cases inserted : w.accounts.insert? ⟨apiKey, agent, .free, 0, none, none, now, now⟩ with
      | none => exact Or.inl rfl
      | some accounts =>
          refine Or.inr ⟨agent, rfl, ?_⟩
          change accounts.rows.map Account.profile = _
          rw [Table.rows_insert inserted, List.map_append]
          exact congrArg (· ++ _) (List.map_id w.profiles).symm

end

/-- What a step can do to the profiles. -/
theorem step_causes (d : Deployment) (s : Desk) (step : DeskStep) :
    ∃ event, Causes d s step event ∧ (d.step s step).world.profiles = event.apply s.world.profiles := by
  have kept {step : DeskStep} (same : (d.step s step).world.profiles = s.world.profiles) :
      ∃ event, Causes d s step event ∧ (d.step s step).world.profiles = event.apply s.world.profiles :=
    ⟨.idle, .idle, same.trans (ProfileEvent.apply_idle _).symm⟩
  cases step with
  | create apiKey agentId now =>
      rcases profiles_createPaygAccount apiKey agentId with same | ⟨agent, named, made⟩
      · exact kept (congrArg World.profiles same)
      · exact ⟨_, .create named, made⟩
  | webhook machine apiKey url now =>
      rcases profiles_setAccountWebhook d.settings machine apiKey url with same | ⟨key, text, shown, safe, made⟩
      · exact kept (congrArg World.profiles same)
      · exact ⟨_, .webhook shown safe, made⟩
  | rotate token newApiKey apiKey now =>
      rcases run_rotateAccountApiKey d.adminToken token newApiKey apiKey now s.world with
        ⟨same, _⟩ | ⟨guarded, rfl, old, shown, made, _⟩
      · exact kept (congrArg World.profiles same)
      · rcases profiles_rekey newApiKey old with same | renamed
        · exact kept (congrArg World.profiles (made.trans (congrArg Prod.snd same)))
        · exact ⟨_, .rotate guarded shown, (congrArg World.profiles made).trans renamed⟩
  | conformance call =>
      rcases profiles_setAccountConformance (lowered d.casing) d.adminToken call with
        same | ⟨apiKey, source, guarded, token, shown, named, made⟩
      · exact kept (congrArg World.profiles same)
      · exact ⟨_, .conformance guarded token shown named, made⟩
  | certify body now =>
      refine kept ?_
      rw [Deployment.step]
      split <;> rfl
  | github index reply now =>
      cases waited : s.waiting[index]? with
      | none =>
          refine kept ?_
          rw [Deployment.step, waited]
      | some certification =>
          have world : (d.step s (.github index reply now)).world =
              (certifyReply reply certification now s.world).2 := by
            rw [Deployment.step, waited]
          rcases profiles_certifyReply reply certification with same | ⟨folder, named, made⟩
          · exact kept (congrArg World.profiles (world.trans same))
          · exact ⟨_, .github waited named, (congrArg World.profiles world).trans made⟩
  | statement op keeps => exact kept (profiles_exec op keeps s.world)
  | restart => exact kept rfl

/-- A process that starts over the tables. -/
def Desk.fresh (w : World) : Desk := ⟨w, [], []⟩

/-- Every request that waits for GitHub waits for a folder that may become a source. -/
def Desk.Waits (casing : Casing) (s : Desk) : Prop :=
  ∀ certification ∈ s.waiting, Unreserved casing certification.folder

theorem Desk.Waits.step {d : Deployment} {s : Desk} (waits : s.Waits d.casing) (step : DeskStep) :
    (d.step s step).Waits d.casing := by
  cases step with
  | certify body now =>
      rw [Deployment.step]
      split
      · rename_i certification last asked
        intro other member
        rcases List.mem_append.mp member with earlier | last
        · exact waits other earlier
        · rw [List.mem_singleton.mp last]
          exact (certifyAsk_ok asked).1
      · exact waits
  | github index reply now =>
      rw [Deployment.step]
      split
      · exact waits
      · exact fun other member => waits other ((List.eraseIdx_sublist _ _).subset member)
  | restart => exact fun _ none => nomatch none
  | _ => exact waits

/-- A profile after an event is one from before, changed, or a new one. -/
theorem ProfileEvent.getElem?_apply {event : ProfileEvent} {profiles : List Profile} {place : Nat} {after : Profile}
    (there : (event.apply profiles)[place]? = some after) :
    (∃ p, profiles[place]? = some p ∧ event.change p = after) ∨
      ∃ apiKey agentId, event = .enrol apiKey agentId ∧ after = ⟨apiKey, agentId, none, none⟩ := by
  rw [apply, List.getElem?_append] at there
  split at there
  · exact Or.inl (Option.map_eq_some_iff.mp ((List.getElem?_map ..).symm.trans there))
  · cases event with
    | enrol apiKey agentId =>
        exact Or.inr ⟨apiKey, agentId, rfl, (List.mem_singleton.mp (List.mem_of_getElem? there))⟩
    | _ => cases there

theorem ProfileEvent.mem_apply {event : ProfileEvent} {profiles : List Profile} {after : Profile}
    (member : after ∈ event.apply profiles) :
    (∃ p ∈ profiles, event.change p = after) ∨
      ∃ apiKey agentId, event = .enrol apiKey agentId ∧ after = ⟨apiKey, agentId, none, none⟩ := by
  obtain ⟨place, there⟩ := List.mem_iff_getElem?.mp member
  refine (getElem?_apply there).imp_left fun ⟨p, before, changed⟩ => ⟨p, List.mem_of_getElem? before, changed⟩

/-- What an event has changed the source of a profile to. -/
theorem ProfileEvent.source_change {event : ProfileEvent} {p : Profile} {source : String}
    (held : (event.change p).source = some source) :
    p.source = some source ∨ event = .certify p.apiKey (some source) := by
  cases event with
  | certify apiKey given =>
      rw [change] at held
      split at held
      · rename_i own
        rw [own, ← held]
        exact Or.inr rfl
      · exact Or.inl held
  | rename newApiKey oldApiKey =>
      rw [change] at held
      split at held <;> exact Or.inl held
  | subscribe apiKey webhook =>
      rw [change] at held
      split at held <;> exact Or.inl held
  | idle | enrol => exact Or.inl held

/-- A source of a tier. -/
def Tiered (casing : Casing) (row : Account) : Prop :=
  (conformanceTier.lookup (conformanceSource (lowered casing) row)).isSome

theorem Tiered.source {casing : Casing} {row : Account} (tiered : Tiered casing row) :
    ∃ source, row.conformanceSource = some source ∧ ¬ Unreserved casing (ofString source) := by
  cases held : row.conformanceSource with
  | none =>
      have blank : conformanceSource (lowered casing) row = "" := by
        rw [conformanceSource, held]
        rfl
      rw [Tiered, blank] at tiered
      exact absurd tiered (by decide)
  | some source =>
      refine ⟨source, rfl, fun unreserved => ?_⟩
      rw [Tiered, conformanceSource_unreserved unreserved held, lookup_unreserved unreserved] at tiered
      cases tiered

theorem World.getElem?_profiles (w : World) (place : Nat) :
    w.profiles[place]? = (w.accounts.rows[place]?).map Account.profile := List.getElem?_map ..

/-- An administrator gave the account at a place its source, with the key the account had then. -/
def Granted (d : Deployment) (place : Nat) (source : String) (s : Desk) (step : DeskStep) : Prop :=
  ∃ call owner, step = .conformance call ∧ d.adminToken ≠ "" ∧ call.adminToken = d.adminToken ∧
    s.world.accounts.rows[place]? = some owner ∧ bindStr call.apiKey = .ok owner.apiKey ∧
    bindStr (call.source.getD []) = .ok source

/-- A tier is granted by an administrator: in every run of requests about accounts, answers of
GitHub, statements of other handlers and restarts, from any tables, an account whose source is
of a tier had that source at the start, or an administrator has named it for the account. No
self-certification gives one, whatever runs while it waits for GitHub. -/
theorem tiers_granted (d : Deployment) (w : World) (steps : List DeskStep) {place : Nat} {row : Account}
    (held : (run d.step (.fresh w) steps).world.accounts.rows[place]? = some row) (tiered : Tiered d.casing row) :
    (∃ before, w.accounts.rows[place]? = some before ∧ before.conformanceSource = row.conformanceSource) ∨
      ∃ before step after, steps = before ++ step :: after ∧
        Granted d place (row.conformanceSource.getD "") (run d.step (.fresh w) before) step := by
  obtain ⟨source, named, reserved⟩ := tiered.source
  rw [named, Option.getD_some]
  let P (s : Desk) : Prop := ∃ p, s.world.profiles[place]? = some p ∧ p.source = some source
  have brings (s : Desk) (step : DeskStep) (waits : s.Waits d.casing) (holds : P (d.step s step)) :
      P s ∨ Granted d place source s step := by
    obtain ⟨p', there, sourced⟩ := holds
    obtain ⟨event, caused, made⟩ := step_causes d s step
    rw [made] at there
    rcases ProfileEvent.getElem?_apply there with ⟨p, before, rfl⟩ | ⟨_, _, _, rfl⟩
    · rcases ProfileEvent.source_change sourced with kept | rfl
      · exact Or.inl ⟨p, before, kept⟩
      rw [World.getElem?_profiles] at before
      obtain ⟨owner, stored, rfl⟩ := Option.map_eq_some_iff.mp before
      -- the event names the source, so it is an administrator's or the end of a certification
      generalize same : (some source : Option String) = given, key : owner.profile.apiKey = own at caused
      cases caused with
      | conformance guarded token shown given =>
          split at same
          · cases same
          · cases same
            exact Or.inr ⟨_, owner, rfl, guarded, token, stored, shown.trans (congrArg Except.ok key.symm), given⟩
      | github waited folder =>
          split at same
          · cases same
          · cases same
            exact absurd (folder ▸ waits _ (List.mem_of_getElem? waited)) reserved
    · cases sourced
  have ends : P (run d.step (.fresh w) steps) := by
    refine ⟨row.profile, ?_, named⟩
    rw [World.getElem?_profiles, held]
    rfl
  have initial : (Desk.fresh w).Waits d.casing := fun _ none => nomatch none
  refine (held_or_brought (fun _ step waits => waits.step step) initial brings steps ends).imp_left ?_
  rintro ⟨p, there, sourced⟩
  rw [World.getElem?_profiles] at there
  obtain ⟨before, stored, rfl⟩ := Option.map_eq_some_iff.mp there
  exact ⟨before, stored, sourced⟩

/-- The administrator of one account's deployment. -/
def administered : Deployment := ⟨Casing.ascii, oneADay, "admin"⟩

def grantAps : DeskStep := .conformance ⟨"admin", ofString "key", some (ofString "aps"), 10⟩

theorem tiers_granted_aps :
    (∃ before, oneCredit.accounts.rows[0]? = some before ∧ before.conformanceSource = some "aps") ∨
      ∃ before step after, [grantAps] = before ++ step :: after ∧
        Granted administered 0 "aps" (run administered.step (.fresh oneCredit) before) step :=
  tiers_granted administered oneCredit [grantAps]
    (show _ = some ⟨"key", "agent", .payg, 1, some "aps", none, 0, 10⟩ by decide +kernel)
    (show (conformanceTier.lookup (conformanceSource (lowered Casing.ascii) _)).isSome by decide +kernel)

/-- What an event has changed the webhook of a profile to; no event changes the agent. -/
theorem ProfileEvent.webhook_change {event : ProfileEvent} {p : Profile} {url : String}
    (held : (event.change p).webhook = some url) :
    p.webhook = some url ∨ event = .subscribe p.apiKey (some url) := by
  cases event with
  | subscribe apiKey given =>
      rw [change] at held
      split at held
      · rename_i own
        rw [own, ← held]
        exact Or.inr rfl
      · exact Or.inl held
  | rename newApiKey oldApiKey =>
      rw [change] at held
      split at held <;> exact Or.inl held
  | certify apiKey source =>
      rw [change] at held
      split at held <;> exact Or.inl held
  | idle | enrol => exact Or.inl held

@[simp] theorem ProfileEvent.agentId_change (event : ProfileEvent) (p : Profile) :
    (event.change p).agentId = p.agentId := by
  unfold change
  split <;> first | rfl | (split <;> rfl)

/-- A request with the key of an account of the agent registers a URL that is public then. -/
def Registered (agentId url : String) (s : Desk) (step : DeskStep) : Prop :=
  ∃ machine apiKey text now owner, step = .webhook machine apiKey text now ∧ owner ∈ s.world.accounts.rows ∧
    owner.agentId = agentId ∧ bindStr apiKey = .ok owner.apiKey ∧ isSafeWebhookUrl machine (ofString url) = true

/-- Who is notified: in every run, the URL that `get_notify_webhook` finds for an agent was
there at the start, or was registered with a key of an account of that agent, and was public
when it was. -/
theorem webhook_registered (d : Deployment) (w : World) (steps : List DeskStep) {agentId url : String}
    (found : (exec (.notifyWebhook agentId) (run d.step (.fresh w) steps).world).1 = some url) :
    (∃ row ∈ w.accounts.rows, row.agentId = agentId ∧ row.notifyWebhook = some url) ∨
      ∃ before step after, steps = before ++ step :: after ∧
        Registered agentId url (run d.step (.fresh w) before) step := by
  let P (s : Desk) : Prop := ∃ p ∈ s.world.profiles, p.agentId = agentId ∧ p.webhook = some url
  have brings (s : Desk) (step : DeskStep) (_ : True) (holds : P (d.step s step)) :
      P s ∨ Registered agentId url s step := by
    obtain ⟨p', member, agent, hooked⟩ := holds
    obtain ⟨event, caused, made⟩ := step_causes d s step
    rw [made] at member
    rcases ProfileEvent.mem_apply member with ⟨p, before, rfl⟩ | ⟨_, _, _, rfl⟩
    · rw [ProfileEvent.agentId_change] at agent
      rcases ProfileEvent.webhook_change hooked with kept | rfl
      · exact Or.inl ⟨p, before, agent, kept⟩
      obtain ⟨owner, stored, rfl⟩ := List.mem_map.mp before
      generalize key : owner.profile.apiKey = own at caused
      cases caused with
      | webhook shown safe =>
          exact Or.inr ⟨_, _, _, _, owner, rfl, stored, agent, shown.trans (congrArg Except.ok key.symm), safe url rfl⟩
    · cases hooked
  have ends : P (run d.step (.fresh w) steps) := by
    obtain ⟨row, first, hooked⟩ := Option.bind_eq_some_iff.mp found
    have listed := (List.mem_insertionSort _).mp (List.mem_of_mem_head? first)
    obtain ⟨member, own⟩ := List.mem_filter.mp listed
    exact ⟨row.profile, List.mem_map_of_mem member, (of_decide_eq_true (Bool.and_eq_true_iff.mp own).1), hooked⟩
  refine (held_or_brought (fun _ _ _ => trivial) trivial brings steps ends).imp_left ?_
  rintro ⟨p, member, agent, hooked⟩
  obtain ⟨row, stored, rfl⟩ := List.mem_map.mp member
  exact ⟨row, stored, agent, hooked⟩

def subscribeHost : DeskStep := .webhook oneHost (ofString "key") (some (ofString "https://example.com/hook")) 10

theorem webhook_registered_host :
    (∃ row ∈ oneCredit.accounts.rows, row.agentId = "agent" ∧ row.notifyWebhook = some "https://example.com/hook") ∨
      ∃ before step after, [subscribeHost] = before ++ step :: after ∧
        Registered "agent" "https://example.com/hook" (run administered.step (.fresh oneCredit) before) step :=
  webhook_registered administered oneCredit [subscribeHost] (by decide +kernel)

/-- No account has the key. -/
def World.Closed (w : World) (key : String) : Prop := w.accounts.find? key = none

theorem World.closed_iff {w : World} {key : String} : w.Closed key ↔ ∀ p ∈ w.profiles, p.apiKey ≠ key := by
  rw [Closed, Table.find?_eq_none_iff, profiles, List.forall_mem_map]
  rfl

/-- The `uuid4` of a step is not the key. -/
def DrawsOther (key : String) (_ : Desk) : DeskStep → Prop
  | .create apiKey _ _ => apiKey ≠ key
  | .rotate _ newApiKey _ _ => newApiKey ≠ key
  | _ => True

/-- A key that is closed stays so, unless it is drawn again. -/
theorem closed_step {d : Deployment} {s : Desk} {step : DeskStep} {key : String} (closed : s.world.Closed key)
    (draws : DrawsOther key s step) : (d.step s step).world.Closed key := by
  rw [World.closed_iff] at closed ⊢
  obtain ⟨event, caused, made⟩ := step_causes d s step
  rw [made]
  intro p' member
  rcases ProfileEvent.mem_apply member with ⟨p, before, rfl⟩ | ⟨apiKey, agentId, rfl, rfl⟩
  · cases caused with
    | rotate =>
        rw [ProfileEvent.change]
        split
        · exact draws
        · exact closed p before
    | conformance | github | webhook =>
        rw [ProfileEvent.change]
        split <;> exact closed p before
    | idle | create => exact closed p before
  · cases caused
    exact draws

/-- A rotation that is answered 200 closes the key it replaces. -/
theorem closed_rotated {adminToken token newApiKey : String} {apiKey : Str} {now : Seconds} {w : World}
    {rotated : Rotated} (fresh : newApiKey ≠ rotated.oldApiKey)
    (answered : ((rotateAccountApiKey adminToken token newApiKey apiKey now).run w).1 = .ok (.ok rotated)) :
    ((rotateAccountApiKey adminToken token newApiKey apiKey now).run w).2.Closed rotated.oldApiKey := by
  rcases run_rotateAccountApiKey adminToken token newApiKey apiKey now w with
    ⟨_, refused⟩ | ⟨_, _, oldApiKey, _, made, ends⟩
  · exact absurd answered (refused rotated)
  obtain ⟨rfl, renamed⟩ := ends rotated answered
  rw [made]
  rcases profiles_rekey newApiKey rotated.oldApiKey with raised | profiles
  · rw [raised] at renamed
    cases renamed
  · rw [World.closed_iff, profiles]
    intro p' member
    rcases ProfileEvent.mem_apply member with ⟨p, _, rfl⟩ | ⟨_, _, none, _⟩
    · rw [ProfileEvent.change]
      split
      · exact fresh
      · assumption
    · cases none

/-- A request that shows the key of an account, and the end of one that waits for GitHub. -/
inductive KeyRequest where
  | external (call : ExternalCall)
  | topupLightning (createInvoice : Phoenixd) (apiKey : Str) (trails : Int)
  | topupUsdc (intentId : String) (apiKey : Str) (trails : Int) (fromAddress : Str) (now : Seconds)
  | balance (apiKey : Str)
  | webhook (machine : Machine) (apiKey : Str) (url : Option Str) (now : Seconds)
  | rotate (token newApiKey : String) (apiKey : Str) (now : Seconds)
  | conformance (call : ConformanceCall)
  | certify (body : Json) (now : ℚ)
  | github (reply : GithubReply) (certification : Certification) (now : Seconds)

/-- The request shows the key. -/
def KeyRequest.Shows (d : Deployment) (key : String) : KeyRequest → Prop
  | .external call => ∃ request, readExternal call.body = .ok (.ok request) ∧ bindStr request.apiKey = .ok key
  | .topupLightning _ apiKey _ | .topupUsdc _ apiKey _ _ _ | .balance apiKey | .webhook _ apiKey _ _
  | .rotate _ _ apiKey _ => bindStr apiKey = .ok key
  | .conformance call => bindStr call.apiKey = .ok key
  | .certify body _ => ∃ request, readCertify d.casing body = .ok (.ok request) ∧ bindStr request.apiKey = .ok key
  | .github _ certification _ => certification.apiKey = key

/-- Whether the request gets what it asks for, and the tables it leaves. -/
def KeyRequest.serve (d : Deployment) (s : Desk) : KeyRequest → Bool × World
  | .external call =>
      let ended := (externalTrail (lowered d.casing) d.settings call).run s.world
      (answered ended.1, ended.2)
  | .topupLightning createInvoice apiKey trails =>
      let ended := (paygTopupLightning createInvoice apiKey trails).run s.world
      (answered ended.1, ended.2)
  | .topupUsdc intentId apiKey trails fromAddress now =>
      let ended := (paygTopupUsdc (lowered d.casing) intentId apiKey trails fromAddress now).run s.world
      (answered ended.1, ended.2)
  | .balance apiKey =>
      let ended := (paygBalance apiKey).run s.world
      (answered ended.1, ended.2)
  | .webhook machine apiKey url now =>
      let ended := setAccountWebhook d.settings machine apiKey url now s.world
      (answered ended.1, ended.2)
  | .rotate token newApiKey apiKey now =>
      let ended := (rotateAccountApiKey d.adminToken token newApiKey apiKey now).run s.world
      (answered ended.1, ended.2)
  | .conformance call =>
      let ended := setAccountConformance (lowered d.casing) d.adminToken call s.world
      (answered ended.1, ended.2)
  | .certify body now => (answered (certifyAsk d.casing body now s.world s.last).1, s.world)
  | .github reply certification now =>
      let ended := certifyReply reply certification now s.world
      (answered ended.1, ended.2)

section
variable {w : World} {key : String}

theorem World.Closed.account (closed : w.Closed key) : exec (.account key) w = (none, w) :=
  congrArg (·, w) closed

/-- An update under a closed key changes no row. -/
theorem World.Closed.update (closed : w.Closed key) {f : Account → Account}
    {keeps : ∀ row, Keyed.key (f row) = Keyed.key row} :
    w.updateAccounts (fun row => row.apiKey = key) f keeps = w := by
  have same : (w.accounts.update (fun row => row.apiKey = key) f keeps) = w.accounts := by
    refine Table.ext ?_
    rw [Table.rows_update]
    refine (List.map_congr_left fun row member => ?_).trans (List.map_id _)
    exact if_neg fun own => Table.find?_eq_none_iff.mp closed row member (of_decide_eq_true own)
  rw [World.updateAccounts, same]

theorem World.Closed.rekey (closed : w.Closed key) (newApiKey : String) (now : Seconds) :
    exec (.rekey newApiKey key now) w = (.ok false, w) := by
  have rows : (w.accounts.rows.map fun row : Account =>
      if decide (row.apiKey = key) then { row with apiKey := newApiKey, updatedAt := now } else row) =
        w.accounts.rows := by
    refine (List.map_congr_left fun row member => ?_).trans (List.map_id _)
    exact if_neg fun own => Table.find?_eq_none_iff.mp closed row member (of_decide_eq_true own)
  have same : w.accounts.rekey? (fun row => row.apiKey = key)
      (fun row => { row with apiKey := newApiKey, updatedAt := now }) = some w.accounts := by
    rw [Table.rekey?, dif_pos (by rw [rows]; exact w.accounts.unique)]
    exact congrArg some (Table.ext rows)
  simp only [exec, same, Option.map_some, constrained]
  rw [show w.accounts.find? key = none from closed]
  rfl

/-- The account under a closed key is looked for in vain. -/
theorem run_closed {α : Type} {apiKey : Str} (closed : w.Closed key) (shown : bindStr apiKey = .ok key)
    (next : String → Option Account → Script α) :
    Script.run (bound (bindStr apiKey) >>= fun key => getPaygAccount key >>= next key) w = (next key none).run w := by
  rw [Script.run_bind, Script.run_bound, shown]
  dsimp only
  rw [getPaygAccount, Script.run_sql_bind, closed.account]

theorem closed_setPaygWebhook (closed : w.Closed key) (url : Option String) (now : Seconds) :
    setPaygWebhook w key url now = (none, w) := by
  rw [setPaygWebhook, closed.update]
  exact congrArg (·, w) closed

theorem closed_setConformanceSource (closed : w.Closed key) (source : String) (now : Seconds) :
    setConformanceSource w key source now = (none, w) := by
  rw [setConformanceSource, closed.update]
  exact congrArg (·, w) closed

theorem closed_rotateAccountApiKey {adminToken token newApiKey : String} {apiKey : Str} (closed : w.Closed key)
    (shown : bindStr apiKey = .ok key) (now : Seconds) :
    ∃ refusal, (rotateAccountApiKey adminToken token newApiKey apiKey now).run w = (.ok (.error refusal), w) := by
  rw [rotateAccountApiKey]
  split
  · exact ⟨_, rfl⟩
  · rw [Script.run_bind, Script.run_bound, shown]
    dsimp only
    rw [Script.run_bind, rotatePaygAccount, Script.run_bind, Script.run_sqlOrRaise, closed.rekey]
    exact ⟨_, rfl⟩

/-- A request with a closed key gets nothing, and changes nothing. -/
theorem serve_closed (d : Deployment) {s : Desk} (closed : s.world.Closed key) {request : KeyRequest}
    (shows : request.Shows d key) : request.serve d s = (false, s.world) := by
  cases request with
  | external call =>
      obtain ⟨request, read, shown⟩ := shows
      have ended : (externalTrail (lowered d.casing) d.settings call).run s.world =
          (.ok (.error ⟨401, "api_key not found"⟩), s.world) := by
        rw [externalTrail, Script.run_bind, Script.run_bound, read]
        exact run_closed closed shown _
      rw [KeyRequest.serve, ended]
      rfl
  | topupLightning createInvoice apiKey trails =>
      rw [KeyRequest.serve, paygTopupLightning]
      split
      · rfl
      · rw [run_closed closed shows]
        rfl
  | topupUsdc intentId apiKey trails fromAddress now =>
      rw [KeyRequest.serve, paygTopupUsdc]
      split
      · rfl
      split
      · rfl
      · rw [run_closed closed shows]
        rfl
  | balance apiKey =>
      rw [KeyRequest.serve, paygBalance, run_closed closed shows]
      rfl
  | webhook machine apiKey url now =>
      have shown : bindStr apiKey = .ok key := shows
      rw [KeyRequest.serve, setAccountWebhook]
      split
      · rfl
      split
      · rename_i text key' _ shown'
        rw [shown] at shown'
        cases shown'
        rw [closed_setPaygWebhook closed]
        rfl
      · rfl
      · rfl
  | rotate token newApiKey apiKey now =>
      obtain ⟨refusal, ended⟩ := closed_rotateAccountApiKey closed shows now
      rw [KeyRequest.serve, ended]
      rfl
  | conformance call =>
      have shown : bindStr call.apiKey = .ok key := shows
      rw [KeyRequest.serve, setAccountConformance]
      split
      · rfl
      split
      · rename_i source key' _ shown'
        rw [shown] at shown'
        cases shown'
        rw [closed_setConformanceSource closed]
        rfl
      · rfl
      · rfl
  | certify body now =>
      obtain ⟨request, read, shown⟩ := shows
      rw [KeyRequest.serve, certifyAsk, read]
      dsimp only
      rw [shown]
      dsimp only
      rw [if_pos (by rw [show s.world.accounts.find? key = none from closed]; rfl)]
      rfl
  | github reply certification now =>
      have named : certification.apiKey = key := shows
      rw [KeyRequest.serve]
      unfold certifyReply
      split
      · rfl
      · rfl
      split
      · rfl
      split
      · rfl
      split
      · rfl
      · rw [named, closed_setConformanceSource closed]
        rfl
      · rfl

end

/-- A key that was replaced opens nothing again: after a rotation that is answered 200, in
every run in which no `uuid4` draws the old key again, a request that shows it gets nothing
and leaves the tables alone, and so does a self-certification that waits for GitHub since
before the rotation. -/
theorem rotated_opensNothing (d : Deployment) {s : Desk} {token newApiKey : String} {apiKey : Str} {now : Seconds}
    {rotated : Rotated} (fresh : newApiKey ≠ rotated.oldApiKey)
    (answered : ((rotateAccountApiKey d.adminToken token newApiKey apiKey now).run s.world).1 = .ok (.ok rotated))
    {steps : List DeskStep}
    (draws : Admits d.step (DrawsOther rotated.oldApiKey) (d.step s (.rotate token newApiKey apiKey now)) steps)
    {request : KeyRequest} (shows : request.Shows d rotated.oldApiKey) :
    request.serve d (run d.step s (.rotate token newApiKey apiKey now :: steps)) =
      (false, (run d.step s (.rotate token newApiKey apiKey now :: steps)).world) :=
  serve_closed d (draws.invariant (P := fun s => s.world.Closed rotated.oldApiKey)
    (fun _ _ closed other => closed_step closed other) (closed_rotated fresh answered)) shows

theorem rotated_opensNothing_key :
    (KeyRequest.balance (ofString "key")).serve administered
        (run administered.step (.fresh oneCredit) [.rotate "admin" "new" (ofString "key") 10]) =
      (false, (run administered.step (.fresh oneCredit) [.rotate "admin" "new" (ofString "key") 10]).world) :=
  rotated_opensNothing administered (show "new" ≠ (⟨"key", "new", "agent"⟩ : Rotated).oldApiKey by decide)
    (by decide +kernel) (by exact trivial) (show bindStr (ofString "key") = .ok "key" by decide +kernel)

/-- Two questions about one key are a minute apart, the later one first. -/
def Spaced (last : Asked) : Prop := last.Pairwise fun later earlier => later.1 = earlier.1 → 60 ≤ later.2 - earlier.2

/-- A question a minute after the last one is a minute after all of them. -/
theorem Spaced.cons {last : Asked} {apiKey : String} {now : ℚ} (spaced : Spaced last)
    (waited : 60 ≤ now - (last.lookup apiKey).getD 0) : Spaced ((apiKey, now) :: last) := by
  refine List.pairwise_cons.mpr ⟨fun earlier member same => ?_, spaced⟩
  obtain rfl : apiKey = earlier.1 := same
  cases latest : last.lookup earlier.1 with
  | none =>
      have absent := List.lookup_eq_none_iff.mp latest earlier member
      simp at absent
  | some time =>
      rw [latest, Option.getD_some] at waited
      obtain ⟨before, after, rfl, others⟩ := List.lookup_eq_some_iff.mp latest
      rcases List.mem_append.mp member with newer | rest
      · have other := others earlier newer
        simp at other
      rcases List.mem_cons.mp rest with same | older
      · rw [same]
        exact waited
      · have apart := (List.pairwise_cons.mp (List.pairwise_append.mp spaced).2.1).1 earlier older rfl
        linarith

theorem certifyAsk_last {casing : Casing} {body : Json} {now : ℚ} {w : World} {last after : Asked}
    {answer : Except Raised (Except Refusal Certification)}
    (asked : certifyAsk casing body now w last = (answer, after)) :
    after = last ∨ ∃ certification, answer = .ok (.ok certification) := by
  unfold certifyAsk at asked
  split at asked
  · cases asked
    exact Or.inl rfl
  · cases asked
    exact Or.inl rfl
  split at asked
  · cases asked
    exact Or.inl rfl
  split at asked
  · cases asked
    exact Or.inl rfl
  split at asked
  · cases asked
    exact Or.inl rfl
  · cases asked
    exact Or.inr ⟨_, rfl⟩

/-- GitHub is asked about a key once a minute: of the questions of one process, two about one
key are 60 seconds apart, whatever the clock does. -/
theorem asked_spaced (d : Deployment) (w : World) (steps : List DeskStep) :
    Spaced (run d.step (.fresh w) steps).last := by
  refine run_invariant (P := fun s : Desk => Spaced s.last) (fun s step spaced => ?_) steps
    (show Spaced [] from List.Pairwise.nil)
  cases step with
  | certify body now =>
      rw [Deployment.step]
      split
      · rename_i certification last asked
        obtain ⟨_, waited, rfl, _⟩ := certifyAsk_ok asked
        exact spaced.cons waited
      · rename_i answer last refused asked
        rcases certifyAsk_last asked with rfl | ⟨certification, rfl⟩
        · exact spaced
        · exact absurd rfl (refused certification)
  | github index reply now =>
      rw [Deployment.step]
      split <;> exact spaced
  | restart => exact List.Pairwise.nil
  | _ => exact spaced

end Argentum.Mycelium
