import Argentum.Mycelium.Authority

/-! `webhook_notify.py`. The host of a webhook is resolved once; the address found is given to
an adapter that the session takes for the URLs with a prefix, built from the parsed parts.
Where the URL does not begin with that prefix the session takes another one, which resolves
the host again. -/
namespace Argentum.Mycelium.Webhook
open Argentum Text Url

/-- The machine of the daemon: the tables of its Unicode, its addresses, and its resolver,
which raises or lists the addresses of a host. -/
structure Machine where
  casing : Casing
  nfkc : Str → Str
  addresses : Addresses
  getaddrinfo : Str → Option (List Str)

def isPublic (address : IpAddress) : Bool :=
  !(address.isPrivate || address.isLoopback || address.isLinkLocal || address.isReserved || address.isMulticast ||
    address.isUnspecified)

/-- The loop of `_resolve_safe_ip`. -/
def firstSafe (addresses : Addresses) : List Str → Option Str → Option Str
  | [], safeIp => safeIp
  | text :: rest, safeIp =>
      match addresses.ipAddress text with
      | none => none
      | some address => if isPublic address then firstSafe addresses rest (safeIp.or (some text)) else none

/-- `_resolve_safe_ip`; an empty list leaves no address either. -/
def resolveSafeIp (machine : Machine) (host : Str) : Option Str :=
  (machine.getaddrinfo host).bind fun infos => firstSafe machine.addresses infos none

/-- A parsed URL of HTTP, with its host. -/
def webHost (machine : Machine) (url : Str) : Option (Parts × Str) :=
  match urlsplit machine.addresses machine.nfkc url with
  | .error _ => none
  | .ok parts =>
      if parts.scheme = ofString "http" ∨ parts.scheme = ofString "https" then
        (parts.hostname machine.casing).map fun host => (parts, host)
      else none

def isSafeWebhookUrl (machine : Machine) (url : Str) : Bool :=
  url ≠ [] && (webHost machine url).any fun found => (resolveSafeIp machine found.2).isSome

/-- A connection pool: the host it connects to, and the name that TLS is checked against. -/
structure Pool where
  host : Str
  port : Nat
  serverHostname : Option Str
  assertHostname : Option Str

/-- `_PinnedIPAdapter` -/
structure PinnedIpAdapter where
  hostname : Str
  pinnedIp : Str
  deriving DecidableEq

/-- The URL that `requests` prepares for a request: the parts it has read, as they are written
anew. -/
structure Prepared where
  scheme : Str
  auth : Option Str
  host : Str
  port : Option Nat
  path : Str

/-- `auth@host:port` -/
def Prepared.authority (prepared : Prepared) : Str :=
  match prepared.auth with
  | none => prepared.host ++ portText prepared.port
  | some auth => auth ++ 64 :: (prepared.host ++ portText prepared.port)

def Prepared.url (prepared : Prepared) : Str := opening prepared.scheme ++ (prepared.authority ++ prepared.path)

/-- A character that stands in an authority as it is: a letter, a digit, or one of
`!$&'()*+,-.:;=@[]_~`. -/
def isUrlChar (c : CodePoint) : Bool := isAsciiLetter c || isDigit c ||
  c.val ∈ [33, 36, 38, 39, 40, 41, 42, 43, 44, 45, 46, 58, 59, 61, 64, 91, 93, 95, 126]

/-- The authority stands in the URL as it is read of it, in characters that stay as they are. -/
structure Plain (url netloc : Str) : Prop where
  stands : ∃ written rest, url.dropWhile isC0OrSpace = opening written ++ (netloc ++ rest) ∧
    rest.head?.all isDelimiter = true
  chars : netloc.all isUrlChar = true

/-- `requests`, which is asked for a URL and has the two adapters of every session beside the one that is
mounted on a prefix. -/
structure Requests (machine : Machine) where
  /-- The URL of the prepared request, or nothing where it raises. -/
  prepare : Str → Option Prepared
  /-- The session with an adapter mounted on the first text takes that adapter for the second. -/
  takes : Str → Str → Bool
  scheme : ∀ {url parts prepared}, urlsplit machine.addresses machine.nfkc url = .ok parts →
    prepare url = some prepared → prepared.scheme = parts.scheme
  /-- The path of a prepared URL is never empty. -/
  path : ∀ {url prepared}, prepare url = some prepared → ∃ rest, prepared.path = 47 :: rest
  /-- A prepared URL is parsed, and has a port. -/
  parses : ∀ {url prepared}, prepare url = some prepared →
    ∃ parts port, urlsplit machine.addresses machine.nfkc prepared.url = .ok parts ∧ parts.port = .ok port
  /-- Of a plain authority the user information is kept, if there is any, the host is written in lower
  case, an address of version 6 in brackets, and the port without leading zeros. -/
  reads : ∀ {url parts hostname port prepared}, urlsplit machine.addresses machine.nfkc url = .ok parts →
    parts.hostname machine.casing = some hostname → parts.port = .ok port → prepare url = some prepared →
    Plain url parts.netloc →
      (prepared.auth = none ↔ beforeLast 64 parts.netloc = []) ∧
      prepared.host = (if 91 ∈ hostAndPort parts.netloc then 91 :: (hostname ++ [93]) else hostname) ∧
      portText prepared.port = portText port
  /-- A session takes the adapter of the longest prefix that the URL begins with, ignoring case. -/
  picks : ∀ {scheme text url}, scheme = ofString "http" ∨ scheme = ofString "https" → text ≠ [] →
    (takes (opening scheme ++ text) url = true ↔
      machine.casing.lower (opening scheme ++ text) <+: machine.casing.lower url)

/-- One `session.post`: the URL it is asked for, the one it prepares, and the adapter that is mounted. -/
structure Sent where
  url : Str
  prepared : Prepared
  mounted : Str
  adapter : PinnedIpAdapter
  json : Json
  allowRedirects : Bool

/-- `notify_anchor`, with what it sends: a request has a status code or raises. -/
def notifyAnchor (machine : Machine) (requests : Requests machine) (post : Sent → Option Nat)
    (url trailId txHash anchoredAt : Str) : Except PyError (Bool × Option Sent) :=
  if url = [] then .ok (false, none)
  else
    match webHost machine url with
    | none => .ok (false, none)
    | some (parts, hostname) =>
        match resolveSafeIp machine hostname with
        | none => .ok (false, none)
        | some pinnedIp => do
            let payload := Json.dict [(ofString "trail_id", .str trailId), (ofString "tx_hash", .str txHash),
              (ofString "anchored_at", .str anchoredAt)]
            let port ← parts.port
            let mounted := opening parts.scheme ++ (hostname ++ portText port)
            match requests.prepare url with
            | none => return (false, none)
            | some prepared =>
                let sent : Sent :=
                  { url, prepared, mounted, adapter := ⟨hostname, pinnedIp⟩, json := payload, allowRedirects := false }
                return ((post sent).any fun status => 200 ≤ status && status < 300, some sent)

section
variable {machine : Machine}

variable {requests : Requests machine} {post : Sent → Option Nat} {url trailId txHash anchoredAt : Str}
  {answer : Bool} {sent : Sent}

/-- What a notification that is posted has found. -/
theorem notifyAnchor_cases
    (posted : notifyAnchor machine requests post url trailId txHash anchoredAt = .ok (answer, some sent)) :
    ∃ parts hostname pinnedIp port, webHost machine url = some (parts, hostname) ∧
      resolveSafeIp machine hostname = some pinnedIp ∧ parts.port = .ok port ∧
      requests.prepare url = some sent.prepared ∧ sent.url = url ∧
      sent.mounted = opening parts.scheme ++ (hostname ++ portText port) ∧ sent.adapter = ⟨hostname, pinnedIp⟩ := by
  unfold notifyAnchor at posted
  split at posted
  · cases posted
  · split at posted
    · cases posted
    · rename_i parts hostname found
      split at posted
      · cases posted
      · rename_i pinnedIp safe
        obtain ⟨port, ported, returned⟩ := bind_ok posted
        dsimp only at returned
        split at returned
        · cases returned
        · rename_i prepared ready
          cases returned
          exact ⟨parts, hostname, pinnedIp, port, found, safe, ported, ready, rfl, rfl, rfl⟩

/-- What is posted would have been registered. -/
theorem isSafeWebhookUrl_of_posted
    (posted : notifyAnchor machine requests post url trailId txHash anchoredAt = .ok (answer, some sent)) :
    isSafeWebhookUrl machine url = true := by
  have some_url : url ≠ [] := by
    rintro rfl
    cases posted
  obtain ⟨parts, hostname, pinnedIp, -, found, safe, -⟩ := notifyAnchor_cases posted
  rw [isSafeWebhookUrl, decide_eq_true some_url, found, Bool.true_and, Option.any_some, safe]
  rfl

end

/-- A machine whose resolver knows three hosts. -/
def oneHost : Machine where
  casing := .ascii
  nfkc := id
  addresses :=
    { ipAddress := fun text =>
        if text.head? = some 91 then none
        else if text = ofString "93.184.215.14" then some ⟨false, false, false, false, false, false, false⟩
        else if text = ofString "2606:2800:21f::1" then some ⟨true, false, false, false, false, false, false⟩
        else none
      unbracketed := fun _ => if_pos rfl }
  getaddrinfo host :=
    if host = ofString "example.com" then some [ofString "93.184.215.14"]
    else if host = ofString "2606:2800:21f::1" then some [ofString "2606:2800:21f::1"]
    else if host = ofString "bücher.example" then some [ofString "93.184.215.14"]
    else none

example : webHost oneHost (ofString "https://User@Example.COM:8443/hook") =
    some (⟨ofString "https", ofString "User@Example.COM:8443"⟩, ofString "example.com") := by decide +kernel

/-- The prepared URL is as `requests` has it. -/
def Fits (url : Str) (prepared : Prepared) : Prop :=
  ∃ parts ∈ (urlsplit oneHost.addresses oneHost.nfkc url).toOption, prepared.scheme = parts.scheme ∧
    prepared.path.head? = some 47 ∧
    (∃ again ∈ (urlsplit oneHost.addresses oneHost.nfkc prepared.url).toOption, again.port.toOption.isSome = true) ∧
    (parts.netloc.all isUrlChar = true → (prepared.auth = none ↔ beforeLast 64 parts.netloc = []) ∧
      (∀ hostname ∈ parts.hostname oneHost.casing, prepared.host =
        (if 91 ∈ hostAndPort parts.netloc then 91 :: (hostname ++ [93]) else hostname)) ∧
      ∀ port ∈ parts.port.toOption, prepared.port = port)

instance (url : Str) (prepared : Prepared) : Decidable (Fits url prepared) := inferInstanceAs (Decidable (∃ _ ∈ _, _))

end Argentum.Mycelium.Webhook
