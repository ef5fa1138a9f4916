import Argentum.Core.Casing
import Argentum.Mycelium.Domain

/-! `urllib.parse.urlparse` as far as the scheme and the authority: the host is taken out of
a text from which some characters are removed, and is not the text in the URL. A URL is
untouched as far as its beginning is there as it was given. -/
namespace Argentum.Mycelium.Url
open Argentum Text

def isC0OrSpace (c : CodePoint) : Bool := c.val ≤ 32

/-- A tab, a line feed or a carriage return. -/
def isRemoved (c : CodePoint) : Bool := c.val = 9 || c.val = 10 || c.val = 13

/-- The characters at the start are stripped and those in the middle removed. -/
def cleaned (url : Str) : Str := (url.dropWhile isC0OrSpace).filter fun c => !isRemoved c

section
variable (c : CodePoint) (s : Str)

def beforeFirst : Str := (Jcs.partition c s).1

def afterFirst : Str := (Jcs.partition c s).2

/-- The outer parts of `s.rpartition(c)`. -/
def beforeLast : Str := (afterFirst c s.reverse).reverse

def afterLast : Str := (beforeFirst c s.reverse).reverse

end

def isSchemeChar (c : CodePoint) : Bool :=
  isAsciiLetter c || (48 ≤ c.val && c.val ≤ 57) || c.val = 43 || c.val = 45 || c.val = 46

def isScheme (text : Str) : Bool := (text.head?.any isAsciiLetter) && text.all isSchemeChar

/-- The scheme and the rest of a cleaned URL. -/
def splitScheme (url : Str) : Str × Str :=
  if 58 ∈ url ∧ isScheme (beforeFirst 58 url) then ((beforeFirst 58 url).map lowerAscii, afterFirst 58 url)
  else ([], url)

/-- `/`, `?` or `#`, at which the authority ends. -/
def isDelimiter (c : CodePoint) : Bool := c.val = 47 || c.val = 63 || c.val = 35

/-- `_splitnetloc` of a text that begins with `//`, less the rest. -/
def splitNetloc (rest : Str) : Str :=
  match rest with
  | 47 :: 47 :: text => text.takeWhile fun c => !isDelimiter c
  | _ => []

/-- An address as `ipaddress` describes it. -/
structure IpAddress where
  isV6 : Bool
  isPrivate : Bool
  isLoopback : Bool
  isLinkLocal : Bool
  isReserved : Bool
  isMulticast : Bool
  isUnspecified : Bool

/-- `ipaddress.ip_address`, which raises where there is none. No address begins with a bracket. -/
structure Addresses where
  ipAddress : Str → Option IpAddress
  unbracketed : ∀ text, ipAddress (91 :: text) = none

section
variable (netloc : Str)

def hostAndPort : Str := afterLast 64 netloc

/-- The host and the port of `_hostinfo`. -/
def rawHost : Str :=
  if 91 ∈ hostAndPort netloc then beforeFirst 93 (afterFirst 91 (hostAndPort netloc))
  else beforeFirst 58 (hostAndPort netloc)

def rawPort : Str :=
  if 91 ∈ hostAndPort netloc then afterFirst 58 (afterFirst 93 (afterFirst 91 (hostAndPort netloc)))
  else afterFirst 58 (hostAndPort netloc)

/-- `re.match(r"\Av[a-fA-F0-9]+\..+\Z", host)` -/
def isIpvFuture (host : Str) : Bool :=
  match host with
  | 118 :: rest =>
      let isHex (c : CodePoint) : Bool :=
        (48 ≤ c.val && c.val ≤ 57) || (65 ≤ c.val && c.val ≤ 70) || (97 ≤ c.val && c.val ≤ 102)
      rest.takeWhile isHex ≠ [] &&
        match rest.dropWhile isHex with
        | 46 :: text => text ≠ [] && 10 ∉ text
        | _ => false
  | _ => false

/-- `_check_bracketed_host` -/
def bracketedHost (addresses : Addresses) (host : Str) : Bool :=
  if host.head? = some 118 then isIpvFuture host else (addresses.ipAddress host).any IpAddress.isV6

/-- `_check_bracketed_netloc` -/
def bracketedNetloc (addresses : Addresses) : Bool :=
  let rest := afterFirst 93 (afterFirst 91 (hostAndPort netloc))
  (91 ∉ hostAndPort netloc || (beforeFirst 91 (hostAndPort netloc) = [] && (rest = [] || rest.head? = some 58))) &&
    bracketedHost addresses (rawHost netloc)

/-- `_checknetloc`, with NFKC. -/
def checkNetloc (nfkc : Str → Str) : Bool :=
  netloc.all (fun c => c.val < 128) ||
    let plain := netloc.filter fun c => c ∉ ([64, 58, 35, 63] : Str)
    plain = nfkc plain || ([47, 63, 35, 64, 58] : Str).all fun c => c ∉ nfkc plain

end

structure Parts where
  scheme : Str
  netloc : Str
  deriving DecidableEq

/-- `urlsplit`, less the parts that nothing here reads. -/
def urlsplit (addresses : Addresses) (nfkc : Str → Str) (url : Str) : Except PyError Parts :=
  let (scheme, rest) := splitScheme (cleaned url)
  let netloc := splitNetloc rest
  if (91 ∈ netloc ∧ 93 ∉ netloc) ∨ (93 ∈ netloc ∧ 91 ∉ netloc) then .error .valueError
  else if 91 ∈ netloc ∧ bracketedNetloc netloc addresses = false then .error .valueError
  else if checkNetloc netloc nfkc then .ok ⟨scheme, netloc⟩
  else .error .valueError

/-- `hostname`: the zone of an address keeps its case. -/
def Parts.hostname (casing : Casing) (parts : Parts) : Option Str :=
  let host := rawHost parts.netloc
  if host = [] then none
  else some (casing.lower (beforeFirst 37 host) ++ if 37 ∈ host then 37 :: afterFirst 37 host else [])

/-- `port` -/
def Parts.port (parts : Parts) : Except PyError (Option Nat) :=
  let text := rawPort parts.netloc
  if text = [] then .ok none
  else if text.all isDigit then do
    let port ← intOfDigits text
    if port ≤ 65535 then return some port else .error .valueError
  else .error .valueError

section
variable {c : CodePoint} {s : Str}

end

/-- The scheme as written, with `://`. -/
def opening (written : Str) : Str := written ++ [58, 47, 47]

section
variable {casing : Casing} {text url written netloc rest scheme : Str}

end

end Argentum.Mycelium.Url
