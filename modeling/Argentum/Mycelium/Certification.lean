import Argentum.Core.Casing
import Argentum.Mycelium.Weights

/-! `POST /payg/account/self-certify`. A provider names a folder of the repository, and where
the folder is there and not empty its name becomes the source of the account. The handler
waits for the answer of GitHub between the account it read and the source it writes, so it is
two steps, and other calls run between them. The name is lowered and stripped, and is no name
of a tier. -/
namespace Argentum.Mycelium
open Argentum Text Transition

def selfCertifyRepo : Str := ofString "giskard09/argentum-core"

def conformanceBase : Str := ofString "examples/conformance"

/-- `s.strip("/")` -/
def stripSlashes (s : Str) : Str :=
  ((s.dropWhile (· = ofChar '/')).reverse.dropWhile (· = ofChar '/')).reverse

/-- `conformance_path[len(_CONFORMANCE_BASE) + 1:].split("/")[0].lower().strip()` -/
def folderOf (casing : Casing) (conformancePath : Str) : Str :=
  strip (casing.lower (((conformancePath.drop (conformanceBase.length + 1)).splitOn (ofChar '/')).headD []))

/-- The tier of `CONFORMANCE_TIER` that a folder is named like. -/
def reservedTier (folder : Str) : Option String :=
  (conformanceTier.find? fun tier => ofString tier.1 = folder).map Prod.fst

/-- The account and the folder of a request whose fields pass the checks. -/
structure CertifyRequest where
  apiKey : Str
  folder : Str

/-- The checks of the body. -/
def readCertify (casing : Casing) (body : Json) : Except Raised (Except Refusal CertifyRequest) :=
  if !body.isDict then .error .attributeError
  else do
    let apiKey ← textField body "api_key" ""
    let conformanceRepo ← textField body "conformance_repo" ""
    let path ← textField body "conformance_path" ""
    let conformancePath := stripSlashes path
    if apiKey = [] ∨ conformanceRepo = [] ∨ conformancePath = [] then
      return .error ⟨400, "api_key, conformance_repo, conformance_path required"⟩
    else if conformanceRepo ≠ selfCertifyRepo then
      return .error ⟨422, "conformance_repo must be 'giskard09/argentum-core'"⟩
    else if !(conformanceBase ++ [ofChar '/']).isPrefixOf conformancePath then
      return .error ⟨422, "conformance_path must be under 'examples/conformance'"⟩
    else if folderOf casing conformancePath = [] then
      return .error ⟨422, "could not extract folder name from conformance_path"⟩
    else
      match reservedTier (folderOf casing conformancePath) with
      | some tier =>
          return .error ⟨409, "folder '" ++ tier ++ "' is reserved for tier-verified providers — contact admin"⟩
      | none => return .ok ⟨apiKey, folderOf casing conformancePath⟩

/-- A request that waits for GitHub. -/
structure Certification where
  apiKey : String
  folder : Str
  deriving DecidableEq

/-- `_self_certify_last`: the last question about each key. -/
abbrev Asked := List (String × ℚ)

/-- The part of `self_certify_provider` before it asks GitHub. -/
def certifyAsk (casing : Casing) (body : Json) (now : ℚ) (w : World) (last : Asked) :
    Except Raised (Except Refusal Certification) × Asked :=
  match readCertify casing body with
  | .error raised => (.error raised, last)
  | .ok (.error refusal) => (.ok (.error refusal), last)
  | .ok (.ok request) =>
      match bindStr request.apiKey with
      | .error raised => (.error raised, last)
      | .ok apiKey =>
          if (w.accounts.find? apiKey).isNone then (.ok (.error ⟨401, "api_key not found"⟩), last)
          else if now - (last.lookup apiKey).getD 0 < 60 then
            (.ok (.error ⟨429, "rate limited — wait 60s between self-certify calls"⟩), last)
          else (.ok (.ok ⟨apiKey, request.folder⟩), (apiKey, now) :: last)

/-- What GitHub says of the folder: no answer, or a status with a body, which may be no JSON. -/
inductive GithubReply where
  | unreachable
  | response (status : Nat) (body : Option Json)

structure Certified where
  apiKey : String
  agentId : String
  conformanceSource : String
  conformancePath : String
  karmaWeight : ℚ
  trailLimit : String
  deriving DecidableEq

/-- The part of `self_certify_provider` after the answer of GitHub. A folder that has no UTF-8
is asked for in vain. -/
def certifyReply (reply : GithubReply) (certification : Certification) (now : Seconds) (w : World) :
    Except Raised (Except Refusal Certified) × World :=
  match toString? certification.folder, reply with
  | none, _ => (.ok (.error ⟨502, "could not reach GitHub API"⟩), w)
  | _, .unreachable => (.ok (.error ⟨502, "could not reach GitHub API"⟩), w)
  | some folder, .response status body =>
      if status = 404 then
        (.ok (.error ⟨422, "conformance folder not found in argentum-core: examples/conformance/" ++ folder⟩), w)
      else if status ≠ 200 then (.ok (.error ⟨502, "GitHub API error: " ++ toString status⟩), w)
      else
        match body with
        | none => (.error (.python .valueError), w)
        | some (.list (_ :: _)) =>
            match setConformanceSource w certification.apiKey folder now with
            | (none, after) => (.ok (.error ⟨500, "failed to update account"⟩), after)
            | (some updated, after) =>
                (.ok (.ok
                  { apiKey := certification.apiKey
                    agentId := updated.agentId
                    conformanceSource := folder
                    conformancePath := "examples/conformance/" ++ folder
                    karmaWeight := karmaProviderWeight
                    trailLimit := "unlimited" }), after)
        | some _ => (.ok (.error ⟨422, "conformance folder exists but is empty"⟩), w)

/-- `str.lower()` of a text that SQLite holds. -/
def lowered (casing : Casing) (s : String) : String := (toString? (casing.lower (ofString s))).getD ""

/-- The name of a folder as it may become a source. -/
structure Unreserved (casing : Casing) (folder : Str) : Prop where
  named : folder ≠ []
  stripped : strip folder = folder
  lowered : casing.lower folder = folder
  apart : reservedTier folder = none

/-- A text with no white space at its ends has none to strip. -/
theorem strip_strip (s : Str) : strip (strip s) = strip s := by
  have ends (t : Str) : strip t = (t.dropWhile isUnicodeSpace).rdropWhile isUnicodeSpace := rfl
  rw [ends (strip s), ends s]
  have head : ((s.dropWhile isUnicodeSpace).rdropWhile isUnicodeSpace).dropWhile isUnicodeSpace =
      (s.dropWhile isUnicodeSpace).rdropWhile isUnicodeSpace := by
    refine List.dropWhile_eq_self_iff.mpr fun positive => ?_
    have front := List.rdropWhile_prefix isUnicodeSpace (l := s.dropWhile isUnicodeSpace)
    rw [front.getElem positive]
    exact List.dropWhile_get_zero_not _ _ _
  rw [head, List.rdropWhile_idempotent]

section
variable {casing : Casing} {body : Json} {request : CertifyRequest}

theorem mem_strip {s : Str} {c : CodePoint} (member : c ∈ strip s) : c ∈ s :=
  (List.dropWhile_sublist _).subset
    (List.mem_reverse.mp ((List.dropWhile_sublist _).subset (List.mem_reverse.mp member)))

theorem lower_strip_lower (s : Str) : casing.lower (strip (casing.lower s)) = strip (casing.lower s) :=
  Casing.lowerFrom_of_stable fun _ member => Casing.stable_of_mem (mem_strip member)

theorem readCertify_ok (read : readCertify casing body = .ok (.ok request)) : Unreserved casing request.folder := by
  unfold readCertify at read
  split at read
  · cases read
  obtain ⟨apiKey, _, read⟩ := bind_ok read
  obtain ⟨conformanceRepo, _, read⟩ := bind_ok read
  obtain ⟨path, _, read⟩ := bind_ok read
  dsimp only at read
  split at read
  · cases read
  split at read
  · cases read
  split at read
  · cases read
  split at read
  · cases read
  rename_i named
  split at read
  · cases read
  · rename_i apart
    cases read
    exact ⟨named, strip_strip _, lower_strip_lower _, apart⟩

/-- A request that goes on to GitHub is about an account that was there, and a folder that may
become its source; the key was asked about a minute ago or earlier. -/
theorem certifyAsk_ok {now : ℚ} {w : World} {last after : Asked} {certification : Certification}
    (asked : certifyAsk casing body now w last = (.ok (.ok certification), after)) :
    Unreserved casing certification.folder ∧ 60 ≤ now - (last.lookup certification.apiKey).getD 0 ∧
      after = (certification.apiKey, now) :: last ∧ (w.accounts.find? certification.apiKey).isSome := by
  unfold certifyAsk at asked
  split at asked
  · cases asked
  · cases asked
  rename_i request read
  split at asked
  · cases asked
  split at asked
  · cases asked
  rename_i there
  split at asked
  · cases asked
  rename_i waited
  cases asked
  exact ⟨readCertify_ok read, not_lt.mp waited, rfl, by simpa [Option.isSome_iff_ne_none] using there⟩

end

section
variable {casing : Casing} {source : String} {account : Account}

/-- A text of characters reads back as itself. -/
theorem toString?_ofString (text : String) : toString? (ofString text) = some text := by
  have chars (cs : List Char) : (cs.map ofChar).mapM (fun c : CodePoint =>
      if c.val.isValidChar then some (Char.ofNat c.val) else none) = some cs := by
    induction cs with
    | nil => rfl
    | cons c rest ih =>
        have valid : (ofChar c).val.isValidChar := c.valid
        have same : Char.ofNat (ofChar c).val = c := Char.ofNat_toNat c
        rw [List.map_cons, List.mapM_cons, if_pos valid, same, ih]
        rfl
  rw [toString?, ofString, chars, Option.map_some, String.ofList_toList]

/-- An unreserved source is taken as it is. -/
theorem conformanceSource_unreserved (unreserved : Unreserved casing (ofString source))
    (held : account.conformanceSource = some source) : conformanceSource (lowered casing) account = source := by
  rw [conformanceSource, held, Option.getD_some, unreserved.stripped, toString?_ofString, Option.getD_some, lowered,
    unreserved.lowered, toString?_ofString, Option.getD_some]

theorem lookup_unreserved (unreserved : Unreserved casing (ofString source)) :
    conformanceTier.lookup source = none := by
  have apart := Option.map_eq_none_iff.mp unreserved.apart
  rw [List.find?_eq_none] at apart
  refine List.lookup_eq_none_iff.mpr fun tier member => ?_
  rw [bne_iff_ne]
  rintro rfl
  exact apart tier member (decide_eq_true rfl)

end

end Argentum.Mycelium
