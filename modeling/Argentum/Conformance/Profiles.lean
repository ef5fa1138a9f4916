import Argentum.Core.Sha256
import Argentum.Core.Transition
import Argentum.Trail.Loads

/-! The registry of canonicalization profiles. A profile's id is the hash of its document,
which is read once and kept. An id is put into a path as it comes, and a file that is there
and does not hold the document raises. -/
namespace Argentum.Profiles
open Text Jcs Loads Sha256 Transition

/-- What a lookup raises: an exception of the language, or an `OSError`. -/
inductive Raised where
  | py (raised : PyError)
  | osError
  deriving DecidableEq

/-- What the operating system has at a path: nothing, something that cannot be asked about
or read, or a file. -/
inductive DiskEntry where
  | missing
  | unreadable
  | file (content : Bytes)

/-- The file system, by the text that is appended to the path of the profiles directory. -/
abbrev Disk := Str → DiskEntry

/-- `ALIASES` -/
def aliases : List (Str × Str) :=
  [(ofString "jcs-rfc8785-v1", ofString "f018a62879ab01f21e8fe5e9e7486dadba0b795e9358b32fd24d38d2c1f1f07d"),
    (ofString "jcs-rfc8785-action-ref-v1",
      ofString "bcf8ae8c1105b8b59f892935d076540f54813b0d87c30cab741e4c29847a0cf5")]

def canonicalId (profileId : Str) : Str := (aliases.lookup profileId).getD profileId

/-- `_cache`: the documents by canonical id, the latest first. -/
abbrev Cache := List (Str × Json)

/-- A byte sequence in UTF-8; what does not encode back to the same bytes is none. -/
def decodeUtf8 : Nat → Bytes → Option Str
  | _, [] => some []
  | 0, _ :: _ => none
  | fuel + 1, bytes =>
      match utf8Head bytes with
      | none => none
      | some (n, rest) =>
          if utf8Char (Fin.ofNat 0x110000 n) = some (bytes.take (bytes.length - rest.length)) ∧ n < 0x110000 then
            (decodeUtf8 fuel rest).map (Fin.ofNat 0x110000 n :: ·)
          else none

/-- Text mode reads every line end as a newline. -/
def universalNewlines : Str → Str
  | 13 :: 10 :: rest => 10 :: universalNewlines rest
  | 13 :: rest => 10 :: universalNewlines rest
  | c :: rest => c :: universalNewlines rest
  | [] => []

/-- `json.loads(path.read_text())` -/
def readDocument (parseFloat : Str → Float64) (content : Bytes) : Except PyError Json :=
  match decodeUtf8 content.length content with
  | none => .error .valueError
  | some text => loads parseFloat (universalNewlines text)

/-- The hash of a document's canonical JSON, on a stack that lasts. -/
def docDigest (doc : Json) : Except PyError Str := do return hexOf (sha256 (← boundlessBytes doc))

def pathOf (canonical : Str) : Str := canonical ++ ofString ".json"

/-- `resolve`, and the cache it leaves. `None` is null. -/
def resolve (parseFloat : Str → Float64) (disk : Disk) (cache : Cache) (profileId : Str) : Except Raised Json × Cache :=
  let canonical := canonicalId profileId
  match cache.lookup canonical with
  | some doc => (.ok doc, cache)
  | none =>
      match disk (pathOf canonical) with
      | .missing => (.ok .null, cache)
      | .unreadable => (.error .osError, cache)
      | .file content =>
          match readDocument parseFloat content with
          | .error raised => (.error (.py raised), cache)
          | .ok doc =>
              match docDigest doc with
              | .error raised => (.error (.py raised), cache)
              | .ok computed =>
                  if computed ≠ canonical then (.error (.py .valueError), cache)
                  else (.ok doc, (canonical, doc) :: cache)

/-- `is_supported` -/
def isSupported (parseFloat : Str → Float64) (disk : Disk) (cache : Cache) (profileId : Str) : Except Raised Bool :=
  (resolve parseFloat disk cache profileId).1.map fun doc => !doc.isNull

/-- A call: what the disk holds then, and the id. -/
abbrev Call := Disk × Str

def step (parseFloat : Str → Float64) (cache : Cache) (call : Call) : Cache :=
  (resolve parseFloat call.1 cache call.2).2

/-- The file of an id holds a document that hashes to the id. -/
def Holds (parseFloat : Str → Float64) (disk : Disk) (canonical : Str) : Prop :=
  ∃ content doc, disk (pathOf canonical) = .file content ∧ readDocument parseFloat content = .ok doc ∧
    docDigest doc = .ok canonical

/-- A call is answered with a document that hashes to the id, or with none, and with none
where no file holds such a document. -/
def Answers (parseFloat : Str → Float64) (cache : Cache) (call : Call) : Prop :=
  ∃ doc, (resolve parseFloat call.1 cache call.2).1 = .ok doc ∧
    (doc = .null ∨ docDigest doc = .ok (canonicalId call.2)) ∧
    (¬ Holds parseFloat call.1 (canonicalId call.2) → doc = .null)

/-- The file of an id holds its document, or there is no such file and no document of the
id was read before. -/
def Servable (parseFloat : Str → Float64) (cache : Cache) (call : Call) : Prop :=
  Holds parseFloat call.1 (canonicalId call.2) ∨
    (cache.lookup (canonicalId call.2) = none ∧ call.1 (pathOf (canonicalId call.2)) = .missing) ∨
    cache.lookup (canonicalId call.2) = some .null

/-- Every kept document hashes to the id it is kept for. -/
def Addressed (cache : Cache) : Prop :=
  ∀ canonical doc, cache.lookup canonical = some doc → docDigest doc = .ok canonical

section
variable {parseFloat : Str → Float64} {disk : Disk} {cache : Cache} {profileId : Str}

theorem holds_iff_of_file {canonical : Str} {content : Bytes} (there : disk (pathOf canonical) = .file content) :
    Holds parseFloat disk canonical ↔
      ∃ doc, readDocument parseFloat content = .ok doc ∧ docDigest doc = .ok canonical := by
  constructor
  · rintro ⟨content', doc, there', read, digest⟩
    cases there.symm.trans there'
    exact ⟨doc, read, digest⟩
  · rintro ⟨doc, read, digest⟩
    exact ⟨content, doc, there, read, digest⟩

/-- What a lookup does: a kept document is returned, an absent file is none, and a file is
read, and either holds the document, which is kept, or raises. -/
theorem resolve_cases (parseFloat : Str → Float64) (disk : Disk) (cache : Cache) (profileId : Str) :
    (∃ doc, cache.lookup (canonicalId profileId) = some doc ∧
      resolve parseFloat disk cache profileId = (.ok doc, cache)) ∨
    (cache.lookup (canonicalId profileId) = none ∧
      ((disk (pathOf (canonicalId profileId)) = .missing ∧
        resolve parseFloat disk cache profileId = (.ok .null, cache)) ∨
        (∃ content doc, disk (pathOf (canonicalId profileId)) = .file content ∧
          readDocument parseFloat content = .ok doc ∧ docDigest doc = .ok (canonicalId profileId) ∧
          resolve parseFloat disk cache profileId = (.ok doc, (canonicalId profileId, doc) :: cache)) ∨
        (disk (pathOf (canonicalId profileId)) ≠ .missing ∧ ¬ Holds parseFloat disk (canonicalId profileId) ∧
          ∃ raised, resolve parseFloat disk cache profileId = (.error raised, cache)))) := by
  unfold resolve
  dsimp only
  cases kept : cache.lookup (canonicalId profileId) with
  | some doc => exact Or.inl ⟨doc, rfl, rfl⟩
  | none =>
      refine Or.inr ⟨rfl, ?_⟩
      dsimp only
      cases there : disk (pathOf (canonicalId profileId)) with
      | missing => exact Or.inl ⟨rfl, rfl⟩
      | unreadable =>
          refine Or.inr (Or.inr ⟨by simp, ?_, .osError, rfl⟩)
          rintro ⟨content, _, there', _⟩
          cases there.symm.trans there'
      | file content =>
          rw [holds_iff_of_file there]
          dsimp only
          cases read : readDocument parseFloat content with
          | error raised => exact Or.inr (Or.inr ⟨by simp, by simp, .py raised, rfl⟩)
          | ok doc =>
              dsimp only
              cases digest : docDigest doc with
              | error raised => exact Or.inr (Or.inr ⟨by simp, by simp [digest], .py raised, rfl⟩)
              | ok computed =>
                  by_cases same : computed = canonicalId profileId
                  · subst same
                    exact Or.inr (Or.inl ⟨content, doc, rfl, read, digest, if_neg (not_not.mpr rfl)⟩)
                  · exact Or.inr (Or.inr ⟨by simp, by simp [digest, same], .py .valueError, if_pos same⟩)

theorem addressed_step (addressed : Addressed cache) (call : Call) : Addressed (step parseFloat cache call) := by
  unfold step
  rcases resolve_cases parseFloat call.1 cache call.2 with ⟨_, _, resolved⟩ |
    ⟨_, ⟨_, resolved⟩ | ⟨_, doc, _, _, digest, resolved⟩ | ⟨_, _, _, resolved⟩⟩
  · rwa [resolved]
  · rwa [resolved]
  · rw [resolved]
    intro canonical found kept
    rw [List.lookup_cons] at kept
    split at kept
    · rename_i same
      rw [beq_iff_eq.mp same, ← Option.some.inj kept]
      exact digest
    · exact addressed canonical found kept
  · rwa [resolved]

/-- A call is answered as it should be exactly where its id can be served. -/
theorem answers_iff_servable (addressed : Addressed cache) {call : Call} :
    Answers parseFloat cache call ↔ Servable parseFloat cache call := by
  unfold Answers Servable
  rcases resolve_cases parseFloat call.1 cache call.2 with
    ⟨doc, kept, resolved⟩ | ⟨fresh, ⟨absent, resolved⟩ | ⟨content, doc, there, read, digest, resolved⟩ |
      ⟨there, unheld, raised, resolved⟩⟩
  · rw [resolved, kept]
    constructor
    · rintro ⟨_, ⟨⟩, _, none⟩
      by_cases holds : Holds parseFloat call.1 (canonicalId call.2)
      · exact Or.inl holds
      · exact Or.inr (Or.inr (congrArg some (none holds)))
    · rintro (holds | ⟨fresh, _⟩ | null)
      · exact ⟨doc, rfl, Or.inr (addressed _ doc kept), fun unheld => absurd holds unheld⟩
      · cases fresh
      · exact ⟨doc, rfl, Or.inl (Option.some.inj null), fun _ => Option.some.inj null⟩
  · rw [resolved]
    exact iff_of_true ⟨.null, rfl, Or.inl rfl, fun _ => rfl⟩ (Or.inr (Or.inl ⟨fresh, absent⟩))
  · rw [resolved]
    have holds : Holds parseFloat call.1 (canonicalId call.2) := ⟨content, doc, there, read, digest⟩
    exact iff_of_true ⟨doc, rfl, Or.inr digest, fun unheld => absurd holds unheld⟩ (Or.inl holds)
  · rw [resolved]
    constructor
    · rintro ⟨_, ⟨⟩, _⟩
    · rintro (holds | ⟨_, absent⟩ | null)
      · exact absurd holds unheld
      · exact absurd absent there
      · rw [fresh] at null
        cases null

/-- What is kept for an id stays. -/
theorem lookup_step {canonical : Str} {doc : Json} (kept : cache.lookup canonical = some doc) (call : Call) :
    (step parseFloat cache call).lookup canonical = some doc := by
  unfold step
  rcases resolve_cases parseFloat call.1 cache call.2 with ⟨_, _, resolved⟩ |
    ⟨fresh, ⟨_, resolved⟩ | ⟨_, other, _, _, _, resolved⟩ | ⟨_, _, _, resolved⟩⟩
  · rwa [resolved]
  · rwa [resolved]
  · rw [resolved, List.lookup_cons]
    split
    · rename_i same
      rw [beq_iff_eq.mp same, fresh] at kept
      cases kept
    · exact kept
  · rwa [resolved]

/-- A document that is returned is kept. -/
theorem kept_of_resolved {call : Call} {doc : Json} (resolved : (resolve parseFloat call.1 cache call.2).1 = .ok doc)
    (document : doc ≠ .null) : (step parseFloat cache call).lookup (canonicalId call.2) = some doc := by
  unfold step
  rcases resolve_cases parseFloat call.1 cache call.2 with ⟨_, kept, same⟩ |
    ⟨_, ⟨_, same⟩ | ⟨_, _, _, _, _, same⟩ | ⟨_, _, _, same⟩⟩
  · rw [same] at resolved ⊢
    cases resolved
    exact kept
  · rw [same] at resolved
    cases resolved
    exact absurd rfl document
  · rw [same] at resolved ⊢
    cases resolved
    rw [List.lookup_cons, beq_self_eq_true]
  · rw [same] at resolved
    cases resolved

end

end Argentum.Profiles
