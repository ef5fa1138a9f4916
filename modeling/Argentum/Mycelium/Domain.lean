import Argentum.Core.Calendar
import Argentum.Mycelium.Schema
import Argentum.Trail.Jcs

/-! `_validate_domain`: which four fields an action reference may be made of. Three are
ASCII, the scope is not empty, and the timestamp is an instant of RFC 3339 in milliseconds
or, where the caller admits it, an epoch in milliseconds. -/
namespace Argentum.Mycelium
open Argentum Text

def epochMsMin : Nat := 1577836800000

def epochMsMax : Nat := 4102444800000

/-- A text of the form `0000-00-00T00:00:00.000Z`, with any digits. -/
def timestampShaped (s : Str) : Bool :=
  s.length = 24 && (s.zip (ofString "0000-00-00T00:00:00.000Z")).all fun (c, p) =>
    if p.val = 48 then isDigit c else c = p

/-- One ASCII digit at least, and nothing else. -/
def epochMsShaped (s : Str) : Bool := s ≠ [] && s.all isDigit

/-- What `%Y-%m-%dT%H:%M:%S.%fZ` reads. -/
structure DateFields where
  year : Nat
  month : Nat
  day : Nat
  hour : Nat
  minute : Nat
  second : Nat
  deriving DecidableEq

def dateFields (s : Str) : DateFields :=
  let field (start length : Nat) := Jcs.digitsValue ((s.drop start).take length)
  { year := field 0 4, month := field 5 2, day := field 8 2, hour := field 11 2, minute := field 14 2
    second := field 17 2 }

/-- The patterns of the directives; that of the seconds admits a leap second and one more. -/
def DateFields.matched (fields : DateFields) : Bool :=
  1 ≤ fields.month && fields.month ≤ 12 && 1 ≤ fields.day && fields.day ≤ 31 && fields.hour ≤ 23 &&
    fields.minute ≤ 59 && fields.second ≤ 61

/-- `date(year, month, day)` is one. -/
def DateFields.isDate (fields : DateFields) : Bool :=
  1 ≤ fields.year && fields.year ≤ 9999 && 1 ≤ fields.month && fields.month ≤ 12 && 1 ≤ fields.day &&
    fields.day ≤ Calendar.daysInMonth fields.year fields.month

/-- `datetime.strptime` of a text of that form: the patterns, the date and then the time are checked. -/
def strptime (timestamp : Str) : Except PyError DateFields :=
  let fields := dateFields timestamp
  if !fields.matched then .error .valueError
  else if !fields.isDate then .error .valueError
  else if 59 < fields.second then .error .valueError
  else .ok fields

/-- `OutOfProfileDomainError`, with the fixed part of its reason. -/
structure OutOfProfile where
  field : String
  reason : String
  deriving DecidableEq, Repr

def fromPy {α : Type} : Except PyError α → Except Raised α
  | .ok value => .ok value
  | .error raised => .error (.python raised)

/-- `value.isascii()` -/
def isAscii : Json → Except Raised Bool
  | .str s => .ok (s.all fun c => c.val < 0x80)
  | _ => .error .attributeError

/-- `int(text)` of ASCII digits, of which CPython takes 4300 at most. -/
def intOfDigits (text : Str) : Except PyError Nat :=
  if text.length ≤ 4300 then .ok (Jcs.digitsValue text) else .error .valueError

/-- `datetime.fromtimestamp(ms / 1000, tz=timezone.utc)`: the quotient has no double, or the
year is past 9999. -/
def fromTimestamp (ms : Nat) : Except Raised Nat :=
  if (2 ^ 1024 - 2 ^ 970) * 1000 ≤ ms then .error .overflowError
  else if 253402300800000 ≤ ms then .error (.python .valueError)
  else .ok (ms / 1000)

/-- The date that the message shows, where there is one. -/
def asDate (ms : Nat) : Except Raised (Option Nat) :=
  match fromTimestamp ms with
  | .ok second => .ok (some second)
  | .error (.python .valueError) => .ok none
  | .error .overflowError => .ok none
  | .error raised => .error raised

/-- The timestamp half of `_validate_domain`. -/
def validateTimestamp (allowEpochMs : Bool) (timestamp : Str) : Except Raised (Option OutOfProfile) :=
  if allowEpochMs && epochMsShaped timestamp then do
    let ms ← fromPy (intOfDigits timestamp)
    if epochMsMin ≤ ms && ms ≤ epochMsMax then return none
    else do
      let _ ← asDate ms
      return some ⟨"timestamp", "all-digit (epoch-ms) but outside the plausible range"⟩
  else if !timestampShaped timestamp then
    return some ⟨"timestamp", if allowEpochMs then
        "does not match the accepted grammar -- RFC 3339 (YYYY-MM-DDTHH:MM:SS.mmmZ) or all-digit epoch-ms"
      else "does not match the accepted grammar -- RFC 3339 (YYYY-MM-DDTHH:MM:SS.mmmZ) -- epoch-ms integers must be " ++
        "converted to this form before hashing, per the Conversion note in action-ref.md"⟩
  else
    match strptime timestamp with
    | .ok _ => return none
    | .error .valueError =>
        return some ⟨"timestamp", "matches the required grammar but does not denote a real calendar instant"⟩
    | .error raised => .error (.python raised)

def validateDomain (agentId actionType scope : Json) (timestamp : Str) (allowEpochMs : Bool) :
    Except Raised (Option OutOfProfile) := do
  if !(← isAscii agentId) then return some ⟨"agent_id", "non-ASCII character in field value"⟩
  else if !(← isAscii actionType) then return some ⟨"action_type", "non-ASCII character in field value"⟩
  else if !(← isAscii scope) then return some ⟨"scope", "non-ASCII character in field value"⟩
  else if !scope.truthy then
    return some ⟨"scope", "must be a non-empty string -- no \"not applicable\" exception"⟩
  else validateTimestamp allowEpochMs timestamp

/-- The number in so many decimal digits, the highest first. -/
def padded : Nat → Nat → Str
  | 0, _ => []
  | width + 1, n => padded width (n / 10) ++ [Fin.ofNat 0x110000 (48 + n % 10)]

section
variable {width n : Nat} {text : Str}

theorem isDigit_padded (width n : Nat) : (padded width n).all isDigit = true := by
  induction width generalizing n with
  | zero => rfl
  | succ width ih =>
      rw [padded, List.all_append, ih, Bool.true_and, List.all_cons, List.all_nil, Bool.and_true, isDigit]
      simp only [Fin.ofNat, Bool.and_eq_true, decide_eq_true_eq]
      omega

theorem digitsValue_concat (text : Str) (c : CodePoint) :
    Jcs.digitsValue (text ++ [c]) = 10 * Jcs.digitsValue text + (c.val - 48) := by
  rw [Jcs.digitsValue, List.foldl_append]
  rfl

theorem digitsValue_padded (small : n < 10 ^ width) : Jcs.digitsValue (padded width n) = n := by
  induction width generalizing n with
  | zero =>
      rw [pow_zero] at small
      rw [Nat.lt_one_iff.mp small]
      rfl
  | succ width ih =>
      rw [pow_succ] at small
      rw [padded, digitsValue_concat, ih (by omega)]
      simp only [Fin.ofNat]
      omega

/-- Digits are those of their value. -/
theorem padded_digitsValue (digits : text.all isDigit = true) : padded text.length (Jcs.digitsValue text) = text := by
  induction text using List.reverseRecOn with
  | nil => rfl
  | append_singleton text c ih =>
      rw [List.all_append, Bool.and_eq_true, List.all_cons, List.all_nil, Bool.and_true, isDigit, Bool.and_eq_true,
        decide_eq_true_eq, decide_eq_true_eq] at digits
      obtain ⟨front, low, high⟩ := digits
      rw [List.length_append, List.length_singleton, padded, digitsValue_concat,
        show (10 * Jcs.digitsValue text + (c.val - 48)) / 10 = Jcs.digitsValue text by omega, ih front]
      congr 2
      apply Fin.ext
      simp only [Fin.ofNat]
      omega

theorem digitsValue_lt (digits : text.all isDigit = true) : Jcs.digitsValue text < 10 ^ text.length := by
  induction text using List.reverseRecOn with
  | nil => decide
  | append_singleton text c ih =>
      rw [List.all_append, Bool.and_eq_true, List.all_cons, List.all_nil, Bool.and_true, isDigit, Bool.and_eq_true,
        decide_eq_true_eq, decide_eq_true_eq] at digits
      obtain ⟨front, low, high⟩ := digits
      have below := ih front
      rw [List.length_append, List.length_singleton, digitsValue_concat, pow_succ]
      omega

end

/-- An instant of the years 1 to 9999, without leap seconds. -/
structure DateFields.Real (fields : DateFields) : Prop where
  year : 1 ≤ fields.year ∧ fields.year ≤ 9999
  month : 1 ≤ fields.month ∧ fields.month ≤ 12
  day : 1 ≤ fields.day ∧ fields.day ≤ Calendar.daysInMonth fields.year fields.month
  hour : fields.hour ≤ 23
  minute : fields.minute ≤ 59
  second : fields.second ≤ 59

/-- `YYYY-MM-DDTHH:MM:SS.mmmZ` -/
def rfc3339 (fields : DateFields) (ms : Nat) : Str :=
  padded 4 fields.year ++ 45 :: padded 2 fields.month ++ 45 :: padded 2 fields.day ++ 84 :: padded 2 fields.hour ++
    58 :: padded 2 fields.minute ++ 58 :: padded 2 fields.second ++ 46 :: padded 3 ms ++ [90]

/-- The text is that of an instant. -/
def IsInstant (timestamp : Str) : Prop := ∃ fields ms, fields.Real ∧ ms < 1000 ∧ timestamp = rfc3339 fields ms

section
variable {timestamp : Str} {fields : DateFields} {ms : Nat}

/-- A text of the form is that of its fields, real or not. -/
theorem eq_rfc3339_of_shaped (shaped : timestampShaped timestamp = true) :
    ∃ ms, ms < 1000 ∧ timestamp = rfc3339 (dateFields timestamp) ms := by
  rw [timestampShaped, Bool.and_eq_true, decide_eq_true_eq] at shaped
  obtain ⟨length, each⟩ := shaped
  match timestamp, length with
  | [a, b, c, d, e, f, g, h, i, j, k, l, m, n, o, p, q, r, s, t, u, v, w, x], _ =>
      simp [ofString, ofChar] at each
      obtain ⟨a', b', c', d', rfl, f', g', rfl, i', j', rfl, l', m', rfl, o', p', rfl, r', s', rfl, u', v', w', rfl⟩ :=
        each
      have year : [a, b, c, d].all isDigit = true := by simp [a', b', c', d']
      have fraction : [u, v, w].all isDigit = true := by simp [u', v', w']
      have pair : ∀ first second, isDigit first = true → isDigit second = true →
          padded 2 (Jcs.digitsValue [first, second]) = [first, second] := fun first second high low =>
        have both : [first, second].all isDigit = true := by simp [high, low]
        padded_digitsValue both
      have thousandths : Jcs.digitsValue [u, v, w] < 10 ^ 3 := digitsValue_lt fraction
      refine ⟨Jcs.digitsValue [u, v, w], lt_of_lt_of_eq thousandths (by norm_num), ?_⟩
      change _ = padded 4 (Jcs.digitsValue [a, b, c, d]) ++ 45 :: padded 2 (Jcs.digitsValue [f, g]) ++
        45 :: padded 2 (Jcs.digitsValue [i, j]) ++ 84 :: padded 2 (Jcs.digitsValue [l, m]) ++
        58 :: padded 2 (Jcs.digitsValue [o, p]) ++ 58 :: padded 2 (Jcs.digitsValue [r, s]) ++
        46 :: padded 3 (Jcs.digitsValue [u, v, w]) ++ [90]
      have whole : padded 4 (Jcs.digitsValue [a, b, c, d]) = [a, b, c, d] := padded_digitsValue year
      have part : padded 3 (Jcs.digitsValue [u, v, w]) = [u, v, w] := padded_digitsValue fraction
      rw [whole, pair f g f' g', pair i j i' j', pair l m l' m', pair o p o' p',
        pair r s r' s', part]
      rfl

theorem timestampShaped_rfc3339 (fields : DateFields) (ms : Nat) : timestampShaped (rfc3339 fields ms) = true := by
  have digit : ∀ n : Nat, isDigit (Fin.ofNat 0x110000 (48 + n % 10)) = true := fun n => by
    simpa [padded] using isDigit_padded 1 n
  simp [timestampShaped, rfc3339, padded, ofString, ofChar, digit, -Fin.ofNat_eq_cast]

theorem dateFields_rfc3339 (real : fields.Real) : dateFields (rfc3339 fields ms) = fields := by
  obtain ⟨year, month, day, hour, minute, second⟩ := real
  have days := Calendar.daysInMonth_le fields.year fields.month
  obtain ⟨y, mo, d, h, mi, s⟩ := fields
  have four : ∀ n, n < 10000 → Jcs.digitsValue (padded 4 n) = n := fun n small => digitsValue_padded small
  have two : ∀ n, n < 100 → Jcs.digitsValue (padded 2 n) = n := fun n small => digitsValue_padded small
  change DateFields.mk (Jcs.digitsValue (padded 4 y)) (Jcs.digitsValue (padded 2 mo)) (Jcs.digitsValue (padded 2 d))
    (Jcs.digitsValue (padded 2 h)) (Jcs.digitsValue (padded 2 mi)) (Jcs.digitsValue (padded 2 s)) = _
  dsimp only at year month day hour minute second days
  rw [four y (by omega), two mo (by omega), two d (by omega), two h (by omega), two mi (by omega), two s (by omega)]

/-- `strptime` takes the fields of an instant, and no others. -/
theorem strptime_isOk_iff :
    (∃ fields, strptime timestamp = .ok fields) ↔ (dateFields timestamp).Real := by
  have days := Calendar.daysInMonth_le (dateFields timestamp).year (dateFields timestamp).month
  generalize read : dateFields timestamp = fields at days ⊢
  have matched : fields.matched = true ↔ (1 ≤ fields.month ∧ fields.month ≤ 12) ∧ (1 ≤ fields.day ∧ fields.day ≤ 31) ∧
      fields.hour ≤ 23 ∧ fields.minute ≤ 59 ∧ fields.second ≤ 61 := by
    simp [DateFields.matched, and_assoc]
  have isDate : fields.isDate = true ↔ (1 ≤ fields.year ∧ fields.year ≤ 9999) ∧ (1 ≤ fields.month ∧ fields.month ≤ 12) ∧
      1 ≤ fields.day ∧ fields.day ≤ Calendar.daysInMonth fields.year fields.month := by
    simp [DateFields.isDate, and_assoc]
  rw [strptime, read]
  constructor
  · rintro ⟨found, taken⟩
    split_ifs at taken with unmatched undated leap
    rw [Bool.not_eq_true', Bool.not_eq_false] at unmatched undated
    obtain ⟨month, _, hour, minute, _⟩ := matched.mp unmatched
    obtain ⟨year, _, day⟩ := isDate.mp undated
    exact ⟨year, month, day, hour, minute, by omega⟩
  · rintro ⟨year, month, day, hour, minute, second⟩
    have isMatched := matched.mpr ⟨month, ⟨day.1, day.2.trans days⟩, hour, minute, by omega⟩
    refine ⟨fields, ?_⟩
    rw [isMatched, isDate.mpr ⟨year, month, day⟩, if_neg (by decide), if_neg (by decide), if_neg (by omega)]

theorem isInstant_iff : IsInstant timestamp ↔
    timestampShaped timestamp = true ∧ ∃ fields, strptime timestamp = .ok fields := by
  constructor
  · rintro ⟨fields, ms, real, small, rfl⟩
    have read : dateFields (rfc3339 fields ms) = fields := dateFields_rfc3339 real
    exact ⟨timestampShaped_rfc3339 fields ms, strptime_isOk_iff.mpr (read.symm ▸ real)⟩
  · rintro ⟨shaped, taken⟩
    obtain ⟨ms, small, same⟩ := eq_rfc3339_of_shaped shaped
    exact ⟨dateFields timestamp, ms, strptime_isOk_iff.mp taken, small, same⟩

/-- A text of digits alone has no dash in it. -/
theorem not_epochMsShaped (shaped : timestampShaped timestamp = true) : epochMsShaped timestamp = false := by
  simp only [timestampShaped, Bool.and_eq_true, decide_eq_true_eq] at shaped
  obtain ⟨length, each⟩ := shaped
  match timestamp, length with
  | a :: b :: c :: d :: e :: rest, length =>
      rw [List.all_eq_true] at each
      have dash : e = 45 := by simpa using each (e, 45) (by simp [ofString, ofChar])
      subst dash
      simp [epochMsShaped, isDigit]

/-- `strptime` raises `ValueError`, and nothing else. -/
theorem strptime_error {raised : PyError} (failed : strptime timestamp = .error raised) : raised = .valueError := by
  simp only [strptime] at failed
  split_ifs at failed <;> cases failed <;> rfl

theorem asDate_isOk (ms : Nat) : ∃ date, asDate ms = .ok date := by
  unfold asDate fromTimestamp
  split_ifs <;> exact ⟨_, rfl⟩

theorem validateTimestamp_of_not_epochMs {allowEpochMs : Bool}
    (plain : (allowEpochMs && epochMsShaped timestamp) = false) :
    (validateTimestamp allowEpochMs timestamp = .ok none ↔ IsInstant timestamp) ∧
      (¬ IsInstant timestamp → ∃ refused, validateTimestamp allowEpochMs timestamp = .ok (some refused)) := by
  rw [isInstant_iff, validateTimestamp, plain, if_neg (by decide)]
  cases shaped : timestampShaped timestamp with
  | false =>
      refine ⟨iff_of_false (fun accepted => ?_) (fun instant => ?_), fun _ => ⟨_, rfl⟩⟩
      · cases accepted
      · cases instant.1
  | true =>
      rw [Bool.not_true, if_neg (by decide)]
      cases taken : strptime timestamp with
      | ok fields => exact ⟨iff_of_true rfl ⟨rfl, fields, rfl⟩, fun none => absurd ⟨rfl, fields, rfl⟩ none⟩
      | error raised =>
          cases strptime_error taken
          refine ⟨iff_of_false (fun accepted => ?_) (fun instant => ?_), fun _ => ⟨_, rfl⟩⟩
          · cases accepted
          · obtain ⟨_, fields, ⟨⟩⟩ := instant

end

section
variable {agentId actionType scope timestamp : Str} {allowEpochMs : Bool}

/-- The text is a number of milliseconds within the window. -/
def IsEpochMs (timestamp : Str) : Prop :=
  epochMsShaped timestamp = true ∧ epochMsMin ≤ Jcs.digitsValue timestamp ∧ Jcs.digitsValue timestamp ≤ epochMsMax

theorem validateTimestamp_of_epochMs (shaped : epochMsShaped timestamp = true) (short : timestamp.length ≤ 4300) :
    (validateTimestamp true timestamp = .ok none ↔ IsEpochMs timestamp) ∧
      (¬ IsEpochMs timestamp → ∃ refused, validateTimestamp true timestamp = .ok (some refused)) := by
  have read : fromPy (intOfDigits timestamp) = .ok (Jcs.digitsValue timestamp) := by
    rw [intOfDigits, if_pos short]
    rfl
  have checked : validateTimestamp true timestamp = (if epochMsMin ≤ Jcs.digitsValue timestamp &&
      Jcs.digitsValue timestamp ≤ epochMsMax then return none
    else do
      let _ ← asDate (Jcs.digitsValue timestamp)
      return some ⟨"timestamp", "all-digit (epoch-ms) but outside the plausible range"⟩) := by
    rw [validateTimestamp, shaped, if_pos rfl, read]
    rfl
  obtain ⟨date, shown⟩ := asDate_isOk (Jcs.digitsValue timestamp)
  rw [checked, shown, IsEpochMs, shaped]
  by_cases within : epochMsMin ≤ Jcs.digitsValue timestamp ∧ Jcs.digitsValue timestamp ≤ epochMsMax
  · rw [if_pos (by simpa using within)]
    exact ⟨iff_of_true rfl ⟨rfl, within⟩, fun none => absurd ⟨rfl, within⟩ none⟩
  · rw [if_neg (by simpa using within)]
    refine ⟨iff_of_false (fun accepted => ?_) (fun epoch => within epoch.2), fun _ => ⟨_, rfl⟩⟩
    cases accepted

/-- The three fields before the timestamp are in the profile's domain. -/
structure FieldsInDomain (agentId actionType scope : Str) : Prop where
  asciiAgent : agentId.all (fun c => c.val < 0x80) = true
  asciiAction : actionType.all (fun c => c.val < 0x80) = true
  asciiScope : scope.all (fun c => c.val < 0x80) = true
  named : scope ≠ []

/-- Four strings of the profile's domain. -/
structure InDomain (agentId actionType scope timestamp : Str) (allowEpochMs : Bool) : Prop
    extends FieldsInDomain agentId actionType scope where
  instant : IsInstant timestamp ∨ allowEpochMs = true ∧ IsEpochMs timestamp

/-- The validator returns on its domain, and raises its own exception everywhere else. -/
structure AcceptsExactly (agentId actionType scope timestamp : Str) (allowEpochMs : Bool) : Prop where
  accepts : validateDomain (.str agentId) (.str actionType) (.str scope) timestamp allowEpochMs = .ok none ↔
    InDomain agentId actionType scope timestamp allowEpochMs
  refuses : ¬ InDomain agentId actionType scope timestamp allowEpochMs →
    ∃ refused, validateDomain (.str agentId) (.str actionType) (.str scope) timestamp allowEpochMs = .ok (some refused)

theorem validateDomain_of_fields (fields : FieldsInDomain agentId actionType scope) :
    validateDomain (.str agentId) (.str actionType) (.str scope) timestamp allowEpochMs =
      validateTimestamp allowEpochMs timestamp := by
  obtain ⟨agent, action, extent, named⟩ := fields
  simp [validateDomain, isAscii, Json.truthy, bind, Except.bind, agent, action, extent, named]

theorem validateDomain_of_not_fields (outside : ¬ FieldsInDomain agentId actionType scope) :
    ∃ refused, validateDomain (.str agentId) (.str actionType) (.str scope) timestamp allowEpochMs =
      .ok (some refused) := by
  unfold validateDomain isAscii Json.truthy
  simp only [bind, Except.bind, pure, Except.pure]
  split_ifs with agent action extent named
  all_goals first | exact ⟨_, rfl⟩ | skip
  simp only [Bool.not_eq_true', Bool.not_eq_false, decide_eq_true_eq] at agent action extent named
  exact absurd ⟨agent, action, extent, named⟩ outside

theorem validateDomain_of_long (fields : FieldsInDomain agentId actionType scope)
    (shaped : epochMsShaped timestamp = true) (long : 4300 < timestamp.length) :
    validateDomain (.str agentId) (.str actionType) (.str scope) timestamp true = .error (.python .valueError) := by
  rw [validateDomain_of_fields fields, validateTimestamp, shaped, if_pos rfl, intOfDigits, if_neg (not_le.mpr long)]
  rfl

theorem not_acceptsExactly_of_raised {raised : Raised} (failed : validateDomain (.str agentId) (.str actionType)
    (.str scope) timestamp allowEpochMs = .error raised) :
    ¬ AcceptsExactly agentId actionType scope timestamp allowEpochMs := by
  rintro ⟨accepts, refuses⟩
  rw [failed] at accepts refuses
  by_cases inside : InDomain agentId actionType scope timestamp allowEpochMs
  · cases accepts.mpr inside
  · obtain ⟨_, ⟨⟩⟩ := refuses inside

end

/-- The validator accepts its language and fails in one way, unless it is to read a number
of more digits than `int` takes. -/
theorem acceptsExactly_iff (agentId actionType scope timestamp : Str) (allowEpochMs : Bool) :
    AcceptsExactly agentId actionType scope timestamp allowEpochMs ↔
      ¬ (allowEpochMs = true ∧ FieldsInDomain agentId actionType scope ∧ epochMsShaped timestamp = true ∧
        4300 < timestamp.length) := by
  by_cases fields : FieldsInDomain agentId actionType scope
  · have inDomain : InDomain agentId actionType scope timestamp allowEpochMs ↔
        IsInstant timestamp ∨ allowEpochMs = true ∧ IsEpochMs timestamp :=
      ⟨fun inside => inside.instant, fun instant => ⟨fields, instant⟩⟩
    cases epoch : (allowEpochMs && epochMsShaped timestamp) with
    | false =>
        have plain : ¬ (allowEpochMs = true ∧ epochMsShaped timestamp = true) := by simpa using epoch
        have domain : InDomain agentId actionType scope timestamp allowEpochMs ↔ IsInstant timestamp :=
          inDomain.trans (or_iff_left fun ⟨allowed, shaped, _⟩ => plain ⟨allowed, shaped⟩)
        obtain ⟨accepts, refuses⟩ := validateTimestamp_of_not_epochMs epoch
        refine iff_of_true ⟨?_, ?_⟩ fun ⟨allowed, _, shaped, _⟩ => plain ⟨allowed, shaped⟩
        · rw [validateDomain_of_fields fields, accepts, domain]
        · rw [validateDomain_of_fields fields, domain]
          exact refuses
    | true =>
        obtain ⟨rfl, shaped⟩ := Bool.and_eq_true_iff.mp epoch
        have digits : ¬ IsInstant timestamp := by
          rw [isInstant_iff]
          rintro ⟨dashed, _⟩
          rw [not_epochMsShaped dashed] at shaped
          cases shaped
        have domain : InDomain agentId actionType scope timestamp true ↔ IsEpochMs timestamp :=
          inDomain.trans ((or_iff_right digits).trans (and_iff_right rfl))
        by_cases short : timestamp.length ≤ 4300
        · obtain ⟨accepts, refuses⟩ := validateTimestamp_of_epochMs shaped short
          refine iff_of_true ⟨?_, ?_⟩ fun ⟨_, _, _, long⟩ => by omega
          · rw [validateDomain_of_fields fields, accepts, domain]
          · rw [validateDomain_of_fields fields, domain]
            exact refuses
        · have raised := validateDomain_of_long fields shaped (not_le.mp short)
          exact iff_of_false (not_acceptsExactly_of_raised raised) fun unread =>
            unread ⟨rfl, fields, shaped, not_le.mp short⟩
  · obtain ⟨refused, raised⟩ := validateDomain_of_not_fields fields
    have outside : ¬ InDomain agentId actionType scope timestamp allowEpochMs := fun inside =>
      fields inside.toFieldsInDomain
    refine iff_of_true ⟨?_, fun _ => ⟨refused, raised⟩⟩ fun ⟨_, held, _⟩ => fields held
    rw [raised]
    exact iff_of_false (fun accepted => by cases accepted) outside

/-- `int` raises on 4301 digits. -/
theorem not_acceptsExactly_long :
    validateDomain (.str (ofString "a")) (.str (ofString "t")) (.str (ofString "s")) (List.replicate 4301 49) true =
        .error (.python .valueError) ∧
      ¬ AcceptsExactly (ofString "a") (ofString "t") (ofString "s") (List.replicate 4301 49) true := by
  have fields : FieldsInDomain (ofString "a") (ofString "t") (ofString "s") := ⟨rfl, rfl, rfl, List.cons_ne_nil _ _⟩
  have shaped : epochMsShaped (List.replicate 4301 49) = true := by
    simp only [epochMsShaped, List.all_replicate]
    rfl
  have raised := validateDomain_of_long fields shaped (by rw [List.length_replicate]; decide)
  exact ⟨raised, not_acceptsExactly_of_raised raised⟩

end Argentum.Mycelium
