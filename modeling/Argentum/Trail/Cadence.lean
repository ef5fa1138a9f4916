import Argentum.Trail.Seal
import Argentum.Trail.Verify
import Argentum.Core.Gaps
import Argentum.Core.Rounding

/-! `verify_checkpoint_cadence`: the bound a consumer declares on the gaps between the
checkpoints of one agent. A gap is measured in seconds as a double, which is exact to
the microsecond below 2 ^ 34 seconds and no longer is above. -/
namespace Argentum.Trail
open Text Jcs Gaps

inductive CadenceReason where
  | notAList
  | agentMixed
  | periodEnd
  deriving DecidableEq

inductive CadenceVerdict where
  | ok
  | malformed
  | periodExceedsDeclaredMaximum
  deriving DecidableEq

/-- The dictionary the check returns. -/
inductive Cadence where
  | ok
  | malformed (reason : CadenceReason)
  | periodExceedsDeclaredMaximum (prevPeriodEnd periodEnd : Json) (gapS : ℚ) (declaredMaxPeriodS : Json)

def Cadence.verdict : Cadence → CadenceVerdict
  | .ok => .ok
  | .malformed _ => .malformed
  | .periodExceedsDeclaredMaximum .. => .periodExceedsDeclaredMaximum

/-- A number that is not a boolean and not `<= 0`, which NaN is not either. -/
def isPositiveNumber : Json → Bool
  | .int n => decide (0 < n)
  | .float x => x.number?.all fun limit => decide (Number.ofRat 0 < limit)
  | _ => false

/-- The set `{c.get("agent_id") if isinstance(c, dict) else None for c in checkpoints}` has one member. -/
def oneAgent (checkpoints : List Json) : Except PyError Bool :=
  match checkpoints.map fun c => c.get Key.agentId with
  | [] => .ok true
  | first :: rest =>
      if !(first :: rest).all Json.hashable then .error .typeError
      else .ok (rest.all fun other => first.same other)

/-- A checkpoint's `period_end` and what it parses to. -/
structure Stamped where
  periodEnd : Json
  time : DateTime

def stamp (fromisoformat : FromIsoFormat) (c : Json) : Except PyError Stamped := do
  let periodEnd ← c.item Key.periodEnd
  return { periodEnd, time := ← parseTs fromisoformat periodEnd }

/-- `sorted(checkpoints, key=lambda c: _parse_ts(c["period_end"]))`: no order relates a time
with an offset to one without. -/
def sortedByEnd (fromisoformat : FromIsoFormat) (checkpoints : List Json) : Except PyError (List Stamped) := do
  let stamped ← mapOk (stamp fromisoformat) checkpoints
  if stamped.all fun s => stamped.all fun t => s.time.aware = t.time.aware then
    return stamped.insertionSort fun s t => s.time.micros ≤ t.time.micros
  else .error .typeError

/-- The first neighbours whose gap exceeds the bound. -/
def scanGaps (declaredMaxPeriodS : Json) : List Stamped → Except PyError Cadence
  | [] => .ok .ok
  | [_] => .ok .ok
  | prev :: cur :: rest => do
      let gap := totalSeconds (cur.time.micros - prev.time.micros)
      if ← exceeds gap declaredMaxPeriodS then
        return .periodExceedsDeclaredMaximum prev.periodEnd cur.periodEnd gap declaredMaxPeriodS
      else scanGaps declaredMaxPeriodS (cur :: rest)

def verifyCheckpointCadence (fromisoformat : FromIsoFormat) (checkpoints declaredMaxPeriodS : Json) :
    Except PyError Cadence :=
  if !isPositiveNumber declaredMaxPeriodS then .error .valueError
  else
    match checkpoints with
    | .list items =>
        if items.length < 2 then .ok .ok
        else do
          if !(← oneAgent items) then return .malformed .agentMixed
          match sortedByEnd fromisoformat items with
          | .ok ordered => scanGaps declaredMaxPeriodS ordered
          | .error .keyError => return .malformed .periodEnd
          | .error .typeError => return .malformed .periodEnd
          | .error .valueError => return .malformed .periodEnd
          | .error error => .error error
    | _ => .ok (.malformed .notAList)

section
variable {micros other bound : Int}

theorem totalSeconds_of_nonneg (positive : 0 ≤ micros) :
    totalSeconds micros = nearestDouble ((micros : ℚ) / 1000000) := by
  rw [totalSeconds, if_neg positive.not_gt]
  rw [Nat.cast_natAbs, abs_of_nonneg positive]

/-- A longer gap does not measure shorter. -/
theorem totalSeconds_mono (positive : 0 ≤ micros) (less : micros ≤ other) :
    totalSeconds micros ≤ totalSeconds other := by
  rw [totalSeconds_of_nonneg positive, totalSeconds_of_nonneg (positive.trans less)]
  have scaled : (micros : ℚ) / 1000000 ≤ (other : ℚ) / 1000000 := by
    have cast : (micros : ℚ) ≤ other := Int.cast_le.mpr less
    linarith
  exact nearestDouble_mono (div_nonneg (Int.cast_nonneg positive) (by norm_num)) scaled

theorem totalSeconds_zero : totalSeconds 0 = 0 := by
  rw [totalSeconds_of_nonneg le_rfl, Int.cast_zero, zero_div, nearestDouble_zero]

/-- Half a unit of the last place is less than a microsecond below 2 ^ 34 seconds. -/
theorem nearestDouble_seconds_le_iff (positive : 0 < micros) (short : micros < 2 ^ 34 * 1000000) :
    nearestDouble ((micros : ℚ) / 1000000) ≤ bound ↔ micros ≤ bound * 1000000 := by
  set seconds : ℚ := (micros : ℚ) / 1000000 with split
  have seconds_short : seconds < (2 : ℚ) ^ (34 : Int) := by
    have cast : (micros : ℚ) < ((2 ^ 34 * 1000000 : Int) : ℚ) := Int.cast_lt.mpr short
    rw [split, div_lt_iff₀ (by norm_num)]
    norm_num at cast ⊢
    exact cast
  have scale : doubleScale seconds ≤ -19 :=
    doubleScale_le (div_pos (Int.cast_pos.mpr positive) (by norm_num)) seconds_short (by norm_num)
  constructor
  · intro rounded
    by_contra! long
    have above : (bound : ℚ) + 1 / 1000000 ≤ seconds := by
      have cast : ((bound * 1000000 + 1 : Int) : ℚ) ≤ micros := Int.cast_le.mpr long
      push_cast at cast
      rw [split]
      linarith
    have unit : (2 : ℚ) ^ doubleScale seconds ≤ (2 : ℚ) ^ (-19 : Int) := zpow_le_zpow_right₀ (by norm_num) scale
    have near := (nearestDouble_near seconds).1
    norm_num at unit
    linarith
  · intro within
    have cast : (micros : ℚ) ≤ ((bound * 1000000 : Int) : ℚ) := Int.cast_le.mpr within
    push_cast at cast
    refine nearestDouble_le_intCast (by omega) ?_
    rw [split]
    linarith

theorem totalSeconds_le_iff (positive : 0 < micros) (short : micros < 2 ^ 34 * 1000000) :
    totalSeconds micros ≤ bound ↔ micros ≤ bound * 1000000 := by
  rw [totalSeconds_of_nonneg positive.le, nearestDouble_seconds_le_iff positive short]

end

/-- A checkpoint object of the agent whose `period_end` parses to this UTC instant. -/
structure EndsAt (fromisoformat : FromIsoFormat) (agentId : Str) (c : Json) (instant : Int) : Prop where
  agent : c.get Key.agentId = .str agentId
  ends : parseTs fromisoformat (c.get Key.periodEnd) = .ok ⟨instant, true⟩

/-- The gap between two instants is above the bound. -/
def Exceeds (bound : Int) (a b : Int) : Prop := (bound : ℚ) < totalSeconds (b - a)

instance (bound : Int) : DecidableRel (Exceeds bound) := fun _ _ => Rat.instDecidableLt _ _

section
variable {fromisoformat : FromIsoFormat} {agentId : Str} {checkpoints others items : List Json} {instants : List Int}
  {c d : Json} {bound t a b : Int}

theorem not_exceeds_self (positive : 0 < bound) (a : Int) : ¬ Exceeds bound a a := by
  rw [Exceeds, sub_self, totalSeconds_zero]
  exact_mod_cast positive.not_gt

theorem Exceeds.mono {a b c d : Int} (above : a ≤ c) (below : d ≤ b) (less : c < d) (apart : Exceeds bound c d) :
    Exceeds bound a b :=
  apart.trans_le (totalSeconds_mono (by omega) (by omega))

theorem EndsAt.stamp (ends : EndsAt fromisoformat agentId c t) :
    stamp fromisoformat c = .ok ⟨c.get Key.periodEnd, ⟨t, true⟩⟩ := by
  obtain ⟨_, parsed⟩ := ends
  have item : c.item Key.periodEnd = .ok (c.get Key.periodEnd) := by
    cases text : c.get Key.periodEnd with
    | str s =>
        obtain ⟨items, rfl, found⟩ := Json.get_eq_str text
        rw [Json.item, found]
    | null | bool | int | float | list | dict =>
        rw [text] at parsed
        contradiction
  simp only [Trail.stamp, item, parsed, bind, Except.bind, pure, Except.pure]

theorem oneAgent_of_endsAt (named : ∀ c ∈ checkpoints, c.get Key.agentId = .str agentId) :
    oneAgent checkpoints = .ok true := by
  unfold oneAgent
  have each : ∀ id ∈ checkpoints.map fun c => c.get Key.agentId, id = .str agentId := by
    intro id member
    obtain ⟨c, inside, rfl⟩ := List.mem_map.mp member
    exact named c inside
  split
  · rfl
  rename_i first rest shown
  rw [shown] at each
  have hashes : (first :: rest).all Json.hashable = true := List.all_eq_true.mpr fun id member => by
    rw [each id member]
    rfl
  have alike : (rest.all fun other => first.same other) = true := List.all_eq_true.mpr fun id member => by
    rw [each id (List.mem_cons_of_mem _ member), each first List.mem_cons_self]
    simp [Json.same]
  rw [hashes, alike]
  rfl

theorem scanGaps_eq (ordered : List Stamped) : scanGaps (.int bound) ordered =
    match firstGap (fun s => s.time.micros) (Exceeds bound) ordered with
    | some (prev, cur) => .ok (.periodExceedsDeclaredMaximum prev.periodEnd cur.periodEnd
        (totalSeconds (cur.time.micros - prev.time.micros)) (.int bound))
    | none => .ok .ok := by
  induction ordered with
  | nil => rfl
  | cons prev rest ih =>
      cases rest with
      | nil => rfl
      | cons cur rest =>
          rw [scanGaps, firstGap]
          have compared : exceeds (totalSeconds (cur.time.micros - prev.time.micros)) (.int bound) =
              .ok (decide (Exceeds bound prev.time.micros cur.time.micros)) := by
            simp [exceeds, Json.number?, Number.ofRat, Exceeds]
          by_cases apart : Exceeds bound prev.time.micros cur.time.micros
          · simp [compared, apart, bind, Except.bind, pure, Except.pure]
          · simp [compared, apart, bind, Except.bind, ih]

/-- The sort succeeds, on the instants in order. -/
theorem sortedByEnd_ok (stream : List.Forall₂ (EndsAt fromisoformat agentId) checkpoints instants) :
    ∃ ordered, sortedByEnd fromisoformat checkpoints = .ok ordered ∧
      ordered.Pairwise (fun s t => s.time.micros ≤ t.time.micros) ∧
      (∀ t, t ∈ ordered.map (fun s => s.time.micros) ↔ t ∈ instants) ∧
      ∀ s ∈ ordered, ∃ c ∈ checkpoints, EndsAt fromisoformat agentId c s.time.micros ∧
        s.periodEnd = c.get Key.periodEnd := by
  obtain ⟨stamped, mapped, times, each⟩ : ∃ stamped, mapOk (Trail.stamp fromisoformat) checkpoints = .ok stamped ∧
      stamped.map (fun s => s.time.micros) = instants ∧ ∀ s ∈ stamped, s.time.aware = true ∧
        ∃ c ∈ checkpoints, EndsAt fromisoformat agentId c s.time.micros ∧ s.periodEnd = c.get Key.periodEnd := by
    induction stream with
    | nil => exact ⟨[], rfl, rfl, by simp⟩
    | @cons c t checkpoints instants ends _ ih =>
        obtain ⟨stamped, mapped, rfl, each⟩ := ih
        refine ⟨⟨c.get Key.periodEnd, ⟨t, true⟩⟩ :: stamped, ?_, rfl,
          List.forall_mem_cons.mpr ⟨⟨rfl, c, List.mem_cons_self, ends, rfl⟩, fun s member => ?_⟩⟩
        · rw [mapOk, ends.stamp, mapped]
          rfl
        · obtain ⟨aware, c, inside, rest⟩ := each s member
          exact ⟨aware, c, List.mem_cons_of_mem _ inside, rest⟩
  have alike : (stamped.all fun s => stamped.all fun t => s.time.aware = t.time.aware) = true := by
    simp only [List.all_eq_true, decide_eq_true_eq]
    intro s first t second
    rw [(each s first).1, (each t second).1]
  let byEnd : Stamped → Stamped → Prop := fun s t => s.time.micros ≤ t.time.micros
  have total : Std.Total byEnd := ⟨fun s t => le_total s.time.micros t.time.micros⟩
  have trans : IsTrans Stamped byEnd := ⟨fun _ _ _ => le_trans⟩
  refine ⟨stamped.insertionSort byEnd, ?_, List.pairwise_insertionSort byEnd stamped, fun t => ?_, fun s member => ?_⟩
  · rw [sortedByEnd, mapped]
    simp only [bind, Except.bind, alike, if_true]
    rfl
  · simp only [← times, List.mem_map, List.mem_insertionSort]
  · exact (each s ((List.mem_insertionSort _).mp member)).2

/-- The answer on a stream of one agent: fine where no gap exceeds the bound, else the earliest gap that does. -/
theorem verifyCheckpointCadence_cases (stream : List.Forall₂ (EndsAt fromisoformat agentId) checkpoints instants)
    (two : 2 ≤ checkpoints.length) (positive : 0 < bound) :
    (verifyCheckpointCadence fromisoformat (.list checkpoints) (.int bound) = .ok .ok ∧
      ∀ a b, Adjacent instants a b → ¬ Exceeds bound a b) ∨
    ∃ a b, Earliest (Exceeds bound) instants a b ∧ ∃ prev ∈ checkpoints, ∃ cur ∈ checkpoints,
      EndsAt fromisoformat agentId prev a ∧ EndsAt fromisoformat agentId cur b ∧
      verifyCheckpointCadence fromisoformat (.list checkpoints) (.int bound) = .ok
        (.periodExceedsDeclaredMaximum (prev.get Key.periodEnd) (cur.get Key.periodEnd) (totalSeconds (b - a))
          (.int bound)) := by
  obtain ⟨ordered, sorted, increasing, times, origin⟩ := sortedByEnd_ok stream
  have named : ∀ c ∈ checkpoints, c.get Key.agentId = .str agentId :=
    ((List.forall₂_and_left _ _).mp (stream.imp fun _ _ ends => ⟨ends.agent, ends⟩)).1
  have ran : verifyCheckpointCadence fromisoformat (.list checkpoints) (.int bound) =
      scanGaps (.int bound) ordered := by
    simp [verifyCheckpointCadence, isPositiveNumber, positive, two.not_gt, oneAgent_of_endsAt named, sorted,
      bind, Except.bind]
  rw [ran, scanGaps_eq]
  cases found : firstGap (fun s => s.time.micros) (Exceeds bound) ordered with
  | none =>
      refine .inl ⟨rfl, fun a b adjacent => firstGap_eq_none increasing found ?_⟩
      exact adjacent.of_mem_iff fun t => (times t).symm
  | some gap =>
      obtain ⟨prev, cur⟩ := gap
      obtain ⟨prevMem, curMem, earliest⟩ := firstGap_eq_some (not_exceeds_self positive) increasing found
      obtain ⟨before, beforeMem, beforeEnds, beforeText⟩ := origin prev prevMem
      obtain ⟨after, afterMem, afterEnds, afterText⟩ := origin cur curMem
      refine .inr ⟨_, _, earliest.of_mem_iff times, before, beforeMem, after, afterMem, beforeEnds, afterEnds, ?_⟩
      simp only [beforeText, afterText]

/-- The check passes exactly the streams without a gap above the bound. -/
theorem verifyCheckpointCadence_ok_iff (stream : List.Forall₂ (EndsAt fromisoformat agentId) checkpoints instants)
    (two : 2 ≤ checkpoints.length) (positive : 0 < bound) :
    verifyCheckpointCadence fromisoformat (.list checkpoints) (.int bound) = .ok .ok ↔
      ∀ a b, Adjacent instants a b → ¬ Exceeds bound a b := by
  rcases verifyCheckpointCadence_cases stream two positive with
    ⟨fine, close⟩ | ⟨a, b, gap, prev, _, cur, _, _, _, reported⟩
  · exact ⟨fun _ => close, fun _ => fine⟩
  · constructor
    · intro fine
      rw [reported] at fine
      cases fine
    · intro close
      exact absurd gap.apart (close a b gap.adjacent)

/-- The same instants in another order have the same verdict. -/
theorem verdict_perm (stream : List.Forall₂ (EndsAt fromisoformat agentId) checkpoints instants)
    (two : 2 ≤ checkpoints.length) (positive : 0 < bound) (perm : others.Perm checkpoints) :
    (verifyCheckpointCadence fromisoformat (.list others) (.int bound)).map Cadence.verdict =
      (verifyCheckpointCadence fromisoformat (.list checkpoints) (.int bound)).map Cadence.verdict := by
  obtain ⟨instants', stream', permuted⟩ := List.perm_comp_forall₂ perm stream
  have two' : 2 ≤ others.length := perm.length_eq ▸ two
  have same := fun t => permuted.mem_iff (a := t)
  rcases verifyCheckpointCadence_cases stream two positive with
    ⟨fine, close⟩ | ⟨a, b, gap, _, _, _, _, _, _, reported⟩
  · have fine' := (verifyCheckpointCadence_ok_iff stream' two' positive).mpr fun a b adjacent =>
      close a b (adjacent.of_mem_iff same)
    rw [fine, fine']
  · rcases verifyCheckpointCadence_cases stream' two' positive with
      ⟨_, close'⟩ | ⟨_, _, _, _, _, _, _, _, _, reported'⟩
    · exact absurd gap.apart (close' a b (gap.adjacent.of_mem_iff fun t => (same t).symm))
    · rw [reported, reported']
      rfl

/-- A further checkpoint between two others breaks no stream that passes. -/
theorem verifyCheckpointCadence_insert (stream : List.Forall₂ (EndsAt fromisoformat agentId) checkpoints instants)
    (two : 2 ≤ checkpoints.length) (positive : 0 < bound) (ends : EndsAt fromisoformat agentId c t)
    (first : a ∈ instants) (second : b ∈ instants) (above : a ≤ t) (below : t ≤ b)
    (perm : others.Perm (c :: checkpoints))
    (fine : verifyCheckpointCadence fromisoformat (.list checkpoints) (.int bound) = .ok .ok) :
    verifyCheckpointCadence fromisoformat (.list others) (.int bound) = .ok .ok := by
  obtain ⟨instants', stream', permuted⟩ := List.perm_comp_forall₂ perm (List.Forall₂.cons ends stream)
  have two' : 2 ≤ others.length := by
    rw [perm.length_eq, List.length_cons]
    omega
  have close := (verifyCheckpointCadence_ok_iff stream two positive).mp fine
  refine (verifyCheckpointCadence_ok_iff stream' two' positive).mpr fun x y adjacent => ?_
  have inserted : Adjacent (t :: instants) x y := adjacent.of_mem_iff fun s => permuted.mem_iff
  exact not_wide_insert (fun _ _ _ _ above below less => Exceeds.mono above below less) first second above below
    close inserted

theorem hashable_cases {x : Json} (hashed : Json.hashable x = true) :
    x = .null ∨ (∃ s, x = .str s) ∨ x = .float .nan ∨ ∃ q, x.number? = some q := by
  cases x with
  | null => exact .inl rfl
  | str s => exact .inr (.inl ⟨s, rfl⟩)
  | bool | int => exact .inr (.inr (.inr ⟨_, rfl⟩))
  | float x =>
      cases x with
      | nan => exact .inr (.inr (.inl rfl))
      | inf | finite => exact .inr (.inr (.inr ⟨_, rfl⟩))
  | list | dict => contradiction

theorem same_number {x y : Json} {q : Number} (number : x.number? = some q) :
    x.same y = true ↔ y.number? = some q := by
  cases x with
  | bool | int =>
      simp only [Json.same, decide_eq_true_eq, number]
      exact eq_comm
  | float x =>
      cases x with
      | nan => contradiction
      | inf | finite =>
          simp only [Json.same, decide_eq_true_eq, number]
          exact eq_comm
  | null | str | list | dict => contradiction

theorem same_self {x : Json} (hashed : Json.hashable x = true) : x.same x = true := by
  rcases hashable_cases hashed with rfl | ⟨s, rfl⟩ | rfl | ⟨q, number⟩
  · rfl
  · simp [Json.same]
  · rfl
  · exact (same_number number).mpr number

/-- Two members of a set that equal a third are equal. -/
theorem same_of_same {x y z : Json} (hashed : Json.hashable x = true) (first : x.same y = true) (second : x.same z = true) :
    y.same z = true := by
  rcases hashable_cases hashed with rfl | ⟨s, rfl⟩ | rfl | ⟨q, number⟩
  · cases y <;> cases z <;> simp_all [Json.same]
  · cases y <;> cases z <;> simp_all [Json.same]
  · have nan : ∀ w : Json, (Json.float .nan).same w = true → w = .float .nan := by
      intro w same
      unfold Json.same at same
      split at same
      · rfl
      · contradiction
    rw [nan y first, nan z second]
    rfl
  · exact (same_number ((same_number number).mp first)).mpr ((same_number number).mp second)

theorem oneAgent_of_mixed (first : c ∈ items) (second : d ∈ items)
    (differ : (c.get Key.agentId).same (d.get Key.agentId) = false) :
    oneAgent items = if items.all fun c => (c.get Key.agentId).hashable then .ok false else .error .typeError := by
  cases items with
  | nil => contradiction
  | cons item rest =>
      have hashes : ((item :: rest).map fun c => c.get Key.agentId).all Json.hashable =
          (item :: rest).all fun c => (c.get Key.agentId).hashable := List.all_map
      unfold oneAgent
      rw [List.map_cons] at hashes ⊢
      simp only [hashes]
      by_cases all : ((item :: rest).all fun c => (c.get Key.agentId).hashable) = true
      on_goal 2 => simp only [all, Bool.not_false, if_true, Bool.false_eq_true, if_false]
      have hashed : (item.get Key.agentId).hashable = true := List.all_eq_true.mp all item List.mem_cons_self
      have mixed : ((rest.map fun c => c.get Key.agentId).all fun other =>
          (item.get Key.agentId).same other) = false := by
        by_contra alike
        rw [Bool.not_eq_false, List.all_map, List.all_eq_true] at alike
        have each : ∀ x ∈ item :: rest, (item.get Key.agentId).same (x.get Key.agentId) = true :=
          List.forall_mem_cons.mpr ⟨same_self hashed, alike⟩
        have same := same_of_same hashed (each c first) (each d second)
        rw [differ] at same
        contradiction
      simp only [all, mixed, Bool.not_true, Bool.false_eq_true, if_false, if_true]

/-- Two agent ids in a list: it is never fine, and malformed where all ids hash. -/
theorem verifyCheckpointCadence_mixed (positive : 0 < bound) (two : 2 ≤ items.length) (first : c ∈ items)
    (second : d ∈ items) (differ : (c.get Key.agentId).same (d.get Key.agentId) = false) :
    verifyCheckpointCadence fromisoformat (.list items) (.int bound) =
      if items.all fun c => (c.get Key.agentId).hashable then .ok (.malformed .agentMixed)
      else .error .typeError := by
  have ids := oneAgent_of_mixed first second differ
  unfold verifyCheckpointCadence
  by_cases all : (items.all fun c => (c.get Key.agentId).hashable) = true
  · rw [if_pos all] at ids ⊢
    simp [isPositiveNumber, positive, two.not_gt, ids, bind, Except.bind, pure, Except.pure]
  · rw [if_neg all] at ids ⊢
    simp [isPositiveNumber, positive, two.not_gt, ids, bind, Except.bind]

theorem cadence (stream : List.Forall₂ (EndsAt fromisoformat agentId) checkpoints instants)
    (two : 2 ≤ checkpoints.length) (positive : 0 < bound) :
    let check := fun checkpoints => verifyCheckpointCadence fromisoformat (.list checkpoints) (.int bound)
    (check checkpoints = .ok .ok ↔ ∀ a b, Adjacent instants a b → totalSeconds (b - a) ≤ bound) ∧
    (check checkpoints ≠ .ok .ok →
      ∃ a b, Earliest (fun a b => (bound : ℚ) < totalSeconds (b - a)) instants a b ∧
        ∃ prev ∈ checkpoints, ∃ cur ∈ checkpoints,
          EndsAt fromisoformat agentId prev a ∧ EndsAt fromisoformat agentId cur b ∧
          check checkpoints = .ok (.periodExceedsDeclaredMaximum (prev.get Key.periodEnd) (cur.get Key.periodEnd)
            (totalSeconds (b - a)) (.int bound))) ∧
    (∀ a b, Adjacent instants a b → b - a < 2 ^ 34 * 1000000 →
      (totalSeconds (b - a) ≤ bound ↔ b - a ≤ bound * 1000000)) ∧
    (∀ others, others.Perm checkpoints →
      (check others).map Cadence.verdict = (check checkpoints).map Cadence.verdict) ∧
    (∀ c t, EndsAt fromisoformat agentId c t → ∀ a ∈ instants, ∀ b ∈ instants, a ≤ t → t ≤ b →
      ∀ others, others.Perm (c :: checkpoints) → check checkpoints = .ok .ok → check others = .ok .ok) ∧
    ∀ items : List Json, 2 ≤ items.length → ∀ c ∈ items, ∀ d ∈ items,
      (c.get Key.agentId).same (d.get Key.agentId) = false → check items ≠ .ok .ok ∧
        ((∀ c ∈ items, (c.get Key.agentId).hashable = true) → check items = .ok (.malformed .agentMixed)) := by
  refine ⟨?_, ?_, ?_, ?_, ?_, ?_⟩
  · refine (verifyCheckpointCadence_ok_iff stream two positive).trans ?_
    exact forall₃_congr fun a b _ => not_lt
  · intro wide
    rcases verifyCheckpointCadence_cases stream two positive with ⟨fine, _⟩ | reported
    · exact absurd fine wide
    · exact reported
  · intro a b adjacent short
    have less := adjacent.less
    exact totalSeconds_le_iff (by omega) short
  · exact fun others perm => verdict_perm stream two positive perm
  · intro c t ends a first b second above below others perm fine
    exact verifyCheckpointCadence_insert stream two positive ends first second above below perm fine
  · intro items two c first d second differ
    dsimp only
    rw [verifyCheckpointCadence_mixed positive two first second differ]
    refine ⟨?_, fun hashes => ?_⟩
    · split <;> simp
    · rw [if_pos (List.all_eq_true.mpr hashes)]

end

/-- `fromisoformat` on two instants 2 ^ 34 seconds and a microsecond apart. -/
def centuries : FromIsoFormat := fun text =>
  if text = ofString "0001-01-01T00:00:00+00:00" then some ⟨-62135596800000000, true⟩
  else if text = ofString "0545-05-30T01:53:04.000001+00:00" then some ⟨-44955727615999999, true⟩
  else none

def farCheckpoints : List Json :=
  ["0001-01-01T00:00:00Z", "0545-05-30T01:53:04.000001Z"].map fun periodEnd =>
    .dict [(Key.agentId, .str (ofString "a")), (Key.periodEnd, .str (ofString periodEnd))]

def farInstants : List Int := [-62135596800000000, -44955727615999999]

theorem farCheckpoints_stream : List.Forall₂ (EndsAt centuries (ofString "a")) farCheckpoints farInstants :=
  .cons ⟨rfl, rfl⟩ (.cons ⟨rfl, rfl⟩ .nil)

theorem cadence_far : verifyCheckpointCadence centuries (.list farCheckpoints) (.int (2 ^ 34)) = .ok .ok ↔
    ∀ a b, Adjacent farInstants a b → totalSeconds (b - a) ≤ (2 ^ 34 : Int) :=
  (cadence farCheckpoints_stream (by decide) (by decide)).1

/-- A microsecond above the bound is lost in the double. -/
theorem not_cadence_far : ¬ ∀ (checkpoints : List Json) (instants : List Int) (bound : Int),
    List.Forall₂ (EndsAt centuries (ofString "a")) checkpoints instants → 2 ≤ checkpoints.length → 0 < bound →
      (verifyCheckpointCadence centuries (.list checkpoints) (.int bound) = .ok .ok ↔
        ∀ a b, Adjacent instants a b → b - a ≤ bound * 1000000) := by
  intro exact
  have claimed := exact farCheckpoints farInstants (2 ^ 34) farCheckpoints_stream (by decide) (by decide)
  have adjacent : Adjacent farInstants (-62135596800000000) (-44955727615999999) :=
    ⟨by decide, by decide, by decide, by decide⟩
  have fine : verifyCheckpointCadence centuries (.list farCheckpoints) (.int (2 ^ 34)) = .ok .ok := by
    have measured : totalSeconds 17179869184000001 = 17179869184 := by decide +kernel
    refine (verifyCheckpointCadence_ok_iff farCheckpoints_stream (by decide) (by decide)).mpr fun a b pair => ?_
    obtain ⟨first, second, less, _⟩ := pair
    simp only [farInstants, List.mem_cons, List.not_mem_nil, or_false] at first second
    rcases first with rfl | rfl <;> rcases second with rfl | rfl
    on_goal 2 => exact not_lt.mpr (by norm_num [measured])
    all_goals contradiction
  have within := claimed.mp fine _ _ adjacent
  norm_num at within

end Argentum.Trail
