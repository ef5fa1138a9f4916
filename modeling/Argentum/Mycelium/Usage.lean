import Argentum.Core.Lists
import Argentum.Mycelium.Record
import Argentum.Trail.Jcs

/-! The usage of a month, `count_trails_this_month`, against the trails of the UTC month.
The count begins at the local midnight of the first day, and compares the origin in SQL,
where a row that was stored before the column existed compares as unknown. -/
namespace Argentum.Mycelium
open Argentum Text Calendar

/-- `%m` -/
def twoDigits (n : Int) : Str := [Fin.ofNat 0x110000 (48 + (n / 10).toNat), Fin.ofNat 0x110000 (48 + (n % 10).toNat)]

/-- `_year_month` -/
def yearMonth (now : Seconds) : Str :=
  Jcs.intText (civilYear (now / 86400)) ++ 45 :: twoDigits (civilMonth (now / 86400))

/-- A row of `trails` as the count reads it. The migration that adds `origin` leaves it
NULL in the rows that are there. -/
structure StoredTrail where
  agentId : String
  timestamp : Seconds
  origin : Option String

def TrailRow.stored (row : TrailRow) : StoredTrail := ⟨row.agentId, row.timestamp, some row.origin⟩

/-- `value != text` in SQL: unknown for NULL. -/
def sqlNe (value : Option String) (text : String) : Option Bool := value.map (· ≠ text)

/-- The rows that `agent_id=? AND timestamp>=? AND origin != 'pioneer'` is true of. -/
def billedSince (agentId : String) (start : Seconds) (row : StoredTrail) : Bool :=
  row.agentId = agentId && start ≤ row.timestamp && sqlNe row.origin "pioneer" = some true

/-- `count_trails_this_month`, over any rows. -/
def countThisMonth (utcOffset : Int → Seconds) (rows : List StoredTrail) (agentId : String) (now : Seconds) : Nat :=
  rows.countP (billedSince agentId (startOfMonthTs utcOffset now))

/-- A trail of the agent up to now in the UTC month of now, and no pioneer's. -/
def usedIn (agentId : String) (now : Seconds) (row : StoredTrail) : Bool :=
  row.agentId = agentId && row.timestamp ≤ now && yearMonth row.timestamp = yearMonth now &&
    row.origin ≠ some "pioneer"

def usedThisMonth (rows : List StoredTrail) (agentId : String) (now : Seconds) : Nat :=
  rows.countP (usedIn agentId now)

/-- The second that the UTC month begins with. -/
def startOfUtcMonth (now : Seconds) : Seconds := firstOfMonth (now / 86400) * 86400

/-- A trail before the UTC month that a month which begins earlier takes in. -/
def gained (utcOffset : Int → Seconds) (agentId : String) (now : Seconds) (row : StoredTrail) : Bool :=
  row.agentId = agentId && startOfMonthTs utcOffset now ≤ row.timestamp && row.timestamp < startOfUtcMonth now &&
    row.origin.any (· ≠ "pioneer")

/-- A trail of the UTC month that has no origin, or that a month which begins later leaves out. -/
def lost (utcOffset : Int → Seconds) (agentId : String) (now : Seconds) (row : StoredTrail) : Bool :=
  row.agentId = agentId && startOfUtcMonth now ≤ row.timestamp &&
    (row.origin.isNone || row.timestamp < startOfMonthTs utcOffset now && row.origin.any (· ≠ "pioneer"))

section
variable {utcOffset : Int → Seconds} {rows : List StoredTrail} {agentId : String} {now : Seconds}

/-- The statement of the tables counts the rows that have an origin. -/
theorem run_countTrailsThisMonth (settings : Settings) (w : World) :
    (countTrailsThisMonth settings agentId now).run w =
      (.ok (countThisMonth settings.utcOffset (w.trails.rows.map TrailRow.stored) agentId now), w) := by
  rw [countTrailsThisMonth, Script.run_sql, countThisMonth, List.countP_map]
  simp only [exec, Prod.mk.injEq, Except.ok.injEq, and_true]
  refine List.countP_congr fun row _ => ?_
  change _ ↔ (decide (row.agentId = agentId) && decide (startOfMonthTs settings.utcOffset now ≤ row.timestamp) &&
    decide (some (decide (row.origin ≠ "pioneer")) = some true)) = true
  simp

theorem twoDigits_injective {m n : Int} (low : 0 ≤ m ∧ m < 100) (low' : 0 ≤ n ∧ n < 100)
    (same : twoDigits m = twoDigits n) : m = n := by
  simp only [twoDigits, List.cons.injEq, and_true] at same
  have tens := congrArg Fin.val same.1
  have ones := congrArg Fin.val same.2
  simp only [Fin.ofNat] at tens ones
  omega

theorem yearMonth_eq_iff {first second : Seconds} : yearMonth first = yearMonth second ↔
    civilYear (first / 86400) = civilYear (second / 86400) ∧
      civilMonth (first / 86400) = civilMonth (second / 86400) := by
  constructor
  · intro same
    obtain ⟨years, months⟩ := List.append_inj' same rfl
    have range := civilMonth_range (first / 86400)
    have range' := civilMonth_range (second / 86400)
    exact ⟨Jcs.intText_injective years,
      twoDigits_injective (by omega) (by omega) (List.cons.inj months).2⟩
  · rintro ⟨years, months⟩
    rw [yearMonth, yearMonth, years, months]

/-- Up to now, the month of now is what has come since it began. -/
theorem yearMonth_eq_iff_le {timestamp : Seconds} (past : timestamp ≤ now) :
    yearMonth timestamp = yearMonth now ↔ startOfUtcMonth now ≤ timestamp := by
  rw [yearMonth_eq_iff, sameMonth_iff (Int.ediv_le_ediv (by decide) past)]
  exact Int.le_ediv_iff_mul_le (by decide)

/-- A row is counted and not of the month where it is gained, and the other way where it is lost. -/
theorem billedSince_add_lost {row : StoredTrail} (past : row.timestamp ≤ now) :
    (billedSince agentId (startOfMonthTs utcOffset now) row).toNat + (lost utcOffset agentId now row).toNat =
      (usedIn agentId now row).toNat + (gained utcOffset agentId now row).toNat := by
  have month := yearMonth_eq_iff_le past
  obtain ⟨owner, timestamp, origin⟩ := row
  simp only [billedSince, lost, usedIn, gained, month, past, ← Int.not_le, decide_true, Bool.and_true]
  by_cases own : owner = agentId
  · cases origin with
    | none => simp [sqlNe, own]
    | some origin =>
        by_cases pioneer : origin = "pioneer"
        · simp [sqlNe, own, pioneer]
        · by_cases counted : startOfMonthTs utcOffset now ≤ timestamp <;>
            by_cases begun : startOfUtcMonth now ≤ timestamp <;> simp [sqlNe, own, pioneer, counted, begun]
  · simp [own]

end

/-- The count is that of the UTC month iff as many trails come in that were stamped before
it as trails of the month stay out, before a later local midnight or for want of an origin. -/
theorem countThisMonth_eq_iff (utcOffset : Int → Seconds) (rows : List StoredTrail) (agentId : String) (now : Seconds)
    (past : ∀ row ∈ rows, row.timestamp ≤ now) :
    countThisMonth utcOffset rows agentId now = usedThisMonth rows agentId now ↔
      rows.countP (gained utcOffset agentId now) = rows.countP (lost utcOffset agentId now) := by
  have sums := countP_add_countP fun row member =>
    @billedSince_add_lost utcOffset agentId now row (past row member)
  rw [countThisMonth, usedThisMonth]
  omega

/-- The first second of 2026, in UTC. -/
def newYear : Seconds := 1767225600

/-- A trail of the first day of a year, and one of the last day of the year before. -/
def newYearsDay : List StoredTrail :=
  [⟨"scout", newYear + 7200, some "external"⟩, ⟨"scout", newYear - 7200, some "external"⟩]

theorem countThisMonth_eq_iff_newYearsDay :
    countThisMonth (fun _ => 3600) newYearsDay "scout" (newYear + 86400) =
      usedThisMonth newYearsDay "scout" (newYear + 86400) :=
  (countThisMonth_eq_iff _ _ _ _ (by decide)).mpr (by decide)

/-- A trail of the last hour of a year, and one of the new year's first second that was
stored before there were origins. -/
def turnOfYear : List StoredTrail := [⟨"scout", newYear - 1800, some "external"⟩, ⟨"scout", newYear, none⟩]

/-- An hour ahead of UTC the last hour of December is counted in January. On a UTC machine a
row without an origin is not counted. -/
theorem countThisMonth_ne_turnOfYear :
    countThisMonth (fun _ => 3600) (turnOfYear.take 1) "scout" newYear = 1 ∧
      usedThisMonth (turnOfYear.take 1) "scout" newYear = 0 ∧
      countThisMonth (fun _ => 0) (turnOfYear.drop 1) "scout" newYear = 0 ∧
      usedThisMonth (turnOfYear.drop 1) "scout" newYear = 1 := by
  refine ⟨by decide, by decide +kernel, by decide, by decide +kernel⟩

end Argentum.Mycelium
