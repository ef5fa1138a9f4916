import Argentum.Mycelium.Record

/-! The daily and the monthly cap of `record_trail`, under calls whose count queries and
inserts interleave. A call reads the clock for each, and counts from the beginning of its
day and of its month on. No other call may insert a row of the agent between a call's
counts and its insert; and the month is counted from local midnight on, so that a server
behind UTC leaves out what its first hours hold. -/
namespace Argentum.Mycelium
open Argentum Text Transition Calendar

/-- A call of `record_trail`, with the clock of each of its statements. -/
structure RecordCall where
  trailId : String
  trail : NewTrail
  counted : Seconds
  billed : Seconds
  stored : Seconds
  ordered : counted ≤ billed ∧ billed ≤ stored

def RecordCall.code (settings : Settings) (call : RecordCall) : Script (Option String) :=
  recordTrailAt settings call.trailId call.trail call.counted call.billed call.stored

/-- The row a statement inserts. -/
def inserted (w : World) : ∀ {β : Type}, Sql β → List TrailRow
  | _, .insertTrail row => if (w.trails.insert? row).isSome then [row] else []
  | _, _ => []

/-- The tables, and the rows that were inserted under the monthly cap. -/
structure QuotaLedger where
  world : World
  unskipped : List TrailRow

/-- Which call a process runs, and how many rows the table had when it counted its day. -/
structure QuotaNote where
  call : RecordCall
  rows : Nat

def quotaExec (note : QuotaNote) : Semantics Sql QuotaLedger := fun op s =>
  ((exec op s.world).1,
    { world := (exec op s.world).2
      unskipped := s.unskipped ++ if note.call.trail.skipMonthlyLimit then [] else inserted s.world op })

def quotaNote {β : Type} (note : QuotaNote) (op : Sql β) (s : QuotaLedger) : QuotaNote :=
  match op with
  | .countSince .. => { note with rows := s.world.trails.rows.length }
  | _ => note

/-- The calls in flight, with their notes. -/
abbrev QuotaPool := Noted RecordCall Sql (Except Raised (Option String)) QuotaLedger QuotaNote

def QuotaPool.step (settings : Settings) : QuotaPool → Move RecordCall → QuotaPool :=
  Noted.step quotaExec quotaNote (fun call => ⟨call, 0⟩) (RecordCall.code settings)

/-- The tables with no call in flight. -/
def QuotaPool.idle (w : World) : QuotaPool := ⟨⟨w, []⟩, []⟩

/-- The tables are those that the calls leave without the notes. -/
theorem world_run (settings : Settings) (w : World) (moves : List (Move RecordCall)) :
    (run (QuotaPool.step settings) (QuotaPool.idle w) moves).state.world =
      (run (Pool.step exec (RecordCall.code settings)) ⟨w, []⟩ moves).state :=
  congrArg Pool.state (run_image (Noted.forget QuotaLedger.world)
    (fun pool move => Noted.forget_step (fun _ _ _ => rfl) pool move) (QuotaPool.idle w) moves)

/-- A row of the agent that is inserted finds none that was inserted since its call counted. -/
def NotOvertaken (agentId : String) {β : Type} (s : QuotaLedger) (note : QuotaNote) (op : Sql β) : Prop :=
  inserted s.world op ≠ [] → note.call.trail.agentId = agentId →
    ∀ row ∈ s.world.trails.rows.drop note.rows, row.agentId ≠ agentId

/-- A row that is inserted under the monthly cap finds none in its month that was, from before
the time its call counted from. -/
def MonthCounted (settings : Settings) (agentId : String) {β : Type} (s : QuotaLedger) (note : QuotaNote)
    (op : Sql β) : Prop :=
  inserted s.world op ≠ [] → note.call.trail.agentId = agentId → note.call.trail.skipMonthlyLimit = false →
    note.call.trail.origin ≠ "pioneer" → ∀ row ∈ s.unskipped, row.agentId = agentId → row.origin ≠ "pioneer" →
      firstOfMonth (row.timestamp / 86400) = firstOfMonth (note.call.stored / 86400) →
      startOfMonthTs settings.utcOffset note.call.billed ≤ row.timestamp

instance (agentId : String) (s : QuotaLedger) (note : QuotaNote) {β : Type} (op : Sql β) :
    Decidable (NotOvertaken agentId s note op) :=
  inferInstanceAs (Decidable (_ → _ → _))

instance (settings : Settings) (agentId : String) (s : QuotaLedger) (note : QuotaNote) {β : Type} (op : Sql β) :
    Decidable (MonthCounted settings agentId s note op) :=
  inferInstanceAs (Decidable (_ → _ → _ → _ → _))

/-- The calls of the agent come with its cap. -/
def Capped (agentId : String) (cap : Int) (moves : List (Move RecordCall)) : Prop :=
  ∀ call, .start call ∈ moves → call.trail.agentId = agentId → call.trail.rateLimitCap = cap

/-- The trails of an agent with a timestamp in a UTC day. -/
def dayCount (rows : List TrailRow) (agentId : String) (day : Int) : Nat :=
  rows.countP fun row => row.agentId = agentId && row.timestamp / 86400 = day

/-- The trails of an agent in a month, by its first day, that are not a pioneer's. -/
def monthCount (rows : List TrailRow) (agentId : String) (month : Int) : Nat :=
  rows.countP fun row =>
    row.agentId = agentId && row.origin ≠ "pioneer" && firstOfMonth (row.timestamp / 86400) = month

/-- No day holds more trails than the cap, or than it held before. -/
def WithinDays (agentId : String) (cap : Int) (before : World) (s : QuotaLedger) : Prop :=
  ∀ day, (dayCount s.world.trails.rows agentId day : Int) ≤ max cap (dayCount before.trails.rows agentId day)

/-- No month holds more than the free trails that were recorded under the monthly cap. -/
def WithinMonths (agentId : String) (s : QuotaLedger) : Prop :=
  ∀ month, monthCount s.unskipped agentId month ≤ monthlyLimitFree

/-- What a call counts for its day, and for its month. -/
def RecordCall.ofDay (call : RecordCall) (row : TrailRow) : Bool :=
  row.agentId = call.trail.agentId && startOfDayTs call.counted ≤ row.timestamp

def RecordCall.ofMonth (settings : Settings) (call : RecordCall) (row : TrailRow) : Bool :=
  row.agentId = call.trail.agentId && startOfMonthTs settings.utcOffset call.billed ≤ row.timestamp &&
    row.origin ≠ "pioneer"

/-- What a call counted of the rows leaves room under both caps. -/
structure RecordCall.Room (settings : Settings) (cap : Int) (call : RecordCall) (rows : List TrailRow) : Prop where
  daily : (rows.countP call.ofDay : Int) < cap
  monthly : call.trail.skipMonthlyLimit = false → rows.countP (call.ofMonth settings) < monthlyLimitFree

section
variable {settings : Settings} {call : RecordCall} {row : TrailRow} {rows : List TrailRow} {agentId : String}
  {cap : Int}

/-- A day begins no later than anything on the day of a later time. -/
theorem startOfDayTs_le {first last timestamp : Int} (ordered : first ≤ last)
    (day : timestamp / 86400 = last / 86400) : startOfDayTs first ≤ timestamp := by
  have start : startOfDayTs first = first - first % 86400 := rfl
  have begun : first - first % 86400 ≤ timestamp := by omega
  exact start ▸ begun

/-- Whatever is in the day of a call's row was counted. -/
theorem dayCount_le_ofDay (call : RecordCall) (rows : List TrailRow) :
    dayCount rows call.trail.agentId (call.stored / 86400) ≤ rows.countP call.ofDay := by
  apply List.countP_mono_left
  intro row _ counted
  simp only [Bool.and_eq_true, decide_eq_true_eq] at counted
  rw [RecordCall.ofDay, Bool.and_eq_true]
  exact ⟨decide_eq_true counted.1, decide_eq_true (startOfDayTs_le (call.ordered.1.trans call.ordered.2) counted.2)⟩

theorem dayCount_concat (rows : List TrailRow) (row : TrailRow) (agentId : String) (day : Int) :
    dayCount (rows ++ [row]) agentId day =
      if row.agentId = agentId ∧ row.timestamp / 86400 = day then dayCount rows agentId day + 1
      else dayCount rows agentId day := by
  rw [dayCount, List.countP_append, List.countP_singleton, ← dayCount]
  split <;> simp_all

theorem monthCount_concat (rows : List TrailRow) (row : TrailRow) (agentId : String) (month : Int) :
    monthCount (rows ++ [row]) agentId month =
      if row.agentId = agentId ∧ row.origin ≠ "pioneer" ∧ firstOfMonth (row.timestamp / 86400) = month then
        monthCount rows agentId month + 1
      else monthCount rows agentId month := by
  rw [monthCount, List.countP_append, List.countP_singleton, ← monthCount]
  split <;> simp_all

/-- Rows of other agents make no difference to what is counted of an agent. -/
theorem countP_take_of_drop {p : TrailRow → Bool} {n : Nat} (own : ∀ row, p row = true → row.agentId = agentId)
    (others : ∀ row ∈ rows.drop n, row.agentId ≠ agentId) : (rows.take n).countP p = rows.countP p := by
  have none : (rows.drop n).countP p = 0 :=
    List.countP_eq_zero.mpr fun row member counted => others row member (own row counted)
  conv_rhs => rw [← List.take_append_drop n rows, List.countP_append, none, add_zero]

end

/-- The table only grows. -/
def Grows (s t : QuotaLedger) : Prop := s.world.trails.rows <+: t.world.trails.rows

/-- The process runs the call, which found `p` of the rows it counted. -/
def Saw (call : RecordCall) (p : List TrailRow → Prop) (note : QuotaNote) (s : QuotaLedger) : Prop :=
  note.call = call ∧ note.rows ≤ s.world.trails.rows.length ∧ p (s.world.trails.rows.take note.rows)

/-- What a call does: it counts, and inserts its own row. The row of a call under the caps
finds that the rows its call counted left room. -/
def Stands (settings : Settings) (agentId : String) (cap : Int) {β : Type} (s : QuotaLedger) (note : QuotaNote) (op : Sql β) : Prop :=
  match op with
  | .countSince .. => True
  | .countBilledSince .. => True
  | .insertTrail row => note.call.trail.row note.call.trailId note.call.stored = .ok row ∧
      Saw note.call (fun rows => note.call.trail.agentId = agentId → note.call.Room settings cap rows) note s
  | _ => False

/-- A script of a call that stands wherever it is interleaved, and returns what fits. -/
def Safely (settings : Settings) (agentId : String) (cap : Int) {α : Type} (script : Script α)
    (returns : α → QuotaNote → QuotaLedger → Prop) (note : QuotaNote) (s : QuotaLedger) : Prop :=
  (ExceptT.run script).SafeNoted quotaExec quotaNote Grows (Stands settings agentId cap)
    (fun ended note s => ∀ value, ended = .ok value → returns value note s) note s

section
variable {settings : Settings} {agentId : String} {call : RecordCall} {cap : Int} {α β : Type} {note : QuotaNote}
  {s t : QuotaLedger} {p : List TrailRow → Prop}

theorem Grows.refl (s : QuotaLedger) : Grows s s := List.prefix_rfl

theorem Grows.trans {first second third : QuotaLedger} (earlier : Grows first second) (later : Grows second third) :
    Grows first third := List.IsPrefix.trans earlier later

/-- What a call found of the rows it counted stays so. -/
theorem Saw.mono (saw : Saw call p note s) (grows : Grows s t) : Saw call p note t := by
  obtain ⟨own, within, found⟩ := saw
  refine ⟨own, within.trans grows.length_le, ?_⟩
  obtain ⟨later, longer⟩ := grows
  rwa [← longer, List.take_append_of_le_length within]

theorem Saw.imp {q : List TrailRow → Prop} (saw : Saw call p note s) (implies : ∀ rows, p rows → q rows) :
    Saw call q note s := ⟨saw.1, saw.2.1, implies _ saw.2.2⟩

/-- A statement leaves the rows, or appends the one it inserts. -/
theorem quotaExec_cases {op : Sql β} (stands : Stands settings agentId cap s note op) :
    ((quotaExec note op s).2.world.trails = s.world.trails ∧ (quotaExec note op s).2.unskipped = s.unskipped) ∨
    ∃ row, inserted s.world op = [row] ∧ note.call.trail.row note.call.trailId note.call.stored = .ok row ∧
      Saw note.call (fun rows => note.call.trail.agentId = agentId → note.call.Room settings cap rows) note s ∧
      (quotaExec note op s).2.world.trails.rows = s.world.trails.rows ++ [row] ∧
      (quotaExec note op s).2.unskipped =
        s.unskipped ++ if note.call.trail.skipMonthlyLimit then [] else [row] := by
  cases op with
  | countSince | countBilledSince =>
      refine Or.inl ⟨rfl, ?_⟩
      simp [quotaExec, inserted]
  | insertTrail row =>
      cases stored : s.world.trails.insert? row with
      | none => simp [quotaExec, inserted, exec, constrained, stored]
      | some trails =>
          refine Or.inr ⟨row, by simp [inserted, stored], stands.1, stands.2, ?_, ?_⟩
          · simp [quotaExec, exec, constrained, stored, Table.rows_insert stored]
          · simp [quotaExec, inserted, stored]
  | _ => exact stands.elim

theorem grows_of_stands {op : Sql β} (stands : Stands settings agentId cap s note op) :
    Grows s (quotaExec note op s).2 := by
  rcases quotaExec_cases stands with ⟨same, _⟩ | ⟨row, _, _, _, rows, _⟩
  · rw [Grows, same]
  · rw [Grows, rows]
    exact List.prefix_append _ _

theorem safely_pure {returns : α → QuotaNote → QuotaLedger → Prop} {value : α}
    (fits : ∀ t, Grows s t → returns value note t) : Safely settings agentId cap (pure value) returns note s := by
  intro t grows other same
  obtain rfl := Except.ok.inj same
  exact fits t grows

theorem safely_sql {returns : α → QuotaNote → QuotaLedger → Prop} {op : Sql α}
    (stands : ∀ t, Grows s t → Stands settings agentId cap t note op)
    (fits : ∀ t u, Grows s t → Grows (quotaExec note op t).2 u →
      returns (quotaExec note op t).1 (quotaNote note op t) u) : Safely settings agentId cap (sql op) returns note s := by
  refine fun t grows => ⟨stands t grows, fun u later other same => ?_⟩
  obtain rfl := Except.ok.inj same
  exact fits t u grows later

theorem Safely.bind {returns : α → QuotaNote → QuotaLedger → Prop} {after : β → QuotaNote → QuotaLedger → Prop}
    {script : Script α} {next : α → Script β} (first : Safely settings agentId cap script returns note s)
    (later : ∀ value note s, returns value note s → Safely settings agentId cap (next value) after note s) :
    Safely settings agentId cap (script >>= next) after note s := by
  refine Program.SafeNoted.bind Grows.refl (first.imp fun ended note s fits => ?_)
  cases ended with
  | ok value => exact later value note s (fits value rfl)
  | error raised =>
      intro t grows value same
      cases same

theorem safely_sqlOrRaise {returns : α → QuotaNote → QuotaLedger → Prop} {op : Sql (Except Raised α)}
    (stands : ∀ t, Grows s t → Stands settings agentId cap t note op)
    (fits : ∀ t u value, Grows s t → Grows (quotaExec note op t).2 u → returns value (quotaNote note op t) u) :
    Safely settings agentId cap (sqlOrRaise op) returns note s :=
  fun t grows => ⟨stands t grows, fun u later value _ => fits t u value grows later⟩

theorem safely_bound_bind {after : β → QuotaNote → QuotaLedger → Prop} {value : Except Raised α}
    {next : α → Script β} (later : ∀ read, value = .ok read → Safely settings agentId cap (next read) after note s) :
    Safely settings agentId cap (bound value >>= next) after note s := by
  cases value with
  | ok read => exact later read rfl
  | error raised =>
      intro t grows value same
      cases same

/-- A call that the caps let through counted rows that left room. -/
theorem safely_rateLimitedAt
    (outside : agentId ∉ genesisAgentsDefault ∧ agentId ∉ settings.enterpriseAgents ∧ 0 < cap)
    (comes : call.trail.agentId = agentId → call.trail.rateLimitCap = cap) (s : QuotaLedger) :
    Safely settings agentId cap (rateLimitedAt settings call.trail call.counted call.billed)
      (fun limited note s => limited = false →
        Saw call (fun rows => call.trail.agentId = agentId → call.Room settings cap rows) note s) ⟨call, 0⟩ s := by
  unfold rateLimitedAt
  split
  · rename_i exempt
    refine safely_pure fun t _ _ => ⟨rfl, Nat.zero_le _, fun same => ?_⟩
    obtain ⟨known, free, capped⟩ := outside
    rw [same, comes same] at exempt
    rcases exempt with genesis | enterprise | low
    · exact absurd genesis known
    · exact absurd enterprise free
    · omega
  have ofDay : Safely settings agentId cap (countTrailsToday call.trail.agentId call.counted)
      (fun used => Saw call fun rows => used = rows.countP call.ofDay) ⟨call, 0⟩ s := by
    refine safely_sql (fun _ _ => trivial) fun t u _ later => ?_
    have here : Saw call (fun rows => t.world.trails.rows.countP call.ofDay = rows.countP call.ofDay)
        ⟨call, t.world.trails.rows.length⟩ t := ⟨rfl, le_rfl, by rw [List.take_length]⟩
    exact here.mono later
  refine ofDay.bind fun usedToday note s day => ?_
  split
  · exact safely_pure fun t _ admitted => absurd admitted (by decide)
  rename_i below
  split
  · rename_i skips
    refine safely_pure fun t grows _ => (day.mono grows).imp fun rows counted own => ⟨?_, fun billed => ?_⟩
    · rw [comes own] at below
      omega
    · rw [skips] at billed
      cases billed
  have ofMonth : Safely settings agentId cap (countTrailsThisMonth settings call.trail.agentId call.billed)
      (fun used => Saw call fun rows =>
        usedToday = rows.countP call.ofDay ∧ rows.countP (call.ofMonth settings) ≤ used) note s := by
    refine safely_sql (fun _ _ => trivial) fun t u grows later => ?_
    obtain ⟨own, within, counted⟩ := day.mono grows
    have here : Saw call (fun rows => usedToday = rows.countP call.ofDay ∧
        rows.countP (call.ofMonth settings) ≤ t.world.trails.rows.countP (call.ofMonth settings)) note t :=
      ⟨own, within, counted, (List.take_sublist _ _).countP_le⟩
    exact here.mono later
  refine ofMonth.bind fun usedMonth note s month => ?_
  refine safely_pure fun t grows admitted => (month.mono grows).imp fun rows counted own => ⟨?_, fun _ => ?_⟩
  · rw [comes own] at below
    omega
  · exact counted.2.trans_lt (not_le.mp (of_decide_eq_false admitted))

theorem safely_code
    (outside : agentId ∉ genesisAgentsDefault ∧ agentId ∉ settings.enterpriseAgents ∧ 0 < cap)
    (comes : call.trail.agentId = agentId → call.trail.rateLimitCap = cap) (s : QuotaLedger) :
    Safely settings agentId cap (call.code settings) (fun _ _ _ => True) ⟨call, 0⟩ s := by
  unfold RecordCall.code recordTrailAt
  split
  · exact safely_pure fun _ _ => trivial
  refine (safely_rateLimitedAt outside comes s).bind fun limited note s counted => ?_
  split
  · exact safely_pure fun _ _ => trivial
  rename_i admitted
  refine safely_bound_bind fun row made => ?_
  have stored : Safely settings agentId cap (sqlOrRaise (.insertTrail row)) (fun _ _ _ => True) note s := by
    refine safely_sqlOrRaise (fun t grows => ?_) fun _ _ _ _ _ => trivial
    have saw := (counted (by simpa using admitted)).mono grows
    obtain rfl := saw.1
    exact ⟨made, saw⟩
  exact stored.bind fun _ _ _ _ => safely_pure fun _ _ => trivial

/-- What an inserted row finds of its call where no row of the agent was inserted since. -/
theorem Saw.room (saw : Saw call (fun rows => call.trail.agentId = agentId → call.Room settings cap rows) note s)
    (own : call.trail.agentId = agentId)
    (others : ∀ row ∈ s.world.trails.rows.drop note.rows, row.agentId ≠ agentId) :
    call.Room settings cap s.world.trails.rows := by
  obtain ⟨daily, monthly⟩ := saw.2.2 own
  rw [countP_take_of_drop (fun row counted => ?_) others] at daily
  · refine ⟨daily, fun billed => ?_⟩
    rw [← countP_take_of_drop (fun row counted => ?_) others]
    · exact monthly billed
    · simp only [RecordCall.ofMonth, Bool.and_eq_true, decide_eq_true_eq] at counted
      exact counted.1.1.trans own
  · simp only [RecordCall.ofDay, Bool.and_eq_true, decide_eq_true_eq] at counted
    exact counted.1.trans own

/-- The daily cap, over one statement. -/
theorem withinDays_quotaExec {before : World} {op : Sql β} (within : WithinDays agentId cap before s)
    (stands : Stands settings agentId cap s note op) (alone : NotOvertaken agentId s note op) : WithinDays agentId cap before (quotaExec note op s).2 := by
  intro day
  rcases quotaExec_cases stands with ⟨same, _⟩ | ⟨row, only, made, saw, rows, _⟩
  · rw [same]
    exact within day
  obtain ⟨_, own, _, _, stored, _⟩ := row_stored made
  rw [rows, dayCount_concat]
  split
  · rename_i here
    obtain ⟨same, rfl⟩ := here
    have mine := own.symm.trans same
    have room := (saw.room mine (alone (by simp [only]) mine)).daily
    have counted := dayCount_le_ofDay note.call s.world.trails.rows
    rw [mine] at counted
    rw [stored]
    push_cast
    omega
  · exact within day

/-- Whatever was recorded under the monthly cap in the month of a call's row was counted. -/
theorem monthCount_le_ofMonth (part : s.unskipped.Sublist s.world.trails.rows)
    (counted : ∀ row ∈ s.unskipped, row.agentId = call.trail.agentId → row.origin ≠ "pioneer" →
      firstOfMonth (row.timestamp / 86400) = firstOfMonth (call.stored / 86400) →
      startOfMonthTs settings.utcOffset call.billed ≤ row.timestamp) :
    monthCount s.unskipped call.trail.agentId (firstOfMonth (call.stored / 86400)) ≤
      s.world.trails.rows.countP (call.ofMonth settings) := by
  refine (List.countP_mono_left fun row member billed => ?_).trans part.countP_le
  simp only [Bool.and_eq_true, decide_eq_true_eq] at billed
  obtain ⟨⟨own, origin⟩, month⟩ := billed
  simp only [RecordCall.ofMonth, Bool.and_eq_true, decide_eq_true_eq]
  exact ⟨⟨own, counted row member own origin month⟩, origin⟩

/-- What is recorded under the monthly cap is in the table, and within it. -/
def KeepsMonths (agentId : String) (s : QuotaLedger) : Prop :=
  s.unskipped.Sublist s.world.trails.rows ∧ WithinMonths agentId s

/-- The monthly cap, over one statement. -/
theorem keepsMonths_quotaExec {op : Sql β} (keeps : KeepsMonths agentId s) (stands : Stands settings agentId cap s note op)
    (alone : NotOvertaken agentId s note op) (counted : MonthCounted settings agentId s note op) :
    KeepsMonths agentId (quotaExec note op s).2 := by
  obtain ⟨part, within⟩ := keeps
  rcases quotaExec_cases stands with ⟨same, free⟩ | ⟨row, only, made, saw, rows, free⟩
  · exact ⟨by rwa [same, free], fun month => by rw [free]; exact within month⟩
  have inserts : inserted s.world op ≠ [] := by simp [only]
  obtain ⟨_, own, origin, _, stored, _⟩ := row_stored made
  cases skips : note.call.trail.skipMonthlyLimit with
  | true =>
      rw [skips, if_pos rfl, List.append_nil] at free
      refine ⟨?_, fun month => ?_⟩
      · rw [rows, free]
        exact part.trans (List.sublist_append_left _ _)
      · rw [free]
        exact within month
  | false =>
      rw [skips, if_neg Bool.false_ne_true] at free
      refine ⟨?_, fun month => ?_⟩
      · rw [rows, free]
        exact part.append (List.Sublist.refl _)
      rw [free, monthCount_concat]
      split
      · rename_i here
        obtain ⟨same, billed, rfl⟩ := here
        have mine := own.symm.trans same
        have room := (saw.room mine (alone inserts mine)).monthly skips
        have fewer := monthCount_le_ofMonth part (mine ▸ counted inserts mine skips (origin ▸ billed))
        rw [mine] at fewer
        rw [stored]
        omega
      · exact within month

end

/-- In every interleaving of calls of an agent that is not exempt, in which none is overtaken
between its counts and its insert, no day exceeds the daily cap; and if besides no month is
counted past trails it holds, no month exceeds the free ones. -/
theorem withinQuotas_of_notOvertaken (settings : Settings) (agentId : String) (cap : Int) (w : World)
    (moves : List (Move RecordCall))
    (outside : agentId ∉ genesisAgentsDefault ∧ agentId ∉ settings.enterpriseAgents ∧ 0 < cap)
    (capped : Capped agentId cap moves)
    (alone : Admits (QuotaPool.step settings) (Noted.Performs (NotOvertaken agentId)) (QuotaPool.idle w) moves) :
    let after := (run (QuotaPool.step settings) (QuotaPool.idle w) moves).state
    WithinDays agentId cap w after ∧
      (Admits (QuotaPool.step settings) (Noted.Performs (MonthCounted settings agentId)) (QuotaPool.idle w) moves →
        WithinMonths agentId after) := by
  have codes : ∀ call, .start call ∈ moves → ∀ s, (ExceptT.run (call.code settings)).SafeNoted quotaExec quotaNote Grows
      (Stands settings agentId cap) (fun _ _ _ => True) ⟨call, 0⟩ s :=
    fun call starts s => (safely_code outside (capped call starts) s).imp fun _ _ _ _ => trivial
  constructor
  · refine Noted.safe_run Grows.refl Grows.trans (fun _ _ _ stands => grows_of_stands stands) ?_ codes alone ?_
    · exact fun s note op within stands alone => withinDays_quotaExec within stands alone
    · exact fun day => le_max_right _ _
  · intro counted
    have both : Admits (QuotaPool.step settings) (Noted.Performs fun s note op =>
        NotOvertaken agentId s note op ∧ MonthCounted settings agentId s note op) (QuotaPool.idle w) moves :=
      alone.both counted fun _ _ => Noted.Performs.both
    refine (Noted.safe_run Grows.refl Grows.trans (fun _ _ _ stands => grows_of_stands stands) ?_ codes both ?_ :
      KeepsMonths agentId _).2
    · exact fun s note op keeps stands guarded => keepsMonths_quotaExec keeps stands guarded.1 guarded.2
    · exact ⟨List.nil_sublist _, fun _ => Nat.zero_le _⟩

/-- A server whose local time is an hour behind UTC. -/
def behindServer : Settings := ⟨1, [], fun _ => -3600, false, false⟩

/-- A call of an agent with a cap of one trail, on the second day of a month. -/
def oneTrail (agentId trailId : String) : RecordCall :=
  { trailId
    trail := { agentId, service := .str (ofString "search"), operation := ofString "query",
               nonce := ofString trailId, rateLimitCap := 1 }
    counted := 86410
    billed := 86410
    stored := 86410
    ordered := ⟨le_refl _, le_refl _⟩ }

/-- A call whose counts stand around all of another agent's, and then one of its own agent. -/
def recordedApart : List (Move RecordCall) :=
  [.start (oneTrail "agent" "first"), .start (oneTrail "other" "second"), .advance 0, .advance 1, .advance 1,
    .advance 1, .advance 0, .advance 0, .start (oneTrail "agent" "third"), .advance 2, .advance 2]

/-- Two calls of one agent, each counting before either inserts. -/
def recordedAtOnce : List (Move RecordCall) :=
  [.start (oneTrail "agent" "first"), .start (oneTrail "agent" "second"), .advance 0, .advance 0, .advance 1,
    .advance 1, .advance 0, .advance 1]

theorem withinQuotas_recordedApart :
    let after := (run (QuotaPool.step behindServer) (QuotaPool.idle .empty) recordedApart).state
    WithinDays "agent" 1 .empty after ∧ WithinMonths "agent" after := by
  have capped : Capped "agent" 1 recordedApart := by
    intro call starts _
    simp only [recordedApart, List.mem_cons, Move.start.injEq, reduceCtorEq, List.not_mem_nil, or_false, false_or] at starts
    rcases starts with rfl | rfl | rfl <;> rfl
  have within := withinQuotas_of_notOvertaken behindServer "agent" 1 .empty recordedApart (by decide +kernel) capped
    (by decide +kernel)
  exact ⟨within.1, within.2 (by decide +kernel)⟩

/-- The day holds two trails under a cap of one. -/
theorem not_withinQuotas_recordedAtOnce :
    ¬ WithinDays "agent" 1 .empty (run (QuotaPool.step behindServer) (QuotaPool.idle .empty) recordedAtOnce).state :=
  fun within => absurd (within 1) (by decide +kernel)

end Argentum.Mycelium
