import McpAssistant.BusinessQuery.PlanJson
import McpAssistant.BusinessQuery.FilterRoundTrip

/-!
# The parts of a plan read back what they print

A period states the one range it has, and the others print as null; a date that
was read lies in the calendar's range and prints as a text that reads back.
-/

namespace McpAssistant.BusinessQuery.PartsRoundTrip

open QueryPlan FilterJson PlanJson FilterRoundTrip Foundations.JsonReading
  Foundations.Fallible Foundations.IsoDate

theorem readDate_text {value : String} {day : Int} :
    readDate (.text value) = .ok day ↔ fromIsoFormat value = some day := by
  rw [readDate]
  cases fromIsoFormat value with
  | none =>
    constructor
    · rintro ⟨⟩
    · rintro ⟨⟩
  | some number => rw [Except.ok.injEq, Option.some.injEq]

theorem rereads_date : Rereads readDate dumpDate := by
  intro json day read
  cases json with
  | text value =>
    have valid := inRange_of_fromIsoFormat (readDate_text.mp read)
    exact readDate_text.mpr (fromIsoFormat_isoFormat valid)
  | _ => cases read

theorem rereads_relative : Rereads (@readLiteral PlanRule _ relativeRanges)
    fun range => .text (relativeName range) := by
  apply rereads_literal
  intro range
  cases range <;> rfl

theorem rereads_granularity : Rereads (@readLiteral PlanRule _ granularities)
    fun unit => .text (granularityName unit) := by
  apply rereads_literal
  intro unit
  cases unit <;> rfl

theorem rereads_between : Rereads readBetween dumpBounds := by
  rintro json ⟨first, last⟩ read
  unfold readBetween at read
  split at read
  · rcases both_eq_ok.mp read with ⟨isFirst, isLast⟩
    exact both_eq_ok.mpr ⟨rereads_date _ _ isFirst, rereads_date _ _ isLast⟩
  · cases read

theorem oneRange_eq_ok {relative : Option RelativeRange} {on since : Option Int}
    {between : Option (Int × Int)} {range : PeriodRange}
    (read : oneRange relative on since between = .ok range) :
    relative = rangeRelative range ∧ on = rangeOn range ∧
      since = rangeSince range ∧ between = rangeBetween range := by
  unfold oneRange at read
  split at read
  · cases read
    exact ⟨rfl, rfl, rfl, rfl⟩
  · cases read
    exact ⟨rfl, rfl, rfl, rfl⟩
  · cases read
    exact ⟨rfl, rfl, rfl, rfl⟩
  · split at read
    · cases read
      exact ⟨rfl, rfl, rfl, rfl⟩
    · cases read
  · cases read

/-- A range is the one its four forms state. -/
theorem oneRange_of_range (range : PeriodRange) :
    oneRange (rangeRelative range) (rangeOn range) (rangeSince range)
      (rangeBetween range) = .ok range := by
  cases range with
  | between first last ordered => exact dif_pos ordered
  | _ => rfl

/-- What a period read from a dictionary holds. -/
structure PeriodRead (entries : Entries) (period : BusinessPeriod) : Prop where
  dimension : readField entries "time_dimension" none (@readText PlanRule) =
    .ok period.timeDimension
  relative : readField entries "relative" (some none)
    (readNullable (@readLiteral PlanRule _ relativeRanges)) = .ok (rangeRelative period.range)
  on : readField entries "on" (some none) (readNullable readDate) =
    .ok (rangeOn period.range)
  since : readField entries "since" (some none) (readNullable readDate) =
    .ok (rangeSince period.range)
  between : readField entries "between" (some none) (readNullable readBetween) =
    .ok (rangeBetween period.range)
  granularity : readField entries "granularity" (some none)
    (readNullable (@readLiteral PlanRule _ granularities)) = .ok period.granularity
  closed : ∀ entry ∈ entries, entry.1 ∈ periodKeys

variable {entries : Entries} {period : BusinessPeriod}

theorem readPeriodEntries_eq_ok :
    readPeriodEntries entries = .ok period ↔ PeriodRead entries period := by
  rw [readPeriodEntries]
  constructor
  · intro read
    rcases bind_eq_ok.mp read with ⟨⟨⟨dimension, relative, on, since, between,
      granularity⟩, done⟩, parts, rest⟩
    rcases bind_eq_ok.mp rest with ⟨range, isRange, same⟩
    cases same
    simp only [both_eq_ok] at parts
    rcases oneRange_eq_ok isRange with ⟨rfl, rfl, rfl, rfl⟩
    exact ⟨parts.1.1, parts.1.2.1, parts.1.2.2.1, parts.1.2.2.2.1,
      parts.1.2.2.2.2.1, parts.1.2.2.2.2.2, forbidExtra_eq_ok.mp parts.2⟩
  · intro read
    apply bind_eq_ok.mpr
    refine ⟨((period.timeDimension, rangeRelative period.range,
      rangeOn period.range, rangeSince period.range, rangeBetween period.range,
      period.granularity), ()), ?_, bind_eq_ok.mpr ⟨period.range, ?_, rfl⟩⟩
    · simp only [both_eq_ok]
      exact ⟨⟨read.dimension, read.relative, read.on, read.since, read.between,
        read.granularity⟩, forbidExtra_eq_ok.mpr read.closed⟩
    · exact oneRange_of_range period.range

theorem rereads_periodEntries (read : readPeriodEntries entries = .ok period) :
    readPeriodEntries (dumpPeriodEntries period) = .ok period := by
  rcases readPeriodEntries_eq_ok.mp read with ⟨dimension, relative, on, since,
    between, granularity, closed⟩
  apply readPeriodEntries_eq_ok.mpr
  constructor
  · rfl
  · exact rereads_relative.nullField (fun _ => Json.noConfusion) relative rfl
  · exact rereads_date.nullField (fun _ => Json.noConfusion) on rfl
  · exact rereads_date.nullField (fun _ => Json.noConfusion) since rfl
  · exact rereads_between.nullField (fun _ => Json.noConfusion) between rfl
  · exact rereads_granularity.nullField (fun _ => Json.noConfusion) granularity
      rfl
  · intro entry listed
    have keys : (dumpPeriodEntries period).map Prod.fst = periodKeys := rfl
    rw [← keys]
    exact List.mem_map_of_mem listed

theorem rereads_period : Rereads readPeriod dumpPeriod := by
  intro json period read
  cases json with
  | dict entries => exact rereads_periodEntries read
  | _ => cases read

theorem rereads_compareTo : Rereads readCompareTo dumpCompareTo := by
  intro json compareTo read
  cases compareTo with
  | period period =>
    unfold readCompareTo at read
    split at read
    · rcases map_eq_ok.mp read with ⟨found, isFound, same⟩
      cases same
      exact map_eq_ok.mpr ⟨period, rereads_periodEntries isFound, rfl⟩
    · cases read
    · cases read
    · cases read
  | previousPeriod => rfl
  | samePeriodLastYear => rfl

theorem readOrderClause_dump (clause : OrderClause) :
    readOrderClause (dumpOrderClause clause) = .ok clause := by
  rcases clause with ⟨member, direction⟩
  cases direction <;> rfl

theorem readRevisionMode_dump (mode : DetailRevisionMode) :
    @readLiteral PlanRule _ revisionModes (.text (revisionModeName mode)) = .ok mode := by
  cases mode <;> rfl

theorem readGrain_dump (grain : Grain) :
    @readLiteral PlanRule _ grains (.text (grainName grain)) = .ok grain := by
  cases grain <;> rfl

theorem readSetMode_dump (mode : SetMode) :
    @readLiteral PlanRule _ setModes (.text (setModeName mode)) = .ok mode := by
  cases mode <;> rfl

section Selections

variable {instants : InstantReader}

theorem rereads_instant : Rereads (readInstant instants) Json.text := by
  intro json printed read
  unfold readInstant at read ⊢
  cases found : instants.read json with
  | none =>
    rw [found] at read
    cases read
  | some text =>
    rw [found] at read
    cases read
    rw [instants.rereads json printed found]

theorem readSelection_of_instant {selection : DetailSelection}
    (instant : readNullable (readInstant instants)
      (dumpNullable .text selection.asOf) = .ok selection.asOf) :
    readDetailSelection instants (dumpDetailSelection selection) = .ok selection := by
  rcases selection with ⟨family, mode, revision, asOf⟩
  apply map_eq_ok.mpr
  refine ⟨((family, mode, revision, asOf), ()), ?_, rfl⟩
  simp only [both_eq_ok]
  exact ⟨⟨rfl, readRevisionMode_dump mode, readNullableText_dump revision, instant⟩, rfl⟩

theorem rereads_selection : Rereads (readDetailSelection instants) dumpDetailSelection := by
  intro json selection read
  apply readSelection_of_instant
  cases json with
  | dict entries =>
    rcases map_eq_ok.mp read with ⟨⟨⟨family, mode, revision, asOf⟩, done⟩, parts, same⟩
    cases same
    simp only [both_eq_ok] at parts
    exact rereads_instant.nullValue (fun _ => Json.noConfusion) parts.1.2.2.2
  | text family =>
    cases read
    rfl
  | _ => cases read

end Selections

end McpAssistant.BusinessQuery.PartsRoundTrip
