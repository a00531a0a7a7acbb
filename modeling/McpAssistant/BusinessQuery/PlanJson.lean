import McpAssistant.BusinessQuery.FilterJson
import McpAssistant.BusinessQuery.QueryPlan
import McpAssistant.Foundations.IsoDate

/-!
# The parts of a plan as JSON

Periods, order clauses, detail selections and comparisons are validated from
raw dictionaries with strict types and no unknown keys, and print with every
field.
-/

namespace McpAssistant.BusinessQuery.PlanJson

open QueryPlan FilterJson Foundations.JsonReading Foundations.IsoDate

structure InstantReader where
  read : Json → Option String
  rereads : ∀ json printed, read json = some printed → read (.text printed) = some printed

/-- A strict reader of Python values takes no text for an instant. -/
def strictPython : InstantReader where
  read _ := none
  rereads _ _ read := nomatch read

def readInstant (instants : InstantReader) (json : Json) : Reading PlanRule String :=
  match instants.read json with
  | some printed => .ok printed
  | none => refuse .wrongType

def relativeRanges : List (String × RelativeRange) :=
  [("today", .today), ("this_week", .thisWeek), ("last_week", .lastWeek),
    ("this_month", .thisMonth), ("last_month", .lastMonth),
    ("this_quarter", .thisQuarter), ("last_quarter", .lastQuarter),
    ("this_year", .thisYear), ("last_year", .lastYear), ("all_time", .allTime)]

def relativeName : RelativeRange → String
  | .today => "today"
  | .thisWeek => "this_week"
  | .lastWeek => "last_week"
  | .thisMonth => "this_month"
  | .lastMonth => "last_month"
  | .thisQuarter => "this_quarter"
  | .lastQuarter => "last_quarter"
  | .thisYear => "this_year"
  | .lastYear => "last_year"
  | .allTime => "all_time"

def granularities : List (String × TimeGranularity) :=
  [("day", .day), ("week", .week), ("month", .month), ("quarter", .quarter), ("year", .year)]

def granularityName : TimeGranularity → String
  | .day => "day"
  | .week => "week"
  | .month => "month"
  | .quarter => "quarter"
  | .year => "year"

/-- A date is an ISO text; strict reading takes nothing else for one. -/
def readDate : Json → Reading PlanRule Int
  | .text value =>
    match fromIsoFormat value with
    | some day => .ok day
    | none => refuse .wrongType
  | _ => refuse .wrongType

def dumpDate (day : Int) : Json := .text (isoFormat day)

/-- Two bounds, as a pair or under `start` and `end`, alone or in a list. -/
def acceptStartEnd : Json → Json
  | .list [.dict entries] => acceptDict entries
  | .dict entries => acceptDict entries
  | json => json
where
  acceptDict (entries : Entries) : Json :=
    match entries.lookup "start", entries.lookup "end" with
    | some first, some last =>
      if entries.all fun entry => ["start", "end"].contains entry.1 then
        .list [first, last]
      else .dict entries
    | _, _ => .dict entries

def readBetween (json : Json) : Reading PlanRule (Int × Int) :=
  match acceptStartEnd json with
  | .list [first, last] => both (readDate first) (readDate last)
  | _ => refuse .wrongType

/-- Exactly one range, and an end that does not precede its start. -/
def oneRange (relative : Option RelativeRange) (on since : Option Int)
    (between : Option (Int × Int)) : Reading PlanRule PeriodRange :=
  match relative, on, since, between with
  | some range, none, none, none => .ok (.relative range)
  | none, some day, none, none => .ok (.on day)
  | none, none, some day, none => .ok (.since day)
  | none, none, none, some (first, last) =>
    if ordered : first ≤ last then .ok (.between first last ordered)
    else refuse (.broken .betweenOrder)
  | _, _, _, _ => refuse (.broken .exactlyOneRange)

def periodKeys : List String :=
  ["time_dimension", "relative", "on", "since", "between", "granularity"]

def readPeriodEntries (entries : Entries) : Reading PlanRule BusinessPeriod := do
  let ((dimension, relative, on, since, between, granularity), _) ← both
    (both (readField entries "time_dimension" none readText)
      (both (readField entries "relative" (some none)
          (readNullable (readLiteral relativeRanges)))
        (both (readField entries "on" (some none) (readNullable readDate))
          (both (readField entries "since" (some none) (readNullable readDate))
            (both (readField entries "between" (some none)
                (readNullable readBetween))
              (readField entries "granularity" (some none)
                (readNullable (readLiteral granularities))))))))
    (forbidExtra periodKeys entries)
  let range ← oneRange relative on since between
  return ⟨dimension, range, granularity⟩

def readPeriod : Json → Reading PlanRule BusinessPeriod
  | .dict entries => readPeriodEntries entries
  | _ => refuse .wrongType

def rangeRelative : PeriodRange → Option RelativeRange
  | .relative range => some range
  | _ => none

def rangeOn : PeriodRange → Option Int
  | .on day => some day
  | _ => none

def rangeSince : PeriodRange → Option Int
  | .since day => some day
  | _ => none

def rangeBetween : PeriodRange → Option (Int × Int)
  | .between first last _ => some (first, last)
  | _ => none

def dumpBounds (bounds : Int × Int) : Json :=
  .list [dumpDate bounds.1, dumpDate bounds.2]

def dumpPeriodEntries (period : BusinessPeriod) : Entries :=
  [("time_dimension", .text period.timeDimension),
    ("relative", dumpNullable (fun range => .text (relativeName range))
      (rangeRelative period.range)),
    ("on", dumpNullable dumpDate (rangeOn period.range)),
    ("since", dumpNullable dumpDate (rangeSince period.range)),
    ("between", dumpNullable dumpBounds (rangeBetween period.range)),
    ("granularity", dumpNullable (fun unit => .text (granularityName unit)) period.granularity)]

def dumpPeriod (period : BusinessPeriod) : Json :=
  .dict (dumpPeriodEntries period)

def readCompareTo : Json → Reading PlanRule CompareTo
  | .dict entries => (readPeriodEntries entries).map .period
  | .text "previous_period" => .ok .previousPeriod
  | .text "same_period_last_year" => .ok .samePeriodLastYear
  | _ => refuse .wrongType

def dumpCompareTo : CompareTo → Json
  | .period period => dumpPeriod period
  | .previousPeriod => .text "previous_period"
  | .samePeriodLastYear => .text "same_period_last_year"

/-- A field under one of its other names, when its own is absent. -/
def renameAlias (field : String) (aliases : List String) (entries : Entries) : Entries :=
  if hasKey entries field then entries
  else
    match aliases.find? (hasKey entries) with
    | none => entries
    | some name =>
      match entries.lookup name with
      | none => entries
      | some value => putKey field value (eraseKey entries name)

def directions : List (String × Direction) := [("asc", .asc), ("desc", .desc)]

def directionName : Direction → String
  | .asc => "asc"
  | .desc => "desc"

def readOrderEntries (raw : Entries) : Reading PlanRule OrderClause :=
  let entries := renameAlias "member" ["measure", "field"] raw
  (both
    (both (readField entries "member" none readText)
      (readField entries "direction" none (readLiteral directions)))
    (forbidExtra ["member", "direction"] entries)).map fun parts =>
      ⟨parts.1.1, parts.1.2⟩

def readOrderClause : Json → Reading PlanRule OrderClause
  | .dict entries => readOrderEntries entries
  | _ => refuse .wrongType

def dumpOrderClause (clause : OrderClause) : Json :=
  .dict [("member", .text clause.member), ("direction", .text (directionName clause.direction))]

def revisionModes : List (String × DetailRevisionMode) :=
  [("recorded", .recorded), ("current", .current), ("as_of", .asOf), ("exact", .exact)]

def revisionModeName : DetailRevisionMode → String
  | .recorded => "recorded"
  | .current => "current"
  | .asOf => "as_of"
  | .exact => "exact"

def selectionKeys : List String :=
  ["family", "revision_mode", "revision_hash", "as_of"]

def readSelectionEntries (instants : InstantReader) (raw : Entries) :
    Reading PlanRule DetailSelection :=
  let entries :=
    renameAlias "family" ["family_id", "family_key", "name", "key"] raw
  (both
    (both (readField entries "family" none readText)
      (both (readField entries "revision_mode" (some .recorded)
          (readLiteral revisionModes))
        (both (readField entries "revision_hash" (some none)
            (readNullable readText))
          (readField entries "as_of" (some none) (readNullable (readInstant instants))))))
    (forbidExtra selectionKeys entries)).map fun parts =>
      ⟨parts.1.1, parts.1.2.1, parts.1.2.2.1, parts.1.2.2.2⟩

/-- A bare text selects the family's recorded revisions. -/
def readDetailSelection (instants : InstantReader) : Json → Reading PlanRule DetailSelection
  | .dict entries => readSelectionEntries instants entries
  | .text family => .ok { family := family }
  | _ => refuse .wrongType

def dumpDetailSelection (selection : DetailSelection) : Json :=
  .dict [("family", .text selection.family),
    ("revision_mode", .text (revisionModeName selection.revisionMode)),
    ("revision_hash", dumpNullable .text selection.revisionHash),
    ("as_of", dumpNullable .text selection.asOf)]

def grains : List (String × Grain) :=
  [("scalar", .scalar), ("grouped", .grouped), ("entity_rows", .entityRows)]

def grainName : Grain → String
  | .scalar => "scalar"
  | .grouped => "grouped"
  | .entityRows => "entity_rows"

def setModes : List (String × SetMode) :=
  [("complete", .complete), ("pick", .pick), ("ranked", .ranked)]

def setModeName : SetMode → String
  | .complete => "complete"
  | .pick => "pick"
  | .ranked => "ranked"

end McpAssistant.BusinessQuery.PlanJson
