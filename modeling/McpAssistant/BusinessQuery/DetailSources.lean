import McpAssistant.BusinessQuery.EvidenceSealing
import McpAssistant.Foundations.JsonReading

/-!
# The signed sources of detail facts

A detail family has signed definitions, one for each revision, and one source: a
view whose rows are facts owned by records of one resource.  Two families may
read the same view by different owners.
-/

namespace McpAssistant.BusinessQuery.DetailSources

open Definitions EvidenceSealing Foundations.JsonReading

inductive DetailValueKind where
  | text
  | string
  | integer
  | decimal
  | boolean
  | date
  | datetime
  | enum
  | money
  | quantity
deriving DecidableEq

inductive DetailCardinality where
  | oneToOne
  | oneToMany
deriving DecidableEq

/-- A definition with the physical names it is read by. -/
structure SignedDetail extends DetailDefinition where
  physicalSource : String
  ownerColumn : String
  valueColumn : String
  valueKind : DetailValueKind
  cardinality : DetailCardinality
  scopeColumns : ScopeColumns
deriving DecidableEq

structure DetailSource where
  familyKey : String
  projectionView : String
  ownerResource : String
  ownerColumn : String
  scopeColumns : ScopeColumns
  typedValueColumn : String
  displayValueColumn : String
  columns : List String := []
deriving DecidableEq

/-- The detail part of a bundle.  Its validation refuses a second source for a
family. -/
structure DetailBundle where
  detailDefinitions : List SignedDetail
  detailSources : List DetailSource
  oneSourceEach : (detailSources.map DetailSource.familyKey).Nodup

def DetailBundle.sourceFor (bundle : DetailBundle) (family : String) : Option DetailSource :=
  bundle.detailSources.find? fun source => source.familyKey = family

/-- The columns of the views that bundles without signed columns were written
for. -/
def detailViewColumns : List (String × List String) := [
  ("ai_v2_bq_job_print_fact",
    ["id", "job_id", "work_order_id", "work_number", "title", "customer_id",
      "customer_order_id", "entity_id", "department_id", "department_name",
      "status", "created_at", "resource_type", "family_key", "attribute_key",
      "revision", "revision_hash", "value_kind", "typed_value", "value_text",
      "value_number", "value_boolean", "value_json", "display_value",
      "validation_state", "source", "provenance"]),
  ("ai_v2_bq_detail_attribute_fact",
    ["id", "resource_type", "resource_id", "entity_id", "department_id",
      "family_key", "attribute_key", "revision", "revision_hash", "value_kind",
      "typed_value", "value_text", "value_number", "value_boolean", "value_json",
      "display_value", "validation_state", "source", "provenance", "raw_value",
      "source_fingerprint", "source_updated_at"])
]

def detailSourceColumns (source : DetailSource) : List String :=
  if source.columns.isEmpty then
    (detailViewColumns.lookup source.projectionView).getD []
  else source.columns

/-- A row of a view, its values by column. -/
abbrev Row := String → CellValue

/-- The views as the engine finds them: the columns each must be registered with,
its physical columns, and the columns of the tables reflected so far.  A view
without physical columns cannot be read. -/
structure Schema where
  sourceContracts : String → Option (List String)
  physicalColumns : String → Option (List String)
  tables : String → Option (List String)

/-- The contents of the views, and the families whose read succeeds. -/
structure Contents where
  rows : String → List Row
  answers : String → Bool

/-- How SQL and Python read and compare what a database holds: the number a
decimal text writes, whether a value is not after an instant, the order of
values, and the JSON a text holds. -/
structure Sql where
  decimal : String → Option Int
  notAfter : CellValue → String → Bool
  atMost : CellValue → CellValue → Bool
  jsonLoads : String → Option Json

section Comparison

variable (sql : Sql)

def Sql.readId : CellValue → CellValue
  | .text value =>
    match sql.decimal value with
    | some number => .integer number
    | none => .text value
  | value => value

/-- SQL equality of two values: of ids by the number they write, and never of a
missing value. -/
def Sql.equals (left right : CellValue) : Bool :=
  left ≠ .null && right ≠ .null && sql.readId left = sql.readId right

variable {sql} {left right : CellValue}

theorem equals_iff : sql.equals left right = true ↔
    left ≠ .null ∧ right ≠ .null ∧ sql.readId left = sql.readId right := by
  unfold Sql.equals
  rw [Bool.and_eq_true, Bool.and_eq_true, decide_eq_true_iff, decide_eq_true_iff,
    decide_eq_true_iff, and_assoc]

end Comparison

end McpAssistant.BusinessQuery.DetailSources
