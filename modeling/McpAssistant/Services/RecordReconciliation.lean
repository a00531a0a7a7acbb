import Mathlib.Data.List.Induction

/-!
# The record of a query

A query's record is opened once and written again by every later delivery for the same
correlation.  A later delivery refreshes the terminal columns and fills the ones that are
still empty.
-/

namespace McpAssistant.Services.RecordReconciliation

open List

inductive ColumnValue where
  | text (value : String)
  | integer (value : Int)
  | boolean (value : Bool)
  | decimal (value : Rat)
  | moment (value : Int)
deriving DecidableEq

/-- The columns of a row or a payload, by name; none is NULL. -/
abbrev Columns := String → Option ColumnValue

/-- What a delivery says of a query; all but its identity is optional. -/
structure QueryRecordData where
  correlationId : String
  projectId : String
  environment : String
  optional : Columns

def QueryRecordData.modelDump (record : QueryRecordData) : Columns :=
  let identity := Function.update record.optional "correlation_id"
    (some (.text record.correlationId))
  let project := Function.update identity "project_id" (some (.text record.projectId))
  Function.update project "environment" (some (.text record.environment))

def terminalReconcileFields : List String := [
  "terminal_outcome",
  "ui_first_text_ms",
  "completion_latency_ms",
  "model",
  "provider",
  "input_tokens",
  "output_tokens",
  "reasoning_tokens",
  "estimated_usd",
  "cost_status",
  "price_table_version",
  "resolver_query_id",
  "resolver_disposition",
  "row_count",
  "bq_trace_json",
  "stable_error_code",
  "timeout",
  "cancelled"
]

def reconcileNeverFields : List String := ["correlation_id", "created_at"]

/-- The columns a second delivery writes, and what it writes: none leaves a column alone,
and NULL is a value. -/
def reconcilableValues (payload existing : Columns) : String → Option (Option ColumnValue) :=
  let values := fun key =>
    if (payload key).isSome && !reconcileNeverFields.contains key &&
        (terminalReconcileFields.contains key || (existing key).isNone) then
      some (payload key)
    else
      none
  let withdrawn :=
    if payload "cost_status" = some (.text "unknown") then
      Function.update values "estimated_usd" (some none)
    else
      values
  if (payload "model").isSome then
    Function.update withdrawn "provider" (some (payload "provider"))
  else
    withdrawn

/-- What an execution reserves a record with. -/
structure Reservation where
  correlationId : String
  projectId : String := "default"
  environment : String := "development"
  question : Option String := none
  requestedRoute : Option String := none
  threadId : Option String := none
  subjectDigest : Option String := none
  entityId : Option String := none

def Reservation.columns (reservation : Reservation) : Columns
  | "correlation_id" => some (.text reservation.correlationId)
  | "project_id" => some (.text reservation.projectId)
  | "environment" => some (.text reservation.environment)
  | "raw_question" => (reservation.question.filter (· ≠ "")).map .text
  | "requested_route" => reservation.requestedRoute.map .text
  | "thread_id" => reservation.threadId.map .text
  | "subject_digest" => reservation.subjectDigest.map .text
  | "entity_id" => reservation.entityId.map .text
  | "terminal_outcome" => some (.text "pending")
  | _ => none

/-- What reaches the record of one correlation. -/
inductive Delivery where
  | insert (record : QueryRecordData)
  | reserve (reservation : Reservation)

def openRow (now : ColumnValue) : Delivery → Columns
  | .insert record => fun key =>
    if key = "created_at" then (record.modelDump key).or (some now)
    else record.modelDump key
  | .reserve reservation => fun key =>
    if key = "created_at" then some now else reservation.columns key

/-- The row after another delivery. -/
def reconcile (existing : Columns) : Delivery → Columns
  | .insert record => fun key =>
    (reconcilableValues record.modelDump existing key).getD (existing key)
  | .reserve _ => existing

def stored (now : ColumnValue) (first : Delivery) (later : List Delivery) : Columns :=
  later.foldl reconcile (openRow now first)

def Delivery.carried : Delivery → Columns
  | .insert record => record.modelDump
  | .reserve _ => fun _ => none

variable {key : String}

theorem reconcilableValues_of_ne (payload existing : Columns)
    (notPrice : key ≠ "estimated_usd") (notProvider : key ≠ "provider") :
    reconcilableValues payload existing key =
      if (payload key).isSome && !reconcileNeverFields.contains key &&
          (terminalReconcileFields.contains key || (existing key).isNone) then
        some (payload key)
      else
        none := by
  rw [reconcilableValues]
  split
  · rw [Function.update_of_ne notProvider]
    split
    · rw [Function.update_of_ne notPrice]
    · rfl
  · split
    · rw [Function.update_of_ne notPrice]
    · rfl

/-- A price is delivered, or withdrawn as unknown, or left alone. -/
theorem reconcilableValues_price (payload existing : Columns) :
    reconcilableValues payload existing "estimated_usd" =
      if payload "cost_status" = some (.text "unknown") then some none
      else if (payload "estimated_usd").isSome then some (payload "estimated_usd")
      else none := by
  have notProvider : "estimated_usd" ≠ "provider" := by decide
  by_cases unknown : payload "cost_status" = some (.text "unknown")
  · rw [reconcilableValues, if_pos unknown, if_pos unknown]
    split
    · rw [Function.update_of_ne notProvider, Function.update_self]
    · rw [Function.update_self]
  · rw [reconcilableValues, if_neg unknown, if_neg unknown]
    split
    · rw [Function.update_of_ne notProvider]
      simp [reconcileNeverFields, terminalReconcileFields]
    · simp [reconcileNeverFields, terminalReconcileFields]

/-- A provider moves with a model, and without one where it is delivered. -/
theorem reconcilableValues_provider (payload existing : Columns) :
    reconcilableValues payload existing "provider" =
      if (payload "model").isSome || (payload "provider").isSome then
        some (payload "provider")
      else
        none := by
  rw [reconcilableValues]
  by_cases named : (payload "model").isSome = true
  · rw [if_pos named, Function.update_self, named]
    rfl
  · rw [if_neg named]
    rw [Bool.not_eq_true] at named
    rw [named, Bool.false_or]
    split
    · rw [Function.update_of_ne (by decide)]
      simp [reconcileNeverFields, terminalReconcileFields]
    · simp [reconcileNeverFields, terminalReconcileFields]

variable {existing : Columns} {value : ColumnValue}

theorem reconcile_keeps (delivery : Delivery) (other : key ∉ terminalReconcileFields)
    (filled : existing key = some value) : reconcile existing delivery key = some value := by
  have notPrice : key ≠ "estimated_usd" := by
    rintro rfl
    exact other (by decide)
  have notProvider : key ≠ "provider" := by
    rintro rfl
    exact other (by decide)
  cases delivery with
  | reserve reservation => exact filled
  | insert record =>
    show (reconcilableValues _ _ key).getD _ = _
    rw [reconcilableValues_of_ne _ _ notPrice notProvider, if_neg, Option.getD_none, filled]
    simp [other, filled]

theorem reconcile_refreshes (existing : Columns) (delivery : Delivery)
    (terminal : key ∈ terminalReconcileFields) (notPrice : key ≠ "estimated_usd")
    (notProvider : key ≠ "provider") :
    reconcile existing delivery key = (delivery.carried key).or (existing key) := by
  have never : key ∉ reconcileNeverFields := by
    intro isNever
    have disjoint : ∀ name ∈ reconcileNeverFields, name ∉ terminalReconcileFields := by
      decide
    exact disjoint key isNever terminal
  cases delivery with
  | reserve reservation => rfl
  | insert record =>
    show (reconcilableValues _ _ key).getD _ = (record.modelDump key).or _
    rw [reconcilableValues_of_ne _ _ notPrice notProvider]
    cases record.modelDump key with
    | none => rfl
    | some value => simp [terminal, never]

def Delivery.PricesWithStatus (delivery : Delivery) : Prop :=
  delivery.carried "estimated_usd" ≠ none →
    ∃ status, delivery.carried "cost_status" = some status ∧ status ≠ .text "unknown"

def Delivery.NamesProviderWithModel (delivery : Delivery) : Prop :=
  delivery.carried "provider" ≠ none → delivery.carried "model" ≠ none

def latest (deliveries : List Delivery) (key : String) : Option ColumnValue :=
  deliveries.reverse.findSome? fun delivery => delivery.carried key

def lastNaming (deliveries : List Delivery) : Option Delivery :=
  deliveries.reverse.find? fun delivery => (delivery.carried "model").isSome

def Priced (row : Columns) : Prop :=
  row "estimated_usd" ≠ none → row "cost_status" ≠ some (.text "unknown")

variable {now : ColumnValue} {delivery : Delivery}

theorem openRow_carried (column : key ∈ ["model", "provider", "estimated_usd", "cost_status"]) :
    openRow now delivery key = delivery.carried key := by
  have notCreated : key ≠ "created_at" := by
    rintro rfl
    exact absurd column (by decide)
  cases delivery with
  | insert record => exact if_neg notCreated
  | reserve reservation =>
    refine (if_neg notCreated).trans ?_
    simp only [mem_cons, not_mem_nil, or_false] at column
    rcases column with rfl | rfl | rfl | rfl <;> rfl

theorem openRow_priced (prices : delivery.PricesWithStatus) : Priced (openRow now delivery) := by
  intro priced
  rw [openRow_carried (by decide)] at priced ⊢
  rcases prices priced with ⟨status, isStatus, known⟩
  rw [isStatus]
  intro unknown
  exact known (Option.some.inj unknown)

theorem reconcile_priced (prices : delivery.PricesWithStatus) (priced : Priced existing) :
    Priced (reconcile existing delivery) := by
  cases delivery with
  | reserve reservation => exact priced
  | insert record =>
    intro hasPrice
    have status := reconcile_refreshes existing (.insert record)
      (show "cost_status" ∈ terminalReconcileFields by decide) (by decide) (by decide)
    change record.modelDump "estimated_usd" ≠ none → ∃ status,
      record.modelDump "cost_status" = some status ∧ status ≠ .text "unknown" at prices
    change reconcile existing (.insert record) "cost_status" =
      (record.modelDump "cost_status").or (existing "cost_status") at status
    rw [status]
    change (reconcilableValues record.modelDump existing "estimated_usd").getD _ ≠ none at hasPrice
    rw [reconcilableValues_price] at hasPrice
    split at hasPrice
    · exact absurd rfl hasPrice
    · rename_i known
      cases carried : record.modelDump "cost_status" with
      | some value =>
        rw [carried] at known
        exact known
      | none =>
        have noPrice : record.modelDump "estimated_usd" = none := by
          by_contra given
          rcases prices given with ⟨value, isValue, -⟩
          rw [carried] at isValue
          cases isValue
        rw [noPrice] at hasPrice
        exact priced hasPrice

theorem reconcile_named {existing : Columns} {delivery : Delivery}
    (names : delivery.NamesProviderWithModel) :
    reconcile existing delivery "model" =
        (if (delivery.carried "model").isSome then delivery.carried "model" else existing "model") ∧
      reconcile existing delivery "provider" =
        (if (delivery.carried "model").isSome then delivery.carried "provider"
          else existing "provider") := by
  constructor
  · rw [reconcile_refreshes existing delivery (by decide) (by decide) (by decide)]
    cases delivery.carried "model" <;> rfl
  · cases delivery with
    | reserve reservation => rfl
    | insert record =>
      change (reconcilableValues record.modelDump existing "provider").getD _ = _
      rw [reconcilableValues_provider]
      change record.modelDump "provider" ≠ none → record.modelDump "model" ≠ none at names
      show _ = if (record.modelDump "model").isSome then _ else _
      by_cases named : (record.modelDump "model").isSome = true
      · rw [if_pos (by rw [named, Bool.true_or]), if_pos named]
        rfl
      · have noProvider : record.modelDump "provider" = none := by
          by_contra given
          exact named (Option.isSome_iff_ne_none.mpr (names given))
        rw [if_neg named, noProvider, if_neg]
        · rfl
        · rw [Option.isSome_none, Bool.or_false]
          exact named

theorem stored_concat (now : ColumnValue) (first : Delivery) (later : List Delivery)
    (delivery : Delivery) :
    stored now first (later ++ [delivery]) = reconcile (stored now first later) delivery := by
  rw [stored, foldl_append, stored]
  rfl

/-- What is stored after some deliveries and then others. -/
theorem stored_append (now : ColumnValue) (first : Delivery) (earlier rest : List Delivery) :
    stored now first (earlier ++ rest) = rest.foldl reconcile (stored now first earlier) := by
  rw [stored, foldl_append, stored]

theorem reconcile_again (existing : Columns) (delivery : Delivery) :
    reconcile (reconcile existing delivery) delivery = reconcile existing delivery := by
  cases delivery with
  | reserve reservation => rfl
  | insert record =>
    funext key
    by_cases price : key = "estimated_usd"
    · simp only [price, reconcile, reconcilableValues_price]
      split_ifs <;> rfl
    · by_cases provider : key = "provider"
      · simp only [provider, reconcile, reconcilableValues_provider]
        split_ifs <;> rfl
      · simp only [reconcile, reconcilableValues_of_ne _ _ price provider]
        split_ifs with fills _ again
        · rfl
        · rfl
        · exact absurd again fills
        · rfl

theorem latest_concat (deliveries : List Delivery) (delivery : Delivery) (key : String) :
    latest (deliveries ++ [delivery]) key = (delivery.carried key).or (latest deliveries key) := by
  rw [latest, reverse_concat, List.findSome?_cons, latest]
  cases delivery.carried key <;> rfl

theorem lastNaming_concat (deliveries : List Delivery) (delivery : Delivery) :
    lastNaming (deliveries ++ [delivery]) =
      if (delivery.carried "model").isSome then some delivery else lastNaming deliveries := by
  rw [lastNaming, reverse_concat, List.find?_cons, lastNaming]
  cases (delivery.carried "model").isSome <;> rfl

theorem foldl_keeps {row : Columns} (rest : List Delivery) (other : key ∉ terminalReconcileFields)
    (filled : row key = some value) : rest.foldl reconcile row key = some value := by
  induction rest generalizing row with
  | nil => exact filled
  | cons delivery rest ih => exact ih (reconcile_keeps delivery other filled)

theorem foldl_refreshes (row : Columns) (rest : List Delivery)
    (terminal : key ∈ terminalReconcileFields) (notPrice : key ≠ "estimated_usd")
    (notProvider : key ≠ "provider") :
    rest.foldl reconcile row key = (latest rest key).or (row key) := by
  induction rest using List.reverseRecOn with
  | nil => rfl
  | append_singleton rest delivery ih =>
    rw [foldl_append, foldl_cons, foldl_nil,
      reconcile_refreshes _ _ terminal notPrice notProvider, ih,
      latest_concat, Option.or_assoc]

variable {later : List Delivery}

theorem stored_priced {first : Delivery}
    (prices : ∀ delivery ∈ first :: later, delivery.PricesWithStatus) :
    Priced (stored now first later) := by
  induction later using List.reverseRecOn with
  | nil => exact openRow_priced (prices first mem_cons_self)
  | append_singleton later delivery ih =>
    rw [stored_concat]
    apply reconcile_priced
    · apply prices
      simp
    · apply ih
      intro other member
      apply prices
      rw [← cons_append]
      exact mem_append_left _ member

theorem stored_named {first : Delivery}
    (names : ∀ delivery ∈ first :: later, delivery.NamesProviderWithModel) :
    stored now first later "model" =
        (lastNaming (first :: later)).bind (·.carried "model") ∧
      stored now first later "provider" =
        (lastNaming (first :: later)).bind (·.carried "provider") := by
  induction later using List.reverseRecOn with
  | nil =>
    have own := names first mem_cons_self
    have found := lastNaming_concat [] first
    change lastNaming [first] = if _ then _ else none at found
    have model : openRow now first "model" = first.carried "model" := openRow_carried (by decide)
    have provider : openRow now first "provider" = first.carried "provider" :=
      openRow_carried (by decide)
    rw [found]
    change openRow now first "model" = _ ∧ openRow now first "provider" = _
    rw [model, provider]
    by_cases named : (first.carried "model").isSome = true
    · rw [if_pos named]
      exact ⟨rfl, rfl⟩
    · rw [if_neg named]
      rw [Option.not_isSome_iff_eq_none] at named
      refine ⟨named, ?_⟩
      by_contra given
      exact own given named
  | append_singleton later delivery ih =>
    have earlier : ∀ other ∈ first :: later, other.NamesProviderWithModel := by
      intro other member
      apply names
      rw [← cons_append]
      exact mem_append_left _ member
    rcases ih earlier with ⟨model, provider⟩
    rcases @reconcile_named (stored now first later) delivery
      (names delivery (by simp)) with ⟨newModel, newProvider⟩
    rw [stored_concat, newModel, newProvider, model, provider, ← cons_append, lastNaming_concat]
    split
    · exact ⟨rfl, rfl⟩
    · exact ⟨rfl, rfl⟩

/-- What holds of a record whatever deliveries reach it, in whatever order. -/
structure OrderSafe (now : ColumnValue) (first : Delivery) (later : List Delivery) : Prop where
  /-- A column that is not terminal is not changed any more once it is filled. -/
  keeps : ∀ earlier rest, later = earlier ++ rest → ∀ key ∉ terminalReconcileFields,
    ∀ value, stored now first earlier key = some value → stored now first later key = some value
  /-- A terminal column is changed by the last delivery that carries a value for it, and
  by no other; the price and the provider are not meant here. -/
  refreshes : ∀ earlier rest, later = earlier ++ rest →
    ∀ key ∈ terminalReconcileFields, key ≠ "estimated_usd" → key ≠ "provider" →
      stored now first later key = (latest rest key).or (stored now first earlier key)
  /-- Where prices come with a known status, none is stored next to an unknown one. -/
  priced : (∀ delivery ∈ first :: later, delivery.PricesWithStatus) →
    Priced (stored now first later)
  /-- Where providers come with a model, the stored one comes from the delivery that named
  the stored model. -/
  named : (∀ delivery ∈ first :: later, delivery.NamesProviderWithModel) →
    stored now first later "model" =
        (lastNaming (first :: later)).bind (·.carried "model") ∧
      stored now first later "provider" =
        (lastNaming (first :: later)).bind (·.carried "provider")

theorem reconciliation_orderSafe (now : ColumnValue) (first : Delivery)
    (later : List Delivery) : OrderSafe now first later where
  keeps := by
    rintro earlier rest rfl key other value filled
    rw [stored_append]
    exact foldl_keeps rest other filled
  refreshes := by
    rintro earlier rest rfl key terminal notPrice notProvider
    rw [stored_append]
    exact foldl_refreshes _ rest terminal notPrice notProvider
  priced := stored_priced
  named := stored_named

/-- A later delivery that comes twice in a row leaves what it leaves once, whatever
comes before and after it. -/
theorem stored_redelivered (now : ColumnValue) (first delivery : Delivery)
    (earlier rest : List Delivery) :
    stored now first (earlier ++ delivery :: delivery :: rest) =
      stored now first (earlier ++ delivery :: rest) := by
  simp only [stored_append, foldl_cons, reconcile_again]

def terminalDelivery (outcome : String) : Delivery :=
  .insert
    { correlationId := "c1"
      projectId := "default"
      environment := "development"
      optional := Function.update (fun _ => none) "terminal_outcome" (some (.text outcome)) }

/-- A terminal outcome is replaced by the one of a later delivery. -/
theorem terminalOutcome_replaced : ¬ ∀ now first earlier rest value,
      stored now first earlier "terminal_outcome" = some (.text value) →
        value ≠ "pending" →
          stored now first (earlier ++ rest) "terminal_outcome" = some (.text value) := by
  intro kept
  have replaced : stored (.moment 0) (terminalDelivery "success") [terminalDelivery "failed"]
      "terminal_outcome" = some (.text "failed") := by
    simp [stored, reconcile, reconcilableValues, openRow, terminalDelivery,
      QueryRecordData.modelDump, Function.update, reconcileNeverFields,
      terminalReconcileFields]
  have same := kept (.moment 0) (terminalDelivery "success") [] [terminalDelivery "failed"]
    "success" rfl (by decide)
  rw [nil_append, replaced] at same
  exact absurd (ColumnValue.text.inj (Option.some.inj same)) (by decide)

end McpAssistant.Services.RecordReconciliation
