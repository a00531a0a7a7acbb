import McpAssistant.BusinessQuery.GroupedPaging

/-!
# The cursor of a first answer

The seal mints a page cursor with the first answer it truncates.  The cursor
carries no position and no offset, so the page executed from it answers the
whole result again, from its first row.
-/

namespace McpAssistant.BusinessQuery.CursorHandover

open Definitions QueryPlan FilterEvaluation Keyset KeysetEvaluation
  FilterCompilation GroupedStatement GroupedPaging Foundations.KeysetPaging
  Foundations.Grouping

section Results

variable {Row Key : Type} [LinearOrder Key] (parts : CompilerParts)
  (bundle : DefinitionBundle) (database : SourceDatabase Row Key)

/-- The source rows behind each row of an answer: one by one, by group, or all
of them. -/
def statementGroups (plan : PlanNode) (kept : List Row) : List (List Row) :=
  match plan.grain with
  | .entityRows => kept.map fun row => [row]
  | .grouped => groupsBy (groupKey parts database plan) kept
  | .scalar => [kept]

/-- The rows of a plan's whole result, each as its source rows. -/
def resultRows (plan : PlanNode) (table : List Row) : List (List Row) :=
  (statementGroups parts database plan (table.filter fun row =>
    decide (Passes (rowDatabase parts database plan) (spelling parts bundle)
      plan.filters row))).filter fun group =>
        decide (Passes (groupDatabase parts database plan)
          (spelling parts bundle) plan.having group)

def InOrder (plan : PlanNode) (order : List OrderClause) (answer : List (List Row)) : Prop :=
  answer.Pairwise fun first second =>
    ¬Precedes (orderColumns (groupDatabase parts database plan) order) second first

instance (plan : PlanNode) (order : List OrderClause) (answer : List (List Row)) :
    Decidable (InOrder parts database plan order answer) :=
  inferInstanceAs (Decidable (List.Pairwise _ _))

/-- What the database may answer to the plan itself, before its limit. -/
def FirstAnswer (plan : PlanNode) (table : List Row) (answer : List (List Row)) : Prop :=
  answer.Perm (resultRows parts bundle database plan table) ∧
    InOrder parts database plan plan.order answer

end Results

/-- What the execution reports to the seal. -/
structure ExecutionFacts (Row : Type) where
  rows : List (List Row)
  totalRowCount : Nat
  truncated : Bool
  pageable : Bool

section Execute

variable {Row Key : Type} [LinearOrder Key] (parts : CompilerParts)
  (bundle : DefinitionBundle) (database : SourceDatabase Row Key)
  (plan : BusinessQueryPlan)

def shownFirst (answer : List (List Row)) : List (List Row) :=
  let rows := answer.take plan.limit
  match plan.grain, rows with
  | .scalar, first :: _ =>
    if (answerColumns plan.toPlanNode).all fun member =>
        (groupValue parts database plan.toPlanNode first member).isNone then
      []
    else
      rows
  | _, rows => rows

def executePlan (answer : List (List Row)) : ExecutionFacts Row :=
  let rows := shownFirst parts database plan answer
  let total :=
    if plan.grain = .scalar ∨ rows = [] then rows.length else answer.length
  { rows := rows
    totalRowCount := total
    truncated := decide (rows.length < total)
    pageable := planIsPageable plan.toPlanNode bundle }

end Execute

structure StoredRow where
  answerQueryId : String
  planFingerprint : String
  policyHash : String
  bundleHash : String
  expiresAt : Int
  totalRowCount : Option Nat

structure ResultPageCursor where
  answerQueryId : String
  planFingerprint : String
  policyHash : String
  bundleHash : String
  expiresAt : Int
  keysetPosition : KeysetPosition := []
  pageSize : Nat
  totalRowCount : Option Nat
  offsetRowCount : Nat := 0
  validSize : 1 ≤ pageSize ∧ pageSize ≤ 50

/-- What the seal is given: whether cursors are minted, the plan store, if any,
with the row it keeps when the save succeeds, and the signing secret. -/
structure SealPorts where
  mintPageCursor : Bool
  planStore : Option (Option StoredRow)
  paginationSecret : Option String

/-- The secret, unless it is missing or empty. -/
def SealPorts.secret (ports : SealPorts) : Option String :=
  ports.paginationSecret.filter fun secret => secret ≠ ""

section Seal

variable {Row : Type}

def shouldMintCursor (ports : SealPorts) (plan : BusinessQueryPlan)
    (facts : ExecutionFacts Row) : Bool :=
  ports.mintPageCursor && facts.pageable &&
    (facts.truncated || decide (facts.rows.length < facts.totalRowCount)) &&
    plan.derivedSets.isEmpty

/-- Mints from the stored row; a page size outside its bounds fails as a save
does, and leaves the answer without a cursor. -/
def mintCursor (stored : StoredRow) (pageSize : Nat) : Option ResultPageCursor :=
  if validSize : 1 ≤ pageSize ∧ pageSize ≤ 50 then
    some {
      answerQueryId := stored.answerQueryId
      planFingerprint := stored.planFingerprint
      policyHash := stored.policyHash
      bundleHash := stored.bundleHash
      expiresAt := stored.expiresAt
      pageSize := pageSize
      totalRowCount := stored.totalRowCount
      validSize := validSize }
  else
    none

/-- The cursor sealed with a first answer. -/
def sealCursor (ports : SealPorts) (plan : BusinessQueryPlan)
    (facts : ExecutionFacts Row) : Except String (Option ResultPageCursor) :=
  let mints := shouldMintCursor ports plan facts
  match ports.planStore with
  | none => .ok none
  | some saved =>
    if plan.grain ≠ .scalar ∨ mints then
      if mints && ports.secret.isNone then
        .error "pagination_secret is required to mint a result page cursor"
      else
        match saved with
        | none => .ok none
        | some stored =>
          .ok (if mints then mintCursor stored facts.rows.length else none)
    else
      .ok none

end Seal

section Handover

variable {Row Key : Type} [LinearOrder Key] (parts : CompilerParts)
  (bundle : DefinitionBundle) (database : SourceDatabase Row Key)
  (plan : BusinessQueryPlan) (table : List Row)

/-- What the database may answer to a cursor's page, before its limit. -/
def CursorAnswer (cursor : ResultPageCursor) (answer : List (List Row)) : Prop :=
  ∃ page, applyKeysetToPlan plan bundle cursor.keysetPosition cursor.pageSize = .ok page ∧
    answer.Perm (resultRows parts bundle database page.toPlanNode table) ∧
    InOrder parts database page.toPlanNode page.order answer

structure HandsOver (shown : List (List Row)) (cursor : ResultPageCursor) : Prop where
  counts : cursor.offsetRowCount = shown.length
  follows : ∀ answer, CursorAnswer parts bundle database plan table cursor answer →
      ∃ rest, (shown ++ answer.take cursor.pageSize ++ rest).Perm
        (resultRows parts bundle database plan.toPlanNode table) ∧
        ∀ row ∈ answer.take cursor.pageSize, ∀ later ∈ rest,
          ¬Precedes (pageColumns parts bundle database plan) later row

structure SealsCursor (ports : SealPorts) : Prop where
  minting : ports.mintPageCursor = true
  stored : ∃ row, ports.planStore = some (some row)
  signed : ports.secret ≠ none
  pageable : planIsPageable plan.toPlanNode bundle = true
  whole : plan.derivedSets.isEmpty = true
  rows : plan.grain ≠ .scalar
  longer : plan.limit < (resultRows parts bundle database plan.toPlanNode table).length

end Handover

section Exact

variable {Row Key : Type} [LinearOrder Key] {parts : CompilerParts}
  {bundle : DefinitionBundle} {database : SourceDatabase Row Key}
  {plan : BusinessQueryPlan} {table : List Row} {ports : SealPorts}
  {answer : List (List Row)}

omit [LinearOrder Key] in
theorem shownFirst_rows (rows : plan.grain ≠ .scalar) :
    shownFirst parts database plan answer = answer.take plan.limit := by
  unfold shownFirst
  dsimp only
  split
  · rename_i isScalar _
    exact absurd isScalar rows
  · rfl

omit [LinearOrder Key] in
theorem executePlan_withholds_iff (limited : 1 ≤ plan.limit) :
    (executePlan parts bundle database plan answer).rows.length <
        (executePlan parts bundle database plan answer).totalRowCount ↔
      plan.grain ≠ .scalar ∧ plan.limit < answer.length := by
  show (shownFirst parts database plan answer).length <
    (if plan.grain = .scalar ∨ shownFirst parts database plan answer = [] then
      (shownFirst parts database plan answer).length
    else answer.length) ↔ _
  by_cases scalar : plan.grain = .scalar
  · simp [scalar]
  · rw [shownFirst_rows scalar]
    have never : answer.take plan.limit = [] ↔ answer = [] := by
      rw [List.take_eq_nil_iff]
      exact or_iff_right (Nat.ne_of_gt limited)
    simp only [scalar, false_or, never, ne_eq, not_false_eq_true, true_and, List.length_take]
    split
    · rename_i empty
      rw [empty]
      simp
    · omega

omit [LinearOrder Key] in
theorem shouldMintCursor_executePlan (limited : 1 ≤ plan.limit) :
    shouldMintCursor ports plan (executePlan parts bundle database plan answer) = true ↔
      ports.mintPageCursor = true ∧ planIsPageable plan.toPlanNode bundle = true ∧
        plan.derivedSets.isEmpty = true ∧ plan.grain ≠ .scalar ∧
        plan.limit < answer.length := by
  have withholds := @executePlan_withholds_iff Row Key parts bundle database plan answer limited
  have truncated : (executePlan parts bundle database plan answer).truncated =
        decide ((executePlan parts bundle database plan answer).rows.length <
          (executePlan parts bundle database plan answer).totalRowCount) := rfl
  have pageable : (executePlan parts bundle database plan answer).pageable =
      planIsPageable plan.toPlanNode bundle := rfl
  rw [shouldMintCursor, truncated, Bool.or_self, pageable]
  simp only [Bool.and_eq_true, decide_eq_true_eq, withholds]
  constructor
  · rintro ⟨⟨⟨minting, isPageable⟩, longer⟩, whole⟩
    exact ⟨minting, isPageable, whole, longer⟩
  · rintro ⟨minting, isPageable, whole, longer⟩
    exact ⟨⟨⟨minting, isPageable⟩, longer⟩, whole⟩

theorem sealCursor_eq_some {facts : ExecutionFacts Row} {cursor : ResultPageCursor}
    (minted : sealCursor ports plan facts = .ok (some cursor)) :
    shouldMintCursor ports plan facts = true ∧ ports.secret ≠ none ∧
      (∃ row, ports.planStore = some (some row)) ∧
      cursor.keysetPosition = [] ∧ cursor.offsetRowCount = 0 ∧
      cursor.pageSize = facts.rows.length := by
  unfold sealCursor at minted
  dsimp only at minted
  split at minted
  · cases minted
  · rename_i saved stored
    split at minted
    · split at minted
      · cases minted
      · rename_i secretFits
        split at minted
        · cases minted
        · rename_i row
          have inner := Except.ok.inj minted
          split at inner
          · rename_i mints
            rw [mintCursor] at inner
            split at inner
            · have fields := Option.some.inj inner
              rw [← fields]
              refine ⟨mints, ?_, ⟨row, stored⟩, rfl, rfl, rfl⟩
              intro missing
              exact secretFits (by simp [mints, missing])
            · cases inner
          · cases inner
    · cases minted

theorem exists_sealedCursor_iff (limited : 1 ≤ plan.limit ∧ plan.limit ≤ 50)
    (first : FirstAnswer parts bundle database plan.toPlanNode table answer) :
    (∃ cursor, sealCursor ports plan
        (executePlan parts bundle database plan answer) = .ok (some cursor)) ↔
      SealsCursor parts bundle database plan table ports := by
  have size := first.1.length_eq
  constructor
  · rintro ⟨cursor, minted⟩
    obtain ⟨mints, signed, stored, -⟩ := sealCursor_eq_some minted
    obtain ⟨minting, pageable, whole, rows, longer⟩ :=
      (shouldMintCursor_executePlan limited.1).mp mints
    exact ⟨minting, stored, signed, pageable, whole, rows, size ▸ longer⟩
  · rintro ⟨minting, ⟨row, stored⟩, signed, pageable, whole, rows, longer⟩
    have long : plan.limit < answer.length := size ▸ longer
    have mints := (@shouldMintCursor_executePlan Row Key parts bundle database
      plan ports answer limited.1).mpr ⟨minting, pageable, whole, rows, long⟩
    have shown : (executePlan parts bundle database plan answer).rows.length =
        plan.limit := by
      show (shownFirst parts database plan answer).length = _
      rw [shownFirst_rows rows]
      exact List.length_take_of_le (Nat.le_of_lt long)
    have present : ports.secret.isNone = false :=
      Option.isNone_eq_false_iff.mpr (Option.isSome_iff_ne_none.mpr signed)
    unfold sealCursor
    dsimp only
    rw [stored, mints]
    dsimp only
    rw [present, if_pos (.inr rfl), mintCursor, shown, dif_pos limited]
    exact ⟨_, rfl⟩

/-- A first answer hands over only when no cursor is sealed with it: a sealed
cursor counts no row as shown, though the answer shows some. -/
theorem sealedCursor_handsOver_iff (limited : 1 ≤ plan.limit ∧ plan.limit ≤ 50)
    (first : FirstAnswer parts bundle database plan.toPlanNode table answer) :
    (∀ cursor, sealCursor ports plan
        (executePlan parts bundle database plan answer) = .ok (some cursor) →
      HandsOver parts bundle database plan table (shownFirst parts database plan answer) cursor) ↔
      ¬SealsCursor parts bundle database plan table ports := by
  rw [← exists_sealedCursor_iff limited first]
  constructor
  · rintro handsOver ⟨cursor, minted⟩
    have counts := (handsOver cursor minted).counts
    obtain ⟨-, -, -, -, offset, size⟩ := sealCursor_eq_some minted
    have shown : cursor.pageSize = (shownFirst parts database plan answer).length := size
    have positive := cursor.validSize.1
    rw [shown, ← counts, offset] at positive
    exact absurd positive (by decide)
  · intro none cursor minted
    exact absurd ⟨cursor, minted⟩ none

end Exact

def oneYear : BusinessQueryPlan :=
  { totalsByYear with limit := 1 }

def sealPorts : SealPorts where
  mintPageCursor := true
  planStore := some (some ⟨"answer-1", "plan-1", "policy", "sha256:invoices", 86400, some 2⟩)
  paginationSecret := some "secret"

theorem oneYear_firstAnswer :
    FirstAnswer invoiceParts invoiceBundle invoiceDatabase oneYear.toPlanNode
      invoices [firstYear, secondYear] := by
  constructor
  · decide
  · decide

theorem sealedCursor_handsOver_iff_oneYear : (∀ cursor, sealCursor sealPorts oneYear
        (executePlan invoiceParts invoiceBundle invoiceDatabase oneYear
          [firstYear, secondYear]) = .ok (some cursor) →
      HandsOver invoiceParts invoiceBundle invoiceDatabase oneYear invoices
        (shownFirst invoiceParts invoiceDatabase oneYear [firstYear, secondYear]) cursor) ↔
      ¬SealsCursor invoiceParts invoiceBundle invoiceDatabase oneYear invoices
        sealPorts :=
  sealedCursor_handsOver_iff ⟨by decide, by decide⟩ oneYear_firstAnswer

def oneYearCursor : ResultPageCursor where
  answerQueryId := "answer-1"
  planFingerprint := "plan-1"
  policyHash := "policy"
  bundleHash := "sha256:invoices"
  expiresAt := 86400
  pageSize := 1
  totalRowCount := some 2
  validSize := ⟨Nat.le_refl 1, by decide⟩

/-- The first year is shown, and the page of the sealed cursor shows it
again. -/
theorem sealedCursor_repeats_firstYear : sealCursor sealPorts oneYear
        (executePlan invoiceParts invoiceBundle invoiceDatabase oneYear
          [firstYear, secondYear]) = .ok (some oneYearCursor) ∧
      shownFirst invoiceParts invoiceDatabase oneYear [firstYear, secondYear] = [firstYear] ∧
      CursorAnswer invoiceParts invoiceBundle invoiceDatabase oneYear invoices
        oneYearCursor [firstYear, secondYear] ∧
      [firstYear, secondYear].take oneYearCursor.pageSize = [firstYear] ∧
      ¬HandsOver invoiceParts invoiceBundle invoiceDatabase oneYear invoices
        [firstYear] oneYearCursor := by
  refine ⟨rfl, rfl, ⟨_, rfl, by decide, by decide⟩, rfl, ?_⟩
  intro handsOver
  exact absurd handsOver.counts (by decide)

end McpAssistant.BusinessQuery.CursorHandover
