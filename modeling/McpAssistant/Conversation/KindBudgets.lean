import McpAssistant.Conversation.BudgetedContext

/-!
# The budgets of the kinds of observations

Each kind of observations has a budget of its own, and all of them have one together.
When one is exceeded, the oldest observation is left out, of whatever kind it is.
-/

namespace McpAssistant.Conversation.KindBudgets

open Contracts BudgetedContext Foundations.Loops List

variable {Digest Detail Frame Tool : Type}

section Budgets

variable (counter : ProviderContextCounter Tool) (budget : ContextBudget)

def kindTokens : ToolKind → List (Observation Detail) → Nat
  | .queryBusiness => businessTokens counter
  | .searchDocuments => documentTokens counter
  | .explainSources => restoredTokens counter

def kindLimit : ToolKind → Int
  | .queryBusiness => budget.businessObservationTokens
  | .searchDocuments => budget.documentObservationTokens
  | .explainSources => budget.restoredSourcesTokens

/-- The oldest observation and the ones kept after it exceed the limit of its own kind,
or the total one. -/
def CountsAgainst (oldest : Observation Detail) (newer : List (Observation Detail)) : Prop :=
  (∃ kind, oldest.kind = .action kind ∧
      kindLimit budget kind < kindTokens counter kind (oldest :: newer)) ∨
    budget.observationsTokens < totalObservationTokens counter (oldest :: newer)

def LeavesOutOwn (observations : List (Observation Detail)) : Prop :=
  ∀ oldest newer actionId, (oldest :: newer, Omission.observation actionId) ∈
        ((kindLoop counter budget).run observations).1 →
      CountsAgainst counter budget oldest newer

/-- The same of the builder: what it leaves out for the kinds counts against an exceeded
budget, and what it leaves out after that does not fit the total one. -/
def OmitsForOwnBudget (prompt : CoordinatorContext Digest Frame → List (Observation Detail) →
      List String → List Message)
    (actionSchemas : List (ActionSchema Tool)) (allowedActions : List String)
    (context : CoordinatorContext Digest Frame)
    (observations : List (Observation Detail)) : Prop :=
  let fits history observations := (inputMeasure counter prompt actionSchemas allowedActions
    context history observations).fits counter budget
  fits [] [] = true → LeavesOutOwn counter budget observations ∧ ∀ history retained actionId,
        ((history, retained), Omission.observation actionId) ∈
            ((totalLoop counter budget prompt actionSchemas allowedActions context).run
              ((pruneHistory counter budget.historyTokens context.history).2,
                (kindLoop counter budget).final observations)).1 →
          fits history retained = false

/-- The oldest rows, so many times, are left out. -/
def withoutOldestRows : Nat → List (Observation Detail) → List (Observation Detail)
  | 0, observations => observations
  | count + 1, observations =>
    match dropFirstRows observations with
    | none => observations
    | some (next, _) => withoutOldestRows count next

def withoutAnyRows (observations : List (Observation Detail)) : List (Observation Detail) :=
  observations.map fun observation =>
    if observation.hasPrunableRows then observation.withoutRows else observation

/-- Where leaving out rows is enough for the budgets that rows count against, the newest
observations whose documents are over their limit begin with a document.  Otherwise, with
all rows left out, the newest observations over some limit begin with one that counts
against an exceeded limit. -/
def OldestCounts (observations : List (Observation Detail)) : Prop :=
  ((∃ count, rowsOverBudget counter budget (withoutOldestRows count observations) = false) ∧
      ∀ oldest newer, (oldest :: newer) <:+ observations →
        budget.documentObservationTokens < documentTokens counter (oldest :: newer) →
          oldest.kind = .action .searchDocuments) ∨
    ((∀ count, rowsOverBudget counter budget (withoutOldestRows count observations) = true) ∧
      ∀ oldest newer, (oldest :: newer) <:+ withoutAnyRows observations →
        withinKindBudgets counter budget (oldest :: newer) = false →
          CountsAgainst counter budget oldest newer)

end Budgets

variable {counter : ProviderContextCounter Tool} {budget : ContextBudget}

theorem kindTokens_tail (kind : ToolKind) (oldest : Observation Detail)
    (newer : List (Observation Detail)) :
    kindTokens counter kind newer ≤ kindTokens counter kind (oldest :: newer) := by
  have fewer : ∀ tokens : Observation Detail → Nat, ((newer.filter (isKind kind)).map tokens).sum ≤
        (((oldest :: newer).filter (isKind kind)).map tokens).sum := by
    intro tokens
    rw [filter_cons]
    split
    · rw [map_cons, sum_cons]
      exact Nat.le_add_left _ _
    · exact le_rfl
  cases kind with
  | _ => exact fewer _

theorem totalObservationTokens_tail (oldest : Observation Detail)
    (newer : List (Observation Detail)) :
    totalObservationTokens counter newer ≤ totalObservationTokens counter (oldest :: newer) := by
  have business : businessTokens counter newer ≤ businessTokens counter (oldest :: newer) :=
    kindTokens_tail .queryBusiness oldest newer
  have documents : documentTokens counter newer ≤ documentTokens counter (oldest :: newer) :=
    kindTokens_tail .searchDocuments oldest newer
  have restored : restoredTokens counter newer ≤ restoredTokens counter (oldest :: newer) :=
    kindTokens_tail .explainSources oldest newer
  rw [totalObservationTokens, totalObservationTokens]
  omega

theorem withinKindBudgets_iff (observations : List (Observation Detail)) :
    withinKindBudgets counter budget observations = true ↔
      (∀ kind, kindTokens counter kind observations ≤ kindLimit budget kind) ∧
        totalObservationTokens counter observations ≤ budget.observationsTokens := by
  simp only [withinKindBudgets, Bool.and_eq_true, decide_eq_true_iff]
  constructor
  · rintro ⟨⟨⟨business, documents⟩, restored⟩, total⟩
    refine ⟨?_, total⟩
    rintro (_ | _ | _)
    · exact business
    · exact documents
    · exact restored
  · rintro ⟨kinds, total⟩
    exact ⟨⟨⟨kinds .queryBusiness, kinds .searchDocuments⟩, kinds .explainSources⟩, total⟩

theorem rowsOverBudget_eq_false_iff (observations : List (Observation Detail)) :
    rowsOverBudget counter budget observations = false ↔ (∀ kind, kind ≠ .searchDocuments →
          kindTokens counter kind observations ≤ kindLimit budget kind) ∧
        totalObservationTokens counter observations ≤ budget.observationsTokens := by
  simp only [rowsOverBudget, Bool.or_eq_false_iff, decide_eq_false_iff_not, not_lt]
  constructor
  · rintro ⟨⟨business, restored⟩, total⟩
    refine ⟨?_, total⟩
    rintro (_ | _ | _) other
    · exact business
    · exact absurd rfl other
    · exact restored
  · rintro ⟨kinds, total⟩
    exact ⟨⟨kinds .queryBusiness nofun, kinds .explainSources nofun⟩, total⟩

variable {oldest : Observation Detail} {newer : List (Observation Detail)}

theorem withinKindBudgets_tail
    (within : withinKindBudgets counter budget (oldest :: newer) = true) :
    withinKindBudgets counter budget newer = true := by
  rw [withinKindBudgets_iff] at within ⊢
  constructor
  · intro kind
    exact (Nat.cast_le.mpr (kindTokens_tail kind oldest newer)).trans (within.1 kind)
  · exact (Nat.cast_le.mpr (totalObservationTokens_tail oldest newer)).trans within.2

theorem rowsOverBudget_tail (fits : rowsOverBudget counter budget (oldest :: newer) = false) :
    rowsOverBudget counter budget newer = false := by
  rw [rowsOverBudget_eq_false_iff] at fits ⊢
  constructor
  · intro kind other
    exact (Nat.cast_le.mpr (kindTokens_tail kind oldest newer)).trans (fits.1 kind other)
  · exact (Nat.cast_le.mpr (totalObservationTokens_tail oldest newer)).trans fits.2

/-- A property of the newest observations, down to the ones that are within the budgets. -/
theorem forall_suffix_cons_iff {property : Observation Detail →
      List (Observation Detail) → Prop}
    :
    (∀ first rest, (first :: rest) <:+ (oldest :: newer) → property first rest) ↔
      property oldest newer ∧ ∀ first rest, (first :: rest) <:+ newer → property first rest := by
  constructor
  · intro all
    constructor
    · exact all oldest newer suffix_rfl
    · intro first rest part
      exact all first rest (List.suffix_cons_iff.mpr (.inr part))
  · rintro ⟨whole, parts⟩ first rest part
    rcases List.suffix_cons_iff.mp part with same | part
    · cases same
      exact whole
    · exact parts first rest part

variable {observations : List (Observation Detail)}

theorem leavesOutOwn_of_within (within : withinKindBudgets counter budget observations = true) :
    LeavesOutOwn counter budget observations := by
  have stopped : (kindLoop counter budget).step observations = none := if_pos within
  intro oldest newer actionId recorded
  rw [Loop.run_of_none stopped] at recorded
  cases recorded

theorem leavesOutOwn_nil : LeavesOutOwn counter budget ([] : List (Observation Detail)) := by
  have stopped : (kindLoop counter budget).step ([] : List (Observation Detail)) = none := by
    change pruneToKindBudgets counter budget [] = none
    rw [pruneToKindBudgets]
    split
    · rfl
    · exact ite_self none
  intro oldest newer actionId recorded
  rw [Loop.run_of_none stopped] at recorded
  cases recorded

theorem within_of_rowsOverBudget (beyond : rowsOverBudget counter budget observations = true) :
    withinKindBudgets counter budget observations = false := by
  by_contra within
  rw [Bool.not_eq_false, withinKindBudgets_iff] at within
  have fits := (rowsOverBudget_eq_false_iff observations).mpr
    ⟨fun kind _ => within.1 kind, within.2⟩
  rw [beyond] at fits
  cases fits

theorem leavesOutOwn_rows {next : List (Observation Detail)} {note : Omission}
    (beyond : rowsOverBudget counter budget observations = true)
    (pruned : dropFirstRows observations = some (next, note)) :
    LeavesOutOwn counter budget observations ↔ LeavesOutOwn counter budget next := by
  have stepped : (kindLoop counter budget).step observations = some (next, note) := by
    change pruneToKindBudgets counter budget observations = _
    rw [pruneToKindBudgets, if_neg (by rw [within_of_rowsOverBudget beyond]; simp),
      if_pos beyond, pruneRowsFirst, pruned, Option.some_or]
  rcases dropFirstRows_spec pruned with ⟨-, observation, -, -, -, rfl, -⟩
  simp only [LeavesOutOwn, Loop.run_of_some stepped]
  constructor
  · intro all oldest newer actionId recorded
    exact all oldest newer actionId (mem_cons_of_mem _ recorded)
  · intro all oldest newer actionId recorded
    rcases List.mem_cons.mp recorded with same | later
    · cases same
    · exact all oldest newer actionId later

theorem leavesOutOwn_oldest (stepped : (kindLoop counter budget).step (oldest :: newer) =
      some (newer, .observation oldest.actionId)) :
    LeavesOutOwn counter budget (oldest :: newer) ↔
      CountsAgainst counter budget oldest newer ∧ LeavesOutOwn counter budget newer := by
  simp only [LeavesOutOwn, Loop.run_of_some stepped]
  constructor
  · intro all
    constructor
    · exact all oldest newer _ mem_cons_self
    · intro first rest actionId recorded
      exact all first rest actionId (mem_cons_of_mem _ recorded)
  · rintro ⟨counts, all⟩ first rest actionId recorded
    rcases List.mem_cons.mp recorded with same | later
    · cases same
      exact counts
    · exact all first rest actionId later

theorem leavesOutOwn_withoutOldestRows {count : Nat} (beyond : ∀ fewer < count,
      rowsOverBudget counter budget (withoutOldestRows fewer observations) = true) :
    LeavesOutOwn counter budget observations ↔
      LeavesOutOwn counter budget (withoutOldestRows count observations) := by
  induction count generalizing observations with
  | zero => rfl
  | succ count ih =>
    rw [withoutOldestRows]
    cases pruned : dropFirstRows observations with
    | none => rfl
    | some found =>
      have first : rowsOverBudget counter budget observations = true := beyond 0 (Nat.succ_pos _)
      apply (leavesOutOwn_rows first pruned).trans
      apply ih
      intro fewer bounded
      have later := beyond (fewer + 1) (Nat.succ_lt_succ bounded)
      rw [withoutOldestRows, pruned] at later
      exact later

theorem dropFirstRows_eq_none_iff : dropFirstRows observations = none ↔
      ∀ observation ∈ observations, observation.hasPrunableRows = false := by
  induction observations with
  | nil => simp [dropFirstRows]
  | cons observation rest ih =>
    rw [dropFirstRows, forall_mem_cons, ← ih]
    split
    · rename_i prunable
      simp [prunable]
    · rename_i whole
      simp [whole]

theorem withoutOldestRows_cons (whole : oldest.hasPrunableRows = false) (count : Nat)
    (newer : List (Observation Detail)) :
    withoutOldestRows count (oldest :: newer) = oldest :: withoutOldestRows count newer := by
  induction count generalizing newer with
  | zero => rfl
  | succ count ih =>
    rw [withoutOldestRows, dropFirstRows, if_neg (by rw [whole]; simp), withoutOldestRows]
    cases dropFirstRows newer with
    | none => rfl
    | some found => exact ih found.1

/-- All rows are left out in the end. -/
theorem exists_withoutAnyRows (observations : List (Observation Detail)) :
    ∃ count, withoutOldestRows count observations = withoutAnyRows observations := by
  induction observations with
  | nil => exact ⟨0, rfl⟩
  | cons oldest newer ih =>
    rcases ih with ⟨count, same⟩
    by_cases prunable : oldest.hasPrunableRows = true
    · refine ⟨count + 1, ?_⟩
      rw [withoutOldestRows, dropFirstRows, if_pos prunable]
      show withoutOldestRows count (oldest.withoutRows :: newer) = _
      rw [withoutOldestRows_cons (withoutRows_hasPrunableRows oldest), same,
        withoutAnyRows, withoutAnyRows, map_cons, if_pos prunable]
    · refine ⟨count, ?_⟩
      rw [withoutOldestRows_cons (Bool.eq_false_of_not_eq_true prunable), same,
        withoutAnyRows, withoutAnyRows, map_cons, if_neg prunable]

theorem dropFirstRows_withoutAnyRows (observations : List (Observation Detail)) :
    dropFirstRows (withoutAnyRows observations) = none := by
  rw [dropFirstRows_eq_none_iff]
  intro observation member
  rcases List.mem_map.mp member with ⟨given, -, rfl⟩
  split
  · exact withoutRows_hasPrunableRows given
  · rename_i whole
    exact Bool.eq_false_of_not_eq_true whole

/-- Without rows, the observations that are beyond some limit are left out. -/
theorem leavesOutOwn_withoutRows (stuck : dropFirstRows observations = none) :
    LeavesOutOwn counter budget observations ↔ ∀ oldest newer, (oldest :: newer) <:+ observations →
        withinKindBudgets counter budget (oldest :: newer) = false →
          CountsAgainst counter budget oldest newer := by
  induction observations with
  | nil =>
    constructor
    · intro _ oldest newer part
      cases List.suffix_nil.mp part
    · intro _
      exact leavesOutOwn_nil
  | cons oldest newer ih =>
    have restStuck : dropFirstRows newer = none := by
      rw [dropFirstRows_eq_none_iff] at stuck ⊢
      exact (List.forall_mem_cons.mp stuck).2
    rw [forall_suffix_cons_iff, ← ih restStuck]
    by_cases within : withinKindBudgets counter budget (oldest :: newer) = true
    · constructor
      · intro _
        refine ⟨?_, leavesOutOwn_of_within (withinKindBudgets_tail within)⟩
        rw [within]
        exact nofun
      · intro _
        exact leavesOutOwn_of_within within
    · have stepped : (kindLoop counter budget).step (oldest :: newer) =
          some (newer, .observation oldest.actionId) := by
        change pruneToKindBudgets counter budget (oldest :: newer) = _
        rw [pruneToKindBudgets, if_neg within, pruneRowsFirst, stuck, Option.none_or, ite_self]
        rfl
      rw [leavesOutOwn_oldest stepped]
      constructor
      · rintro ⟨counts, rest⟩
        exact ⟨fun _ => counts, rest⟩
      · rintro ⟨counts, rest⟩
        exact ⟨counts (Bool.eq_false_of_not_eq_true within), rest⟩

theorem countsAgainst_iff (fits : rowsOverBudget counter budget (oldest :: newer) = false)
    (beyond : budget.documentObservationTokens < documentTokens counter (oldest :: newer)) :
    CountsAgainst counter budget oldest newer ↔ oldest.kind = .action .searchDocuments := by
  rw [rowsOverBudget_eq_false_iff] at fits
  constructor
  · rintro (⟨kind, isKind, exceeded⟩ | exceeded)
    · by_cases document : kind = .searchDocuments
      · rw [isKind, document]
      · exact absurd (fits.1 kind document) (not_le.mpr exceeded)
    · exact absurd fits.2 (not_le.mpr exceeded)
  · intro document
    exact .inl ⟨.searchDocuments, document, beyond⟩

theorem within_iff_of_rowsFit (fits : rowsOverBudget counter budget observations = false) :
    withinKindBudgets counter budget observations = true ↔
      documentTokens counter observations ≤ budget.documentObservationTokens := by
  rw [rowsOverBudget_eq_false_iff] at fits
  rw [withinKindBudgets_iff]
  constructor
  · intro within
    exact within.1 .searchDocuments
  · intro documents
    refine ⟨?_, fits.2⟩
    intro kind
    by_cases document : kind = .searchDocuments
    · rw [document]
      exact documents
    · exact fits.1 kind document

theorem leavesOutOwn_documents (fits : rowsOverBudget counter budget observations = false) :
    LeavesOutOwn counter budget observations ↔ ∀ oldest newer, (oldest :: newer) <:+ observations →
        budget.documentObservationTokens < documentTokens counter (oldest :: newer) →
          oldest.kind = .action .searchDocuments := by
  induction observations with
  | nil =>
    constructor
    · intro _ oldest newer part
      cases List.suffix_nil.mp part
    · intro _
      exact leavesOutOwn_nil
  | cons oldest newer ih =>
    have restFits := rowsOverBudget_tail fits
    rw [forall_suffix_cons_iff, ← ih restFits]
    by_cases within : withinKindBudgets counter budget (oldest :: newer) = true
    · have documents := (within_iff_of_rowsFit fits).mp within
      constructor
      · intro _
        refine ⟨?_, leavesOutOwn_of_within (withinKindBudgets_tail within)⟩
        intro beyond
        exact absurd documents (not_le.mpr beyond)
      · intro _
        exact leavesOutOwn_of_within within
    · have beyond := lt_of_not_ge (mt (within_iff_of_rowsFit fits).mpr within)
      have stepped : (kindLoop counter budget).step (oldest :: newer) =
          some (newer, .observation oldest.actionId) := by
        change pruneToKindBudgets counter budget (oldest :: newer) = _
        rw [pruneToKindBudgets, if_neg within, if_neg (by rw [fits]; simp)]
        rfl
      rw [leavesOutOwn_oldest stepped, countsAgainst_iff fits beyond]
      constructor
      · rintro ⟨document, rest⟩
        exact ⟨fun _ => document, rest⟩
      · rintro ⟨document, rest⟩
        exact ⟨document beyond, rest⟩

/-- What a document counts by. -/
def documentKey (observation : Observation Detail) : ObservationKind × String :=
  (observation.kind, observation.summary)

variable {others : List (Observation Detail)}

theorem documentTokens_congr (same : observations.map documentKey = others.map documentKey) :
    documentTokens counter observations = documentTokens counter others := by
  have byKeys : ∀ list : List (Observation Detail), documentTokens counter list =
      (((list.map documentKey).filter fun key => key.1 = .action .searchDocuments).map
        fun key => textTokens counter key.2).sum := by
    intro list
    rw [filter_map, map_map]
    rfl
  rw [byKeys, byKeys, same]

theorem withoutOldestRows_documents (count : Nat) (observations : List (Observation Detail)) :
    (withoutOldestRows count observations).map documentKey = observations.map documentKey := by
  induction count generalizing observations with
  | zero => rfl
  | succ count ih =>
    rw [withoutOldestRows]
    cases pruned : dropFirstRows observations with
    | none => rfl
    | some found =>
      rcases dropFirstRows_spec pruned with ⟨before, observation, after, rfl, -, -, next⟩
      refine (ih found.1).trans ?_
      rw [next, map_append, map_append]
      rfl

/-- Whether the oldest of too many documents is one does not depend on rows. -/
theorem oldestDocument_congr (same : observations.map documentKey = others.map documentKey) :
    (∀ oldest newer, (oldest :: newer) <:+ observations →
        budget.documentObservationTokens < documentTokens counter (oldest :: newer) →
          oldest.kind = .action .searchDocuments) ↔
      ∀ oldest newer, (oldest :: newer) <:+ others →
        budget.documentObservationTokens < documentTokens counter (oldest :: newer) →
          oldest.kind = .action .searchDocuments := by
  induction observations generalizing others with
  | nil =>
    rw [List.map_eq_nil_iff.mp same.symm]
  | cons oldest newer ih =>
    cases others with
    | nil => cases same
    | cons other rest =>
      have whole : documentTokens counter (oldest :: newer) =
          documentTokens counter (other :: rest) := documentTokens_congr same
      rcases List.cons.inj same with ⟨sameKey, sameKeys⟩
      have sameKind : oldest.kind = other.kind := congrArg Prod.fst sameKey
      rw [forall_suffix_cons_iff, forall_suffix_cons_iff, whole, sameKind, ih sameKeys]

theorem leavesOutOwn_iff (observations : List (Observation Detail)) :
    LeavesOutOwn counter budget observations ↔ OldestCounts counter budget observations := by
  by_cases fits : ∃ count,
      rowsOverBudget counter budget (withoutOldestRows count observations) = false
  · have beyond : ∀ fewer < Nat.find fits,
        rowsOverBudget counter budget (withoutOldestRows fewer observations) = true := by
      intro fewer bounded
      exact Bool.eq_true_of_not_eq_false (Nat.find_min fits bounded)
    rw [leavesOutOwn_withoutOldestRows beyond, leavesOutOwn_documents (Nat.find_spec fits),
      oldestDocument_congr (withoutOldestRows_documents (Nat.find fits) observations)]
    constructor
    · intro documents
      exact .inl ⟨fits, documents⟩
    · rintro (⟨-, documents⟩ | ⟨never, -⟩)
      · exact documents
      · rcases fits with ⟨count, fit⟩
        rw [never count] at fit
        cases fit
  · have beyond : ∀ count,
        rowsOverBudget counter budget (withoutOldestRows count observations) = true := by
      intro count
      exact Bool.eq_true_of_not_eq_false fun fit => fits ⟨count, fit⟩
    rcases exists_withoutAnyRows observations with ⟨count, all⟩
    rw [leavesOutOwn_withoutOldestRows fun fewer (_ : fewer < count) => beyond fewer, all,
      leavesOutOwn_withoutRows (dropFirstRows_withoutAnyRows observations)]
    constructor
    · intro counts
      exact .inr ⟨beyond, counts⟩
    · rintro (⟨fit, -⟩ | ⟨-, counts⟩)
      · exact absurd fit fits
      · exact counts

/-- An observation is left out only for a budget it counts against exactly when the
mandatory content does not fit or the oldest observations count. -/
theorem omitsForOwnBudget_iff (counter : ProviderContextCounter Tool) (budget : ContextBudget)
    (prompt : CoordinatorContext Digest Frame → List (Observation Detail) →
      List String → List Message)
    (actionSchemas : List (ActionSchema Tool)) (allowedActions : List String)
    (context : CoordinatorContext Digest Frame)
    (observations : List (Observation Detail)) :
    OmitsForOwnBudget counter budget prompt actionSchemas allowedActions context observations ↔
      (inputMeasure counter prompt actionSchemas allowedActions context [] []).fits counter
          budget = false ∨ OldestCounts counter budget observations := by
  rw [← leavesOutOwn_iff, OmitsForOwnBudget]
  dsimp only
  cases mandatory : (inputMeasure counter prompt actionSchemas allowedActions context []
      []).fits counter budget with
  | false =>
    constructor
    · intro _
      exact .inl rfl
    · intro _
      exact nofun
  | true =>
    constructor
    · intro own
      exact .inr (own rfl).1
    · rintro (tooLarge | own)
      · cases tooLarge
      · intro _
        refine ⟨own, ?_⟩
        intro history retained actionId recorded
        rcases Loop.step_of_mem_run recorded with ⟨next, stepped⟩
        by_contra fits
        rw [Bool.not_eq_false] at fits
        rw [totalLoop] at stepped
        dsimp only at stepped
        rw [if_pos fits] at stepped
        cases stepped

def revenueText : Observation Unit where
  actionId := "a1"
  kind := .action .queryBusiness
  summary := "1200"
  detail := ()

def handbookPassage (actionId : String) : Observation Unit where
  actionId := actionId
  kind := .action .searchDocuments
  summary := "Refunds take 30 days."
  detail := ()

/-- Two documents do not fit their budget, and the first thing left out is the business
result before them, which is far from its own. -/
theorem revenueText_left_out :
    ¬ OmitsForOwnBudget letterCounter { documentObservationTokens := 30 } plainPrompt [] []
        { frame := () } [revenueText, handbookPassage "a2", handbookPassage "a3"] ∧
      (buildBudgetedInput letterCounter { documentObservationTokens := 30 } plainPrompt [] []
        { frame := () } [revenueText, handbookPassage "a2", handbookPassage "a3"]).map
          BudgetedModelInput.omissions = .ok ["obs:a1", "obs:a2"] := by
  constructor
  · intro own
    have removed := (own rfl).1 revenueText [handbookPassage "a2", handbookPassage "a3"] "a1"
      (mem_cons_self)
    rcases removed with ⟨kind, isKind, exceeded⟩ | exceeded
    · cases isKind
      exact absurd exceeded (by decide)
    · exact absurd exceeded (by decide)
  · rfl

end McpAssistant.Conversation.KindBudgets
