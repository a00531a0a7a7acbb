import McpAssistant.BusinessQuery.FilterCompilation
import McpAssistant.BusinessQuery.FilterEvaluation
import McpAssistant.Foundations.LikePatterns
import Mathlib.Data.Fintype.EquivFin

/-!
# What an operator makes of its values

A leaf lists one value or several.  Equality, membership and their negations use
them all; a comparison and `contains` use the first, and the arity rule bounds
the values only from below.  So a leaf is honoured, every value of it, exactly
when its operator reads them all or there is just one.
-/

namespace McpAssistant.BusinessQuery.OperatorClauses

open Definitions FilterTree FilterEvaluation Outcomes FilterCompilation
open Foundations.LikePatterns
open Foundations.Fallible List

inductive Comparison
  | eq
  | neq
  | gt
  | gte
  | lt
  | lte
deriving DecidableEq

/-- A condition on one column of a statement, with its bound values. -/
inductive Clause
  | compare (comparison : Comparison) (value : FilterValue)
  | equalsOne (values : List FilterValue)
  | differsFromAll (values : List FilterValue)
  | isIn (values : List FilterValue)
  | notIn (values : List FilterValue)
  | isNull
  | notNull
  | like (pattern : List Char)
  | membership (setId : String) (exclude : Bool)
  | segment

/-- A refusal, or reading a value of an empty list. -/
inductive ClauseError
  | refused (raised : Raised)
  | indexError
deriving DecidableEq

def slash : Escape where
  letter := '/'

def containsPattern (value : FilterValue) : List Char :=
  '%' :: (escapeLike slash value.pyStr.toList ++ ['%'])

/-- The condition on a column.  `between` and `like` are left out: no plan has
them. -/
def operatorClause (operator : FilterOperator) (values : List FilterValue) :
    Except ClauseError Clause :=
  match operator, values with
  | .eq, [value] => .ok (.compare .eq value)
  | .eq, values => .ok (.equalsOne values)
  | .neq, [value] => .ok (.compare .neq value)
  | .neq, values => .ok (.differsFromAll values)
  | .isIn, values => .ok (.isIn values)
  | .notIn, values => .ok (.notIn values)
  | .gt, value :: _ => .ok (.compare .gt value)
  | .gte, value :: _ => .ok (.compare .gte value)
  | .lt, value :: _ => .ok (.compare .lt value)
  | .lte, value :: _ => .ok (.compare .lte value)
  | .isNull, _ => .ok .isNull
  | .notNull, _ => .ok .notNull
  | .contains, value :: _ => .ok (.like (containsPattern value))
  | .inSet, _ | .notInSet, _ => .error (.refused (refused .unsupportedOperator))
  | _, [] => .error .indexError

/-- What a leaf's clause is about: a column, membership of a derived set, or the
predicate of a segment. -/
inductive Target
  | column
  | set
  | segment
deriving DecidableEq

def targetClause (target : Target) (operator : FilterOperator)
    (values : List FilterValue) : Except ClauseError Clause :=
  match target with
  | .column => operatorClause operator values
  | .set =>
    match values with
    | [.text setId] => .ok (.membership setId (operator == .notInSet))
    | _ => .error (.refused (unexpressible "filter_arity"))
  | .segment =>
    if operator = .eq ∧ values = [.boolean true] then .ok .segment
    else .error (.refused (unexpressible "segment_operator"))

def leafOperator : FilterLeaf → FilterOperator
  | .filter leaf => leaf.operator
  | .predicate typed => typed.operator

def leafValues : FilterLeaf → List FilterValue
  | .filter leaf => leaf.values
  | .predicate typed => typed.values

def validateFilterArity (leaf : PlanFilter) : Except ClauseError Unit :=
  match leaf.operator with
  | .isNull | .notNull =>
    if leaf.values.isEmpty then .ok ()
    else .error (.refused (unexpressible "filter_arity"))
  | _ =>
    if leaf.values.isEmpty then .error (.refused (unexpressible "filter_arity"))
    else .ok ()

/-- Only a plain filter's arity is checked again. -/
def leafArity : FilterLeaf → Except ClauseError Unit
  | .filter leaf => validateFilterArity leaf
  | .predicate _ => .ok ()

section Leaves

variable (parts : CompilerParts) (bundle : DefinitionBundle)

/-- The values a plain filter's clause is made of: those of a dimension in the
spelling it stores them in. -/
def handedFilter (leaf : PlanFilter) : Target × List FilterValue :=
  match resolveMember bundle leaf.member with
  | some (_, .segment _) => (.segment, leaf.values)
  | some (_, .dimension dimension) =>
    if leaf.operator.isSet then (.set, leaf.values)
    else (.column, (canonicalAllowedValues parts dimension leaf.values).getD leaf.values)
  | _ => (.column, leaf.values)

def handed (leaf : FilterLeaf) : Target × List FilterValue :=
  match leaf with
  | .filter leaf => handedFilter parts bundle leaf
  | .predicate typed => (.column, typed.values)

def compileClause (tables measures : List String) (allowMeasures : Bool)
    (leaf : FilterLeaf) : Except ClauseError Clause := do
  leafArity leaf
  (compileLeaf parts bundle tables measures allowMeasures leaf).mapError .refused
  targetClause (handed parts bundle leaf).1 (leafOperator leaf) (handed parts bundle leaf).2

end Leaves

/-- A column as its database reads it: the order of its values, what a bound value
is among them, how LIKE spells a value and which letters it takes for one, and
what the derived sets hold. -/
structure Column where
  Key : Type
  order : LinearOrder Key
  rank : FilterValue → Key
  letters : Key → List Char
  same : Char → Char → Bool
  inSet : String → Option Key → Truth

namespace Column

variable (column : Column)

instance : LinearOrder column.Key :=
  column.order

def compare (comparison : Comparison) (cell : Option column.Key) (value : FilterValue) : Truth :=
  cell.map fun found =>
    match comparison with
    | .eq => decide (found = column.rank value)
    | .neq => decide (found ≠ column.rank value)
    | .gt => decide (column.rank value < found)
    | .gte => decide (column.rank value ≤ found)
    | .lt => decide (found < column.rank value)
    | .lte => decide (found ≤ column.rank value)

/-- A null is in no set, and neither outside one. -/
def isOutside (cell : Option column.Key) (setId : String) : Truth :=
  Truth.and (some cell.isSome) ((column.inSet setId cell).map (!·))

def truth (cell : Option column.Key) : Clause → Truth
  | .compare comparison value => column.compare comparison cell value
  | .equalsOne values => disjunction (values.map (column.compare .eq cell))
  | .differsFromAll values => conjunction (values.map (column.compare .neq cell))
  | .isIn values => cell.map fun found => values.any fun value => found = column.rank value
  | .notIn values =>
    cell.map fun found => !values.any fun value => found = column.rank value
  | .isNull => some cell.isNone
  | .notNull => some cell.isSome
  | .like pattern => cell.map fun found =>
    likeMatches column.same slash pattern (column.letters found)
  | .membership setId exclude =>
    if exclude then column.isOutside cell setId else column.inSet setId cell
  | .segment => column.compare .eq cell (.boolean true)

end Column

def comparesOne : FilterOperator → Bool
  | .gt | .gte | .lt | .lte => true
  | _ => false

/-- The operators whose clause reads the first value. -/
def readsFirst : FilterOperator → Bool
  | .gt | .gte | .lt | .lte | .contains => true
  | _ => false

open Classical in
noncomputable def containsLiterally (column : Column) (cell : Option column.Key)
    (value : FilterValue) : Truth :=
  cell.map fun found =>
    decide (Occurs column.same value.pyStr.toList (column.letters found))

noncomputable def meaning (column : Column) (cell : Option column.Key)
    (operator : FilterOperator) (values : List FilterValue) : Truth :=
  match operator, values with
  | .eq, values | .isIn, values => disjunction (values.map (column.compare .eq cell))
  | .neq, values | .notIn, values => conjunction (values.map (column.compare .neq cell))
  | .contains, values => disjunction (values.map (containsLiterally column cell))
  | .gt, [value] => column.compare .gt cell value
  | .gte, [value] => column.compare .gte cell value
  | .lt, [value] => column.compare .lt cell value
  | .lte, [value] => column.compare .lte cell value
  | .isNull, _ => some cell.isNone
  | .notNull, _ => some cell.isSome
  | .inSet, [.text setId] => column.inSet setId cell
  | .notInSet, [.text setId] => column.isOutside cell setId
  | _, _ => none

/-- Two clauses that some row tells apart. -/
def Differ (changed clause : Clause) : Prop :=
  ∃ (column : Column) (cell : Option column.Key),
    column.truth cell changed ≠ column.truth cell clause

structure Honoured (target : Target) (operator : FilterOperator)
    (values : List FilterValue) (clause : Clause) : Prop where
  single : comparesOne operator = true → values.length = 1
  means : ∀ (column : Column) (cell : Option column.Key),
    column.truth cell clause = meaning column cell operator values
  matters : ∀ place < values.length, ∃ other,
    ∀ changed, targetClause target operator (values.set place other) = .ok changed →
      Differ changed clause

section Lists

variable {values : List FilterValue}

theorem disjunction_single (clause : Truth) : disjunction [clause] = clause := by
  rcases clause with _ | _ | _ <;> rfl

theorem conjunction_single (clause : Truth) : conjunction [clause] = clause := by
  rcases clause with _ | _ | _ <;> rfl

theorem disjunction_known (holds : FilterValue → Bool) :
    disjunction (values.map fun value => some (holds value)) = some (values.any holds) := by
  induction values with
  | nil => rfl
  | cons value values rest =>
    show Truth.or (some (holds value)) (disjunction _) = _
    rw [rest, any_cons]
    cases holds value <;> cases values.any holds <;> rfl

theorem conjunction_known (holds : FilterValue → Bool) :
    conjunction (values.map fun value => some (holds value)) = some (values.all holds) := by
  induction values with
  | nil => rfl
  | cons value values rest =>
    show Truth.and (some (holds value)) (conjunction _) = _
    rw [rest, all_cons]
    cases holds value <;> cases values.all holds <;> rfl

theorem disjunction_unknown (some : values ≠ []) :
    disjunction (values.map fun _ => (none : Truth)) = none := by
  rcases values with _ | ⟨value, values⟩
  · exact absurd rfl some
  · have tail : ∀ rest : List FilterValue, disjunction (rest.map fun _ => (none : Truth)) = none ∨
          disjunction (rest.map fun _ => (none : Truth)) = Option.some false := by
      intro rest
      induction rest with
      | nil => exact .inr rfl
      | cons other rest step =>
        left
        show Truth.or none (disjunction _) = none
        rcases step with isNone | isFalse
        · rw [isNone]
          rfl
        · rw [isFalse]
          rfl
    show Truth.or none (disjunction _) = none
    rcases tail values with isNone | isFalse
    · rw [isNone]
      rfl
    · rw [isFalse]
      rfl

theorem conjunction_unknown (some : values ≠ []) :
    conjunction (values.map fun _ => (none : Truth)) = none := by
  rcases values with _ | ⟨value, values⟩
  · exact absurd rfl some
  · have tail : ∀ rest : List FilterValue, conjunction (rest.map fun _ => (none : Truth)) = none ∨
          conjunction (rest.map fun _ => (none : Truth)) = Option.some true := by
      intro rest
      induction rest with
      | nil => exact .inr rfl
      | cons other rest step =>
        left
        show Truth.and none (conjunction _) = none
        rcases step with isNone | isTrue
        · rw [isNone]
          rfl
        · rw [isTrue]
          rfl
    show Truth.and none (conjunction _) = none
    rcases tail values with isNone | isTrue
    · rw [isNone]
      rfl
    · rw [isTrue]
      rfl

end Lists

section Meaning

variable {column : Column} {cell : Option column.Key} {values : List FilterValue}

theorem truth_isIn (some : values ≠ []) : column.truth cell (.isIn values) =
      disjunction (values.map (column.compare .eq cell)) := by
  rcases cell with _ | found
  · exact (disjunction_unknown some).symm
  · exact (disjunction_known fun value => decide (found = column.rank value)).symm

theorem truth_notIn (some : values ≠ []) : column.truth cell (.notIn values) =
      conjunction (values.map (column.compare .neq cell)) := by
  rcases cell with _ | found
  · exact (conjunction_unknown some).symm
  · show Option.some (!values.any fun value => decide (found = column.rank value)) = _
    rw [not_any_eq_all_not]
    rw [← conjunction_known]
    apply congrArg
    apply map_congr_left
    intro value _
    show _ = Option.some (decide (found ≠ column.rank value))
    rw [decide_not]

theorem truth_contains (value : FilterValue) : column.truth cell (.like (containsPattern value)) =
      containsLiterally column cell value := by
  rcases cell with _ | found
  · rfl
  · show some (likeMatches column.same slash (containsPattern value) _) =
      some (@decide _ (Classical.propDecidable _))
    apply congrArg
    apply Bool.eq_iff_iff.mpr
    rw [@decide_eq_true_iff _ (Classical.propDecidable _)]
    exact likeMatches_occurs value.pyStr.toList (column.letters found)

theorem truth_meaning {operator : FilterOperator} {clause : Clause}
    (arity : operator.acceptsValues values = true)
    (made : operatorClause operator values = .ok clause)
    (one : readsFirst operator = true → values.length = 1) :
    column.truth cell clause = meaning column cell operator values := by
  have some : operator ≠ .isNull → operator ≠ .notNull → operator.isSet = false → values ≠ [] := by
    rintro notNull notNotNull notSet rfl
    cases operator with
    | isNull => exact notNull rfl
    | notNull => exact notNotNull rfl
    | inSet | notInSet => cases notSet
    | _ => cases arity
  cases operator with
  | eq =>
    rcases values with _ | ⟨value, _ | ⟨second, rest⟩⟩
    · cases arity
    · cases made
      exact (disjunction_single _).symm
    · cases made
      rfl
  | neq =>
    rcases values with _ | ⟨value, _ | ⟨second, rest⟩⟩
    · cases arity
    · cases made
      exact (conjunction_single _).symm
    · cases made
      rfl
  | isIn =>
    cases made
    exact truth_isIn (some nofun nofun rfl)
  | notIn =>
    cases made
    exact truth_notIn (some nofun nofun rfl)
  | isNull | notNull =>
    cases made
    rfl
  | contains =>
    rcases List.length_eq_one_iff.mp (one rfl) with ⟨value, rfl⟩
    cases made
    exact (truth_contains value).trans (disjunction_single _).symm
  | gt | gte | lt | lte =>
    rcases List.length_eq_one_iff.mp (one rfl) with ⟨value, rfl⟩
    cases made
    rfl
  | inSet | notInSet => cases made

end Meaning

/-! ## Values that matter -/

def textColumn : Column where
  Key := String
  order := inferInstance
  rank := FilterValue.pyStr
  letters := String.toList
  same letter other := letter == other
  inSet setId cell := some (cell = some setId)

theorem exists_fresh (values : List FilterValue) :
    ∃ word : String, ∀ value ∈ values, value.pyStr ≠ word := by
  rcases Infinite.exists_notMem_finset (values.map FilterValue.pyStr).toFinset with ⟨word, fresh⟩
  refine ⟨word, ?_⟩
  rintro value member rfl
  exact fresh (List.mem_toFinset.mpr (mem_map_of_mem member))

theorem lt_append (word : String) : word < word ++ "a" := by
  rw [String.lt_iff, String.toList_append]
  have longer : word.toList ++ [] < word.toList ++ ['a'] := append_left_lt (nil_lt_cons _ _)
  rw [append_nil] at longer
  exact longer

variable {changed clause : Clause}

theorem differ_of_true (word : String) (isTrue : textColumn.truth (some word) changed = some true)
    (isNot : textColumn.truth (some word) clause ≠ some true) : Differ changed clause := by
  refine ⟨textColumn, Option.some word, ?_⟩
  rw [isTrue]
  exact isNot.symm

theorem Differ.symm (differ : Differ changed clause) : Differ clause changed := by
  rcases differ with ⟨column, cell, differ⟩
  exact ⟨column, cell, differ.symm⟩

variable {values : List FilterValue}

theorem equals_eq_true {word : String} :
    disjunction (values.map (textColumn.compare .eq (some word))) = some true ↔
      ∃ value ∈ values, value.pyStr = word := by
  rw [disjunction_eq_true]
  constructor
  · rintro ⟨clause, listed, isTrue⟩
    rcases List.mem_map.mp listed with ⟨value, member, rfl⟩
    refine ⟨value, member, ?_⟩
    have same : decide (word = value.pyStr) = true := Option.some.inj isTrue
    exact (of_decide_eq_true same).symm
  · rintro ⟨value, member, rfl⟩
    refine ⟨_, mem_map_of_mem member, ?_⟩
    show Option.some (decide (value.pyStr = value.pyStr)) = Option.some true
    rw [decide_eq_true rfl]

theorem differs_eq_true {word : String} :
    conjunction (values.map (textColumn.compare .neq (some word))) = some true ↔
      ∀ value ∈ values, value.pyStr ≠ word := by
  rw [conjunction_eq_true, forall_mem_map]
  apply forall_congr'
  intro value
  apply imp_congr_right
  intro _
  constructor
  · intro isTrue same
    have differs : decide (word ≠ value.pyStr) = true := Option.some.inj isTrue
    exact of_decide_eq_true differs same.symm
  · intro differs
    show Option.some (decide (word ≠ value.pyStr)) = Option.some true
    rw [decide_eq_true differs.symm]

theorem not_occurs_longer (word : String) :
    ¬ Occurs textColumn.same (word ++ "a").toList word.toList := by
  rintro ⟨part, infixed, letters⟩
  have long := letters.length_eq
  have short := infixed.length_le
  rw [String.toList_append, length_append] at long
  change _ + 1 = _ at long
  omega

theorem occurs_self (word : String) : Occurs textColumn.same word.toList word.toList :=
  ⟨word.toList, infix_refl _, List.forall₂_same.mpr fun letter _ => beq_self_eq_true letter⟩

/-- One cell tells two clauses apart. -/
theorem differ_of_decide {yes no : Prop} {_ : Decidable yes} {_ : Decidable no} (word : String)
    (here : textColumn.truth (some word) changed = some (decide yes))
    (there : textColumn.truth (some word) clause = some (decide no)) (holds : yes)
    (fails : ¬ no) : Differ changed clause := by
  apply differ_of_true word
  · rw [here, decide_eq_true holds]
  · rw [there, decide_eq_false fails]
    nofun

theorem differ_compare (comparison : Comparison) (value : FilterValue) :
    Differ (.compare comparison (.text (value.pyStr ++ "a"))) (.compare comparison value) := by
  have longer : value.pyStr < value.pyStr ++ "a" := lt_append value.pyStr
  cases comparison with
  | eq => exact differ_of_decide (value.pyStr ++ "a") rfl rfl rfl longer.ne'
  | neq => exact differ_of_decide value.pyStr rfl rfl longer.ne fun differs => differs rfl
  | gt =>
    apply Differ.symm
    exact differ_of_decide (value.pyStr ++ "a") rfl rfl longer (lt_irrefl _)
  | gte =>
    apply Differ.symm
    exact differ_of_decide value.pyStr rfl rfl (le_refl _) longer.not_ge
  | lt => exact differ_of_decide value.pyStr rfl rfl longer (lt_irrefl _)
  | lte => exact differ_of_decide (value.pyStr ++ "a") rfl rfl (le_refl _) longer.not_ge

theorem differ_contains (value : FilterValue) :
    Differ (.like (containsPattern (.text (value.pyStr ++ "a"))))
      (.like (containsPattern value)) := by
  apply Differ.symm
  apply differ_of_true value.pyStr
  · exact congrArg some ((likeMatches_occurs _ _).mpr (occurs_self value.pyStr))
  · intro isTrue
    exact not_occurs_longer value.pyStr ((likeMatches_occurs _ _).mp (Option.some.inj isTrue))

section Changing

variable {operator : FilterOperator} {values : List FilterValue} {clause : Clause} {place : Nat}

theorem acceptsValues_of_length {others : List FilterValue}
    (notSet : operator.isSet = false) (long : others.length = values.length) :
    operator.acceptsValues others = operator.acceptsValues values := by
  have same : others.isEmpty = values.isEmpty := by
    rw [Bool.eq_iff_iff, isEmpty_iff_length_eq_zero, isEmpty_iff_length_eq_zero, long]
  cases operator with
  | inSet | notInSet => cases notSet
  | isNull | notNull => exact same
  | _ => exact congrArg (! ·) same

theorem notSet_of_operatorClause (made : operatorClause operator values = .ok clause) :
    operator.isSet = false := by
  cases operator with
  | inSet | notInSet => cases made
  | _ => rfl

theorem column_matters (arity : operator.acceptsValues values = true)
    (made : operatorClause operator values = .ok clause)
    (one : readsFirst operator = true → values.length = 1) (inside : place < values.length) :
    ∃ other, ∀ changed, operatorClause operator (values.set place other) = .ok changed →
      Differ changed clause := by
  have notSet := notSet_of_operatorClause made
  have means : ∀ other changed, operatorClause operator (values.set place other) = .ok changed →
      ∀ word, textColumn.truth (some word) changed =
        meaning textColumn (some word) operator (values.set place other) := by
    intro other changed remade word
    apply truth_meaning _ remade
    · rw [length_set]
      exact one
    · rw [acceptsValues_of_length notSet length_set]
      exact arity
  have meant : ∀ word, textColumn.truth (some word) clause =
      meaning textColumn (some word) operator values := fun word => truth_meaning arity made one
  rcases exists_fresh values with ⟨fresh, isFresh⟩
  have listed : FilterValue.text fresh ∈ values.set place (.text fresh) := mem_set inside _
  cases operator with
  | inSet | notInSet => cases notSet
  | isNull | notNull =>
    rw [List.isEmpty_iff.mp arity] at inside
    cases inside
  | eq | isIn =>
    refine ⟨.text fresh, fun changed remade => ?_⟩
    apply differ_of_true fresh
    · exact (means _ _ remade fresh).trans (equals_eq_true.mpr ⟨_, listed, rfl⟩)
    · intro isTrue
      rcases equals_eq_true.mp ((meant fresh).symm.trans isTrue) with ⟨value, member, same⟩
      exact isFresh value member same
  | neq | notIn =>
    refine ⟨.text fresh, fun changed remade => (?_ : Differ clause changed).symm⟩
    apply differ_of_true fresh
    · exact (meant fresh).trans (differs_eq_true.mpr isFresh)
    · intro isTrue
      exact differs_eq_true.mp ((means _ _ remade fresh).symm.trans isTrue) _ listed rfl
  | gt | gte | lt | lte | contains =>
    rcases List.length_eq_one_iff.mp (one rfl) with ⟨value, rfl⟩
    rw [length_singleton, Nat.lt_one_iff] at inside
    subst inside
    cases made
    refine ⟨.text (value.pyStr ++ "a"), fun changed remade => ?_⟩
    cases remade
    first
      | exact differ_compare _ value
      | exact differ_contains value

end Changing

section Honoured

variable {operator : FilterOperator} {values : List FilterValue} {clause : Clause}

theorem honoured_column (arity : operator.acceptsValues values = true)
    (made : operatorClause operator values = .ok clause) :
    Honoured .column operator values clause ↔ (readsFirst operator = true → values.length = 1) := by
  constructor
  · intro honoured first
    rcases values with _ | ⟨value, _ | ⟨second, rest⟩⟩
    · cases operator <;> cases first <;> cases arity
    · rfl
    · cases operator with
      | gt | gte | lt | lte => exact honoured.single rfl
      | contains =>
        cases made
        rcases honoured.matters 1 (by simp) with ⟨other, matters⟩
        rcases matters _ rfl with ⟨column, cell, differ⟩
        exact absurd rfl differ
      | _ => cases first
  · intro one
    constructor
    · intro compares
      apply one
      cases operator <;> first | rfl | cases compares
    · intro column cell
      exact truth_meaning arity made one
    · intro place inside
      exact column_matters arity made one inside

/-- Two set ids are told apart by a row in just one of the sets. -/
theorem differ_membership {setId other : String} (differ : other ≠ setId) (exclude : Bool) :
    Differ (.membership other exclude) (.membership setId exclude) := by
  cases exclude with
  | false =>
    exact differ_of_decide other rfl rfl rfl fun same => differ (Option.some.inj same)
  | true =>
    refine differ_of_true setId ?_ ?_
    · show Truth.and (some true) (some !decide (some setId = some other)) = some true
      rw [decide_eq_false fun same => differ (Option.some.inj same).symm]
      rfl
    · show Truth.and (some true) (some !decide (some setId = some setId)) ≠ some true
      rw [decide_eq_true rfl]
      nofun

theorem honoured_set (isSet : operator.isSet = true)
    (made : targetClause .set operator values = .ok clause) :
    Honoured .set operator values clause := by
  rcases values with _ | ⟨_ | _ | _ | _, _ | ⟨second, rest⟩⟩
  case cons.text.nil setId =>
    constructor
    · intro _
      rfl
    · intro column cell
      cases made
      cases operator <;> first | rfl | cases isSet
    · intro place inside
      rcases Infinite.exists_notMem_finset {setId} with ⟨other, fresh⟩
      refine ⟨.text other, fun changed remade => ?_⟩
      rw [length_singleton, Nat.lt_one_iff] at inside
      subst inside
      cases made
      cases remade
      exact differ_membership (fun same => fresh (Finset.mem_singleton.mpr same)) _
  all_goals cases made

theorem segment_fits (made : targetClause .segment operator values = .ok clause) :
    operator = .eq ∧ values = [.boolean true] := by
  by_contra unfit
  rw [targetClause, if_neg unfit] at made
  cases made

theorem honoured_segment (made : targetClause .segment operator values = .ok clause) :
    Honoured .segment operator values clause := by
  rcases segment_fits made with ⟨rfl, rfl⟩
  cases made
  constructor
  · nofun
  · intro column cell
    exact (disjunction_single _).symm
  · intro place inside
    rw [length_singleton, Nat.lt_one_iff] at inside
    subst inside
    refine ⟨.boolean false, fun changed remade => ?_⟩
    cases remade

end Honoured

section Accepted

variable {parts : CompilerParts} {bundle : DefinitionBundle}

theorem length_of_mapM {spelled : FilterValue → Option FilterValue}
    {values found : List FilterValue} (all : values.mapM spelled = some found) :
    found.length = values.length := by
  induction values generalizing found with
  | nil =>
    cases all
    rfl
  | cons value values shorter =>
    rw [mapM_cons] at all
    rcases Option.bind_eq_some_iff.mp all with ⟨first, _, others⟩
    rcases Option.bind_eq_some_iff.mp others with ⟨rest, isRest, same⟩
    cases same
    exact congrArg (· + 1) (shorter isRest)

/-- The stored spellings stand for the values one by one. -/
theorem length_canonicalAllowedValues {dimension : DimensionDefinition}
    {values found : List FilterValue}
    (canonical : canonicalAllowedValues parts dimension values = some found) :
    found.length = values.length := by
  rw [canonicalAllowedValues] at canonical
  split at canonical
  · cases canonical
    rfl
  · rcases Option.bind_eq_some_iff.mp canonical with ⟨byNorm, _, all⟩
    exact length_of_mapM all

theorem length_handed (leaf : FilterLeaf) :
    (handed parts bundle leaf).2.length = (leafValues leaf).length := by
  cases leaf with
  | predicate typed => rfl
  | filter leaf =>
    show (handedFilter parts bundle leaf).2.length = leaf.values.length
    rw [handedFilter]
    split
    · rfl
    · split
      · rfl
      · rename_i dimension _ _
        show ((canonicalAllowedValues parts dimension leaf.values).getD leaf.values).length = _
        rcases canonical : canonicalAllowedValues parts dimension leaf.values with _ | found
        · rfl
        · exact length_canonicalAllowedValues canonical
    · rfl

theorem handed_set {leaf : FilterLeaf} (set : (handed parts bundle leaf).1 = .set) :
    (leafOperator leaf).isSet = true := by
  cases leaf with
  | predicate typed => cases set
  | filter leaf =>
    change (handedFilter parts bundle leaf).1 = .set at set
    rw [handedFilter] at set
    split at set
    · cases set
    · split at set
      · assumption
      · cases set
    · cases set

theorem acceptsValues_leaf (leaf : FilterLeaf) :
    (leafOperator leaf).acceptsValues (leafValues leaf) = true := by
  cases leaf with
  | filter leaf => exact leaf.arity
  | predicate typed => exact typed.arity

structure Accepted (parts : CompilerParts) (bundle : DefinitionBundle)
    (tables measures : List String) (allowMeasures : Bool) where
  leaf : FilterLeaf
  clause : Clause
  compiled : compileClause parts bundle tables measures allowMeasures leaf = .ok clause

variable {tables measures : List String} {allowMeasures : Bool}

theorem Accepted.targetClause_handed
    (accepted : Accepted parts bundle tables measures allowMeasures) :
    targetClause (handed parts bundle accepted.leaf).1 (leafOperator accepted.leaf)
      (handed parts bundle accepted.leaf).2 = .ok accepted.clause := by
  have compiled := accepted.compiled
  rw [compileClause] at compiled
  rcases bind_eq_ok.mp compiled with ⟨_, _, rest⟩
  rcases bind_eq_ok.mp rest with ⟨_, _, made⟩
  exact made

/-- The values of an accepted leaf are honoured just when its operator reads all
of them or there is one. -/
theorem honoured_iff (accepted : Accepted parts bundle tables measures allowMeasures) :
    Honoured (handed parts bundle accepted.leaf).1 (leafOperator accepted.leaf)
        (handed parts bundle accepted.leaf).2 accepted.clause ↔
      (readsFirst (leafOperator accepted.leaf) = true → (leafValues accepted.leaf).length = 1) := by
  have made := accepted.targetClause_handed
  have long : (handed parts bundle accepted.leaf).2.length = _ := length_handed accepted.leaf
  have arity := acceptsValues_leaf accepted.leaf
  rw [← long]
  rcases target : (handed parts bundle accepted.leaf).1 with _ | _ | _
  · rw [target] at made
    apply honoured_column _ made
    rw [acceptsValues_of_length (notSet_of_operatorClause made) long]
    exact arity
  · rw [target] at made
    have isSet := handed_set target
    apply iff_of_true (honoured_set isSet made)
    intro first
    cases operator : leafOperator accepted.leaf <;> rw [operator] at isSet first
    case inSet | notInSet => cases first
    all_goals cases isSet
  · rw [target] at made
    apply iff_of_true (honoured_segment made)
    rw [(segment_fits made).1]
    nofun

def amount : DimensionDefinition where
  name := "amount"
  owningResource := "payment"
  sqlExpression := "amount"
  type := .number

def amounts : DefinitionBundle where
  contentHash := "hash"
  resources := []
  measures := []
  dimensions := [amount]
  capabilities := [⟨"payment.amount", .dimension, "amount", [], [], .enabled⟩]

def plainParts : CompilerParts where
  normalise value := value
  lowerAttributePredicate _ := .ok ()
  compileSet _ := .ok ()
  withinOneBucket _ _ := true

def moreThanEither : Accepted plainParts amounts ["payment"] [] false where
  leaf := .filter {
    member := "payment.amount"
    operator := .gt
    values := [.integer 1, .integer 100] }
  clause := .compare .gt (.integer 1)
  compiled := rfl

/-- The 100 is accepted and never read. -/
theorem moreThanEither_ignores : ¬ Honoured (handed plainParts amounts moreThanEither.leaf).1
      (leafOperator moreThanEither.leaf) (handed plainParts amounts moreThanEither.leaf).2
      moreThanEither.clause := by
  intro honoured
  have single := honoured.single rfl
  cases single

end Accepted

end McpAssistant.BusinessQuery.OperatorClauses
