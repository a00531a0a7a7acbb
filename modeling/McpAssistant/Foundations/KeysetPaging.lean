import Mathlib.Order.WithBot

/-!
# Keyset paging

Rows are ordered by columns that may be null.  A page is the beginning of an
ordered answer; the next page is the answer to a query restricted to the rows
after the last one shown.  The pages of a run join up to the whole result when,
at every boundary, the restriction keeps exactly the rows not yet shown.
-/

namespace McpAssistant.Foundations.KeysetPaging

open List

/-- A nullable column read from a row; null is the bottom value. -/
structure Column (Row Key : Type) where
  read : Row → WithBot Key
  descending : Bool

section Order

variable {Row Key : Type} [LinearOrder Key]

namespace Column

/-- Whether a row sorts strictly before another on one column.  Null sorts
first when ascending and last when descending. -/
def Before (column : Column Row Key) (first second : Row) : Prop :=
  if column.descending then
    column.read second < column.read first
  else
    column.read first < column.read second

theorem not_before_self (column : Column Row Key) (row : Row) : ¬column.Before row row := by
  rw [Before]
  split
  · exact lt_irrefl _
  · exact lt_irrefl _

theorem before_or_eq_or_before (column : Column Row Key) (first second : Row) :
    column.Before first second ∨ column.read first = column.read second ∨
      column.Before second first := by
  rw [Before, Before]
  split
  · rcases lt_trichotomy (column.read first) (column.read second) with
      less | same | more
    · exact .inr (.inr less)
    · exact .inr (.inl same)
    · exact .inl more
  · exact lt_trichotomy _ _

theorem not_before_of_eq {column : Column Row Key} {first second : Row}
    (same : column.read first = column.read second) :
    ¬column.Before first second := by
  rw [Before, same]
  split
  · exact lt_irrefl _
  · exact lt_irrefl _

/-- Whether a row is known to lie beyond a value: a null row is not. -/
def Beyond (column : Column Row Key) (value : Key) (row : Row) : Prop :=
  column.read row ≠ ⊥ ∧
    if column.descending then
      column.read row < value
    else
      (value : WithBot Key) < column.read row

instance (column : Column Row Key) (value : Key) (row : Row) :
    Decidable (column.Beyond value row) :=
  inferInstanceAs (Decidable (_ ∧ _))

theorem beyond_iff {column : Column Row Key} {value : Key} {mark row : Row}
    (isMark : column.read mark = value) :
    column.Beyond value row ↔ column.Before mark row ∧ column.read row ≠ ⊥ := by
  rw [Beyond, Before, isMark]
  exact and_comm

end Column

/-! ## Lexicographic order -/

/-- Whether a row precedes another: the first column that differs decides. -/
def Precedes : List (Column Row Key) → Row → Row → Prop
  | [], _, _ => False
  | column :: columns, first, second =>
    column.Before first second ∨ (column.read first = column.read second ∧
        Precedes columns first second)

instance (column : Column Row Key) (first second : Row) : Decidable (column.Before first second) :=
  inferInstanceAs (Decidable (if column.descending then _ else _))

def decidePrecedes : (columns : List (Column Row Key)) → (first second : Row) →
    Decidable (Precedes columns first second)
  | [], _, _ => inferInstanceAs (Decidable False)
  | _ :: columns, first, second =>
    have := decidePrecedes columns first second
    inferInstanceAs (Decidable (_ ∨ (_ ∧ _)))

instance (columns : List (Column Row Key)) (first second : Row) :
    Decidable (Precedes columns first second) :=
  decidePrecedes columns first second

/-- Two rows no column tells apart. -/
def Ties (columns : List (Column Row Key)) (first second : Row) : Prop :=
  ∀ column ∈ columns, column.read first = column.read second

def FirstDiffersByNull : List (Column Row Key) → Row → Row → Prop
  | [], _, _ => False
  | column :: columns, mark, row =>
    (column.read mark ≠ column.read row ∧ column.read row = ⊥) ∨
      (column.read mark = column.read row ∧ FirstDiffersByNull columns mark row)

instance (columns : List (Column Row Key)) (first second : Row) :
    Decidable (Ties columns first second) :=
  inferInstanceAs (Decidable (∀ column ∈ columns, _ = _))

def decideFirstDiffersByNull : (columns : List (Column Row Key)) →
    (mark row : Row) → Decidable (FirstDiffersByNull columns mark row)
  | [], _, _ => inferInstanceAs (Decidable False)
  | _ :: columns, mark, row =>
    have := decideFirstDiffersByNull columns mark row
    inferInstanceAs (Decidable ((_ ∧ _) ∨ (_ ∧ _)))

instance (columns : List (Column Row Key)) (mark row : Row) :
    Decidable (FirstDiffersByNull columns mark row) :=
  decideFirstDiffersByNull columns mark row

theorem not_precedes_self (columns : List (Column Row Key)) (row : Row) :
    ¬Precedes columns row row := by
  induction columns with
  | nil => exact id
  | cons column columns ih =>
    rintro (before | ⟨-, later⟩)
    · exact column.not_before_self row before
    · exact ih later

omit [LinearOrder Key] in
theorem ties_cons {column : Column Row Key} {columns : List (Column Row Key)} {first second : Row} :
    Ties (column :: columns) first second ↔
      column.read first = column.read second ∧ Ties columns first second :=
  forall_mem_cons

theorem precedes_or_ties_or_precedes (columns : List (Column Row Key)) (first second : Row) :
    Precedes columns first second ∨ Ties columns first second ∨ Precedes columns second first := by
  induction columns with
  | nil =>
    apply Or.inr
    apply Or.inl
    intro column member
    cases member
  | cons column columns ih =>
    rcases column.before_or_eq_or_before first second with
      before | same | after
    · exact .inl (.inl before)
    · rcases ih with before | tie | after
      · exact .inl (.inr ⟨same, before⟩)
      · exact .inr (.inl (ties_cons.mpr ⟨same, tie⟩))
      · exact .inr (.inr (.inr ⟨same.symm, after⟩))
    · exact .inr (.inr (.inl after))

theorem not_precedes_of_precedes {columns : List (Column Row Key)}
    {first second : Row} (precedes : Precedes columns first second) :
    ¬Precedes columns second first := by
  induction columns with
  | nil => cases precedes
  | cons column columns ih =>
    rintro (back | ⟨same, later⟩)
    · rcases precedes with before | ⟨same, -⟩
      · rw [Column.Before] at before back
        split at before
        · rename_i descending
          rw [if_pos descending] at back
          exact lt_asymm before back
        · rename_i ascending
          rw [if_neg ascending] at back
          exact lt_asymm before back
      · exact column.not_before_of_eq same.symm back
    · rcases precedes with before | ⟨-, after⟩
      · exact column.not_before_of_eq same.symm before
      · exact ih after later

theorem not_precedes_trans {columns : List (Column Row Key)}
    {first second third : Row} (left : ¬Precedes columns second first)
    (right : ¬Precedes columns third second) :
    ¬Precedes columns third first := by
  induction columns with
  | nil => exact id
  | cons column columns ih =>
    simp only [Precedes, not_or, not_and] at left right ⊢
    have weak : ∀ {one two : Row}, ¬column.Before one two →
        if column.descending then column.read one ≤ column.read two
        else column.read two ≤ column.read one := by
      intro one two notBefore
      rw [Column.Before] at notBefore
      split at notBefore
      · rename_i descending
        rw [if_pos descending]
        exact not_lt.mp notBefore
      · rename_i ascending
        rw [if_neg ascending]
        exact not_lt.mp notBefore
    have firstSecond := weak left.1
    have secondThird := weak right.1
    rw [Column.Before]
    split at firstSecond
    · rename_i descending
      rw [if_pos descending] at secondThird ⊢
      refine ⟨not_lt.mpr (secondThird.trans firstSecond), ?_⟩
      intro same
      have middle : column.read third = column.read second :=
        le_antisymm secondThird (same ▸ firstSecond)
      exact ih (left.2 (middle.symm.trans same)) (right.2 middle)
    · rename_i ascending
      rw [if_neg ascending] at secondThird ⊢
      refine ⟨not_lt.mpr (firstSecond.trans secondThird), ?_⟩
      intro same
      have middle : column.read third = column.read second :=
        le_antisymm (same ▸ firstSecond) secondThird
      exact ih (left.2 (middle.symm.trans same)) (right.2 middle)

theorem precedes_map_congr {Item Other : Type} {items : List Item}
    {left : Item → Column Row Key} {right : Item → Column Other Key}
    {first second : Row} {third fourth : Other}
    (same : ∀ item ∈ items, (left item).descending = (right item).descending ∧
      (left item).read first = (right item).read third ∧
      (left item).read second = (right item).read fourth) :
    Precedes (items.map left) first second ↔ Precedes (items.map right) third fourth := by
  induction items with
  | nil => rfl
  | cons item items ih =>
    obtain ⟨direction, firstRead, secondRead⟩ := same item mem_cons_self
    have rest := ih fun other member =>
      same other (mem_cons_of_mem _ member)
    simp only [map_cons, Precedes, Column.Before, direction, firstRead, secondRead, rest]

omit [LinearOrder Key] in
theorem not_firstDiffersByNull {columns : List (Column Row Key)}
    {mark row : Row} (known : ∀ column ∈ columns, column.read row ≠ ⊥) :
    ¬FirstDiffersByNull columns mark row := by
  induction columns with
  | nil => exact id
  | cons column columns ih =>
    rintro (⟨-, isNull⟩ | ⟨-, later⟩)
    · exact known column mem_cons_self isNull
    · exact ih (fun other member => known other (mem_cons_of_mem _ member)) later

/-- Any rows can be put in order. -/
theorem exists_ordered (columns : List (Column Row Key)) (rows : List Row) :
    ∃ answer : List Row, answer.Perm rows ∧
      answer.Pairwise fun first second => ¬Precedes columns second first := by
  induction rows with
  | nil => exact ⟨[], .refl _, .nil⟩
  | cons row rows ih =>
    obtain ⟨answer, perm, ordered⟩ := ih
    -- the rows that precede the new one, then the new one, then the others
    let early := answer.filter fun other => decide (Precedes columns other row)
    let late := answer.filter fun other =>
      !decide (Precedes columns other row)
    have parted : (early ++ late).Perm answer := filter_append_perm _ answer
    have earlier : ∀ other ∈ early, Precedes columns other row := by
      intro other member
      simpa using (List.mem_filter.mp member).2
    have later : ∀ other ∈ late, ¬Precedes columns other row := by
      intro other member
      simpa using (List.mem_filter.mp member).2
    refine ⟨early ++ row :: late, ?_, ?_⟩
    · exact List.perm_middle.trans ((parted.trans perm).cons row)
    · apply List.pairwise_append.mpr
      refine ⟨ordered.filter _, ?_, ?_⟩
      · exact List.pairwise_cons.mpr ⟨later, ordered.filter _⟩
      · intro first inEarly second inRest
        have notAfterRow : ¬Precedes columns row first :=
          not_precedes_of_precedes (earlier first inEarly)
        rcases List.mem_cons.mp inRest with rfl | inLate
        · exact notAfterRow
        · exact not_precedes_trans notAfterRow (later second inLate)

/-- Whether a row lies beyond a position: beyond its first value, or equal to
it and beyond the rest. -/
def Reaches : List (Column Row Key × Key) → Row → Prop
  | [], _ => False
  | (column, value) :: position, row =>
    column.Beyond value row ∨ (column.read row = value ∧ Reaches position row)

theorem reaches_congr {position : List (Column Row Key × Key)} {first second : Row}
    (same : ∀ entry ∈ position, entry.1.read first = entry.1.read second) :
    Reaches position first ↔ Reaches position second := by
  induction position with
  | nil => rfl
  | cons entry position ih =>
    have own := same entry mem_cons_self
    have rest := ih fun other member => same other (mem_cons_of_mem _ member)
    simp only [Reaches, Column.Beyond, own, rest]

/-- A position holding every column's value in a row. -/
def PositionOf (columns : List (Column Row Key)) (mark : Row)
    (position : List (Column Row Key × Key)) : Prop :=
  position.map Prod.fst = columns ∧ ∀ entry ∈ position, entry.1.read mark = entry.2

theorem reaches_iff {columns : List (Column Row Key)} {mark : Row}
    {position : List (Column Row Key × Key)}
    (complete : PositionOf columns mark position) (row : Row) :
    Reaches position row ↔ Precedes columns mark row ∧ ¬FirstDiffersByNull columns mark row := by
  obtain ⟨rfl, values⟩ := complete
  induction position with
  | nil => simp [Reaches, Precedes]
  | cons entry position ih =>
    obtain ⟨column, value⟩ := entry
    have isMark : column.read mark = value := values _ mem_cons_self
    have later := ih fun other member =>
      values other (mem_cons_of_mem _ member)
    rw [Reaches, later, column.beyond_iff isMark, ← isMark]
    simp only [map_cons, Precedes, FirstDiffersByNull]
    constructor
    · rintro (⟨before, notNull⟩ | ⟨same, after, settled⟩)
      · refine ⟨.inl before, ?_⟩
        rintro (⟨-, isNull⟩ | ⟨same, -⟩)
        · exact notNull isNull
        · exact column.not_before_of_eq same before
      · refine ⟨.inr ⟨same.symm, after⟩, ?_⟩
        rintro (⟨differs, -⟩ | ⟨-, byNull⟩)
        · exact differs same.symm
        · exact settled byNull
    · rintro ⟨before | ⟨same, after⟩, settled⟩
      · apply Or.inl
        refine ⟨before, fun isNull => settled (.inl ⟨fun same => ?_, isNull⟩)⟩
        exact column.not_before_of_eq same before
      · exact .inr ⟨same.symm, after, fun byNull =>
          settled (.inr ⟨same, byNull⟩)⟩

end Order

/-- One page of an answer: the rows shown, and the rows its limit held back. -/
structure PageStep (Row : Type) where
  shown : List Row
  held : List Row

section Runs

variable {Row Mark : Type} (evaluates : Mark → List Row → Prop)
  (next : Row → Mark) (size total : Nat)

/-- Whether a page is followed by another: it is full, and rows remain. -/
def Continues (offset : Nat) (page : List Row) : Prop :=
  page ≠ [] ∧ size ≤ page.length ∧ offset + page.length < total

/-- A run of pages from a mark.  Each page is the beginning of an answer to its
mark; the next mark is taken from the last row shown.  A mark without an answer
ends the run. -/
inductive Chain : Mark → Nat → List (PageStep Row) → Prop
  | refused {mark : Mark} {offset : Nat}
      (stuck : ∀ answer, ¬evaluates mark answer) : Chain mark offset []
  | stop {mark : Mark} {offset : Nat} {answer : List Row} (evaluated : evaluates mark answer)
      (done : ¬Continues size total offset (answer.take size)) :
      Chain mark offset [⟨answer.take size, answer.drop size⟩]
  | turn {mark : Mark} {offset : Nat} {answer : List Row} {last : Row}
      {steps : List (PageStep Row)} (evaluated : evaluates mark answer)
      (more : Continues size total offset (answer.take size))
      (isLast : (answer.take size).getLast? = some last)
      (rest : Chain (next last) (offset + (answer.take size).length) steps) :
      Chain mark offset (⟨answer.take size, answer.drop size⟩ :: steps)

/-- The rows a run shows, in order. -/
def shownRows (steps : List (PageStep Row)) : List Row :=
  steps.flatMap PageStep.shown

end Runs

section Exact

variable {Row Mark : Type} {evaluates : Mark → List Row → Prop}
  {next : Row → Mark} {size total : Nat}

/-- Every page that another follows is full, wherever the marks lead. -/
theorem Chain.length_le {mark : Mark} {offset : Nat} {steps : List (PageStep Row)}
    (chain : Chain evaluates next size total mark offset steps) :
    size * steps.length + offset ≤ max total offset + size := by
  induction chain with
  | refused stuck =>
    rw [length_nil]
    omega
  | stop evaluated done =>
    rw [length_singleton]
    omega
  | turn evaluated more isLast rest ih =>
    obtain ⟨_, full, within⟩ := more
    rw [length_take] at full within ih
    rw [length_cons, Nat.mul_succ]
    omega

structure Selecting (evaluates : Mark → List Row → Prop)
    (select : Mark → Row → Prop) (before : Row → Row → Prop)
    (rows : List Row) : Prop where
  selected : ∀ mark answer, evaluates mark answer → ∃ dropped, (answer ++ dropped).Perm rows ∧
      (∀ row ∈ answer, select mark row) ∧ ∀ row ∈ dropped, ¬select mark row
  ordered : ∀ mark answer, evaluates mark answer →
    answer.Pairwise fun first second => ¬before second first
  irreflexive : ∀ row, ¬before row row

theorem exists_dropped {rows answer : List Row} {keeps : Row → Prop} [DecidablePred keeps]
    (filtered : answer.Perm (rows.filter fun row => decide (keeps row))) :
    ∃ dropped, (answer ++ dropped).Perm rows ∧
      (∀ row ∈ answer, keeps row) ∧ ∀ row ∈ dropped, ¬keeps row := by
  refine ⟨rows.filter fun row => !decide (keeps row), ?_, ?_, ?_⟩
  · exact (filtered.append_right _).trans (filter_append_perm _ rows)
  · intro row member
    simpa using (List.mem_filter.mp (filtered.mem_iff.mp member)).2
  · intro row member
    simpa using (List.mem_filter.mp member).2

/-- A boundary inside an ordered result: the last row shown, and rows held back
that do not precede it. -/
structure Boundary (before : Row → Row → Prop) (rows : List Row) (last : Row)
    (held : List Row) : Prop where
  heldBack : held ≠ []
  lastIn : last ∈ rows
  heldIn : ∀ row ∈ held, row ∈ rows
  after : ∀ row ∈ held, ¬before row last

/-- A boundary at which the next mark selects exactly the rows held back: every
one of them, and no row that is not after the last one shown. -/
structure Splits (evaluates : Mark → List Row → Prop)
    (select : Mark → Row → Prop) (before : Row → Row → Prop) (next : Row → Mark)
    (rows : List Row) (last : Row) (held : List Row) : Prop where
  answered : ∃ answer, evaluates (next last) answer
  keeps : ∀ row ∈ held, select (next last) row
  drops : ∀ row ∈ rows, ¬before last row → ¬select (next last) row

def AllBoundaries (clean : Row → List Row → Prop) (steps : List (PageStep Row)) : Prop :=
  ∀ step ∈ steps, ∀ last, step.shown.getLast? = some last → step.held ≠ [] → clean last step.held

/-- What holds when a page is asked for: the mark has an answer and selects
exactly the rows not seen yet, and these come after the rows seen. -/
structure Remaining (evaluates : Mark → List Row → Prop)
    (select : Mark → Row → Prop) (before : Row → Row → Prop) (rows : List Row)
    (mark : Mark) (seen held : List Row) : Prop where
  answered : ∃ answer, evaluates mark answer
  whole : (seen ++ held).Perm rows
  keeps : ∀ row ∈ held, select mark row
  drops : ∀ row ∈ seen, ¬select mark row
  sorted : seen.Pairwise fun first second => ¬before second first
  apart : ∀ first ∈ seen, ∀ second ∈ held, ¬before second first

variable {select : Mark → Row → Prop} {before : Row → Row → Prop} {rows : List Row}

open Classical in
theorem filter_select {kept dropped : List Row} {mark : Mark}
    (keeps : ∀ row ∈ kept, select mark row)
    (drops : ∀ row ∈ dropped, ¬select mark row) :
    (kept ++ dropped).filter (fun row => decide (select mark row)) = kept := by
  have all : kept.filter (fun row => decide (select mark row)) = kept := by
    apply List.filter_eq_self.mpr
    intro row member
    exact decide_eq_true (keeps row member)
  have none : dropped.filter (fun row => decide (select mark row)) = [] := by
    apply List.filter_eq_nil_iff.mpr
    intro row member
    simpa using drops row member
  rw [filter_append, all, none, append_nil]

theorem answer_perm_held (spec : Selecting evaluates select before rows) {mark : Mark}
    {seen held answer : List Row}
    (remaining : Remaining evaluates select before rows mark seen held)
    (evaluated : evaluates mark answer) : answer.Perm held := by
  classical
  obtain ⟨dropped, whole, keeps, drops⟩ := spec.selected mark answer evaluated
  have same : (answer ++ dropped).Perm (held ++ seen) :=
    whole.trans (remaining.whole.symm.trans perm_append_comm)
  have filtered := same.filter fun row => decide (select mark row)
  rw [filter_select keeps drops, filter_select remaining.keeps remaining.drops] at filtered
  exact filtered

theorem mem_rows_of_answer (spec : Selecting evaluates select before rows)
    {mark : Mark} {seen held answer : List Row}
    (remaining : Remaining evaluates select before rows mark seen held)
    (evaluated : evaluates mark answer) : ∀ row ∈ answer, row ∈ rows := by
  intro row member
  apply remaining.whole.mem_iff.mp
  apply mem_append_right
  exact (answer_perm_held spec remaining evaluated).mem_iff.mp member

theorem not_before_last {page : List Row} {last : Row} (irreflexive : ∀ row, ¬before row row)
    (ordered : page.Pairwise fun first second => ¬before second first)
    (isLast : page.getLast? = some last) :
    ∀ row ∈ page, ¬before last row := by
  obtain ⟨front, rfl⟩ := List.getLast?_eq_some_iff.mp isLast
  intro row member
  rcases List.mem_append.mp member with earlier | final
  · exact (List.pairwise_append.mp ordered).2.2 row earlier last mem_cons_self
  · rw [List.mem_singleton.mp final]
    exact irreflexive last

theorem remaining_next (spec : Selecting evaluates select before rows)
    {mark : Mark} {seen held answer : List Row} {last : Row}
    (remaining : Remaining evaluates select before rows mark seen held)
    (evaluated : evaluates mark answer)
    (isLast : (answer.take size).getLast? = some last)
    (splits : Splits evaluates select before next rows last (answer.drop size)) :
    Remaining evaluates select before rows (next last)
      (seen ++ answer.take size) (answer.drop size) := by
  have perm := answer_perm_held spec remaining evaluated
  have ordered := spec.ordered mark answer evaluated
  have cut : answer.take size ++ answer.drop size = answer := take_append_drop size answer
  rw [← cut, pairwise_append] at ordered
  obtain ⟨sortedShown, -, cross⟩ := ordered
  have lastIn : last ∈ answer.take size := mem_of_getLast? isLast
  have inRows := mem_rows_of_answer spec remaining evaluated
  constructor
  · exact splits.answered
  · rw [append_assoc, cut]
    exact (perm.append_left seen).trans remaining.whole
  · exact splits.keeps
  · intro row member
    rcases List.mem_append.mp member with old | shown
    · apply splits.drops row
      · exact remaining.whole.mem_iff.mp (mem_append_left _ old)
      · apply remaining.apart row old last
        exact perm.mem_iff.mp (mem_of_mem_take lastIn)
    · apply splits.drops row
      · exact inRows row (mem_of_mem_take shown)
      · exact not_before_last spec.irreflexive sortedShown isLast row shown
  · apply List.pairwise_append.mpr
    refine ⟨remaining.sorted, sortedShown, ?_⟩
    intro first old second shown
    exact remaining.apart first old second (perm.mem_iff.mp (mem_of_mem_take shown))
  · intro first member second heldBack
    rcases List.mem_append.mp member with old | shown
    · exact remaining.apart first old second (perm.mem_iff.mp (mem_of_mem_drop heldBack))
    · exact cross first shown second heldBack

theorem chain_shows_rest (spec : Selecting evaluates select before rows)
    (sizePositive : 0 < size) (counted : total = rows.length) {mark : Mark}
    {offset : Nat} {seen held : List Row} {steps : List (PageStep Row)}
    (chain : Chain evaluates next size total mark offset steps)
    (seenCount : offset = seen.length)
    (remaining : Remaining evaluates select before rows mark seen held)
    {clean : Row → List Row → Prop}
    (splitting : ∀ last held, Boundary before rows last held →
      clean last held → Splits evaluates select before next rows last held)
    (boundaries : AllBoundaries clean steps) :
    (seen ++ shownRows steps).Perm rows ∧ (seen ++ shownRows steps).Pairwise fun first second =>
        ¬before second first := by
  induction chain generalizing seen held with
  | refused stuck =>
    obtain ⟨answer, evaluated⟩ := remaining.answered
    exact absurd evaluated (stuck answer)
  | @stop mark offset answer evaluated done =>
    have perm := answer_perm_held spec remaining evaluated
    have cut : answer.take size ++ answer.drop size = answer := take_append_drop size answer
    have whole : (seen ++ answer).Perm rows := (perm.append_left seen).trans remaining.whole
    -- a run stops only when the limit held nothing back
    have nothingHeld : answer.drop size = [] := by
      by_contra heldBack
      apply done
      have longer : size < answer.length := by
        by_contra short
        exact heldBack (drop_eq_nil_of_le (Nat.le_of_not_lt short))
      have full : (answer.take size).length = size := length_take_of_le (Nat.le_of_lt longer)
      refine ⟨?_, ?_, ?_⟩
      · intro empty
        rw [empty] at full
        exact Nat.ne_of_lt sizePositive full
      · rw [full]
      · have count := whole.length_eq
        rw [length_append] at count
        omega
    rw [nothingHeld, append_nil] at cut
    simp only [shownRows, flatMap_cons, flatMap_nil, append_nil, cut]
    refine ⟨whole, ?_⟩
    apply List.pairwise_append.mpr
    refine ⟨remaining.sorted, spec.ordered mark answer evaluated, ?_⟩
    intro first old second shown
    exact remaining.apart first old second (perm.mem_iff.mp shown)
  | @turn mark offset answer last steps evaluated more isLast rest ih =>
    have perm := answer_perm_held spec remaining evaluated
    have heldBack : answer.drop size ≠ [] := by
      intro nothing
      obtain ⟨-, -, below⟩ := more
      have cut : answer.take size ++ answer.drop size = answer := take_append_drop size answer
      have count := ((perm.append_left seen).trans remaining.whole).length_eq
      rw [← cut, nothing, append_nil, length_append] at count
      omega
    have cross : ∀ row ∈ answer.drop size, ¬before row last := by
      intro row member
      have ordered := spec.ordered mark answer evaluated
      rw [← take_append_drop size answer, pairwise_append] at ordered
      exact ordered.2.2 last (mem_of_getLast? isLast) row member
    have inRows := mem_rows_of_answer spec remaining evaluated
    have boundary : Boundary before rows last (answer.drop size) := by
      constructor
      · exact heldBack
      · exact inRows last (mem_of_mem_take (mem_of_getLast? isLast))
      · exact fun row member => inRows row (mem_of_mem_drop member)
      · exact cross
    have splits := splitting last (answer.drop size) boundary
      (boundaries _ mem_cons_self last isLast heldBack)
    have later := @ih (seen ++ answer.take size) (answer.drop size)
      (by rw [length_append, seenCount])
      (remaining_next spec remaining evaluated isLast splits)
      fun step member => boundaries step (mem_cons_of_mem _ member)
    simpa only [shownRows, flatMap_cons, append_assoc] using later

end Exact

end McpAssistant.Foundations.KeysetPaging
