import McpAssistant.Services.AskTables
import Mathlib.Data.List.Sort

/-!
# Reading a trimmed table

A trimmed table must still show something, keep its columns in order and each look
beside its owner, and say how many columns are missing.  The choice never breaks
the order or a look; but it may choose nothing, and the notice is cut with the
summary it is put after.
-/

namespace McpAssistant.Services.WideTables

open AskEvents AskTables List

section Order

variable {columns : List TableColumn} (distinct : (columns.map (·.key)).Nodup)
include distinct

theorem columnOrder_getElem {place : Nat} (inside : place < columns.length) :
    columnOrder columns columns[place].key = place + 1 := by
  have last : columns.reverse.findIdx (fun column => column.key = columns[place].key) =
      columns.length - 1 - place := by
    rw [findIdx_eq (by rw [length_reverse]; omega)]
    constructor
    · rw [getElem_reverse]
      apply decide_eq_true
      congr
      omega
    · intro later before
      rw [getElem_reverse]
      apply decide_eq_false
      intro same
      have column := inj_on_of_nodup_map distinct (getElem_mem _) (getElem_mem _) same
      have places := (List.Nodup.getElem_inj_iff distinct.of_map).mp column
      omega
  rw [columnOrder, last]
  omega

theorem columnOrder_injective
    {left right : TableColumn} (leftListed : left ∈ columns) (rightListed : right ∈ columns)
    (same : columnOrder columns left.key = columnOrder columns right.key) : left = right := by
  rcases getElem_of_mem leftListed with ⟨first, firstInside, rfl⟩
  rcases getElem_of_mem rightListed with ⟨second, secondInside, rfl⟩
  rw [columnOrder_getElem distinct, columnOrder_getElem distinct] at same
  have places := Nat.succ.inj same
  subst places
  rfl

/-- Putting some of the columns back in order only leaves out the others. -/
theorem sorted_eq_filter {chosen : List TableColumn}
    (nodup : chosen.Nodup) (listed : chosen ⊆ columns) :
    (chosen.mergeSort fun left right =>
      columnOrder columns left.key ≤ columnOrder columns right.key) =
      columns.filter (· ∈ chosen) := by
  have members : ∀ column, column ∈ columns.filter (· ∈ chosen) ↔ column ∈ chosen := by
    intro column
    rw [mem_filter, decide_eq_true_iff]
    exact ⟨And.right, fun member => ⟨listed member, member⟩⟩
  have ordered : columns.Pairwise fun left right =>
      columnOrder columns left.key ≤ columnOrder columns right.key := by
    rw [pairwise_iff_getElem]
    intro first second firstInside secondInside before
    rw [columnOrder_getElem distinct, columnOrder_getElem distinct]
    omega
  apply @List.Perm.eq_of_pairwise _ fun left right =>
    columnOrder columns left.key ≤ columnOrder columns right.key
  · intro left right inLeft inRight before after
    apply columnOrder_injective distinct
    · exact listed (List.mem_mergeSort.mp inLeft)
    · exact mem_of_mem_filter inRight
    · exact Nat.le_antisymm before after
  · apply List.Pairwise.imp of_decide_eq_true
    apply pairwise_mergeSort
    · intro first second third
      simp only [decide_eq_true_iff]
      exact Nat.le_trans
    · intro first second
      simp only [Bool.or_eq_true, decide_eq_true_iff]
      exact Nat.le_total _ _
  · exact ordered.filter _
  · apply (mergeSort_perm _ _).trans
    apply (perm_ext_iff_of_nodup nodup (distinct.of_map.filter _)).mpr
    intro column
    exact (members column).symm

end Order

/-- A column a person reads: neither a look nor an id without one. -/
def Readable (column : TableColumn) : Prop :=
  column.role ≠ some .display ∧ bareId column = false

/-- What holds of the columns chosen among `columns` once `passed` are behind. -/
structure Choice (columns passed chosen : List TableColumn) : Prop where
  listed : chosen ⊆ columns
  nodup : chosen.Nodup
  few : chosen.length ≤ maxColumns
  behind : ∀ column ∈ chosen, column.role ≠ some .display → column ∈ passed
  owned : ∀ look ∈ chosen, look.role = some .display →
    ∃ owner ∈ chosen, owner.role ≠ some .display ∧ owner.displayKey = some look.key

section Choosing

variable {columns passed rest chosen : List TableColumn} {taken : List String}
  {column : TableColumn}

theorem Choice.nil : Choice columns [] [] where
  listed := nil_subset columns
  nodup := nodup_nil
  few := Nat.zero_le maxColumns
  behind := forall_mem_nil _
  owned := forall_mem_nil _

theorem Choice.pass (choice : Choice columns passed chosen) :
    Choice columns (passed ++ [column]) chosen where
  listed := choice.listed
  nodup := choice.nodup
  few := choice.few
  behind other member main := mem_append_left _ (choice.behind other member main)
  owned := choice.owned

structure Brings (columns chosen : List TableColumn) (column look : TableColumn) : Prop where
  listed : look ∈ columns
  display : look.role = some .display
  own : column.displayKey = some look.key
  fresh : look ∉ chosen

theorem Choice.take (distinct : columns.Nodup)
    (split : columns = passed ++ column :: rest) (choice : Choice columns passed chosen)
    (main : column.role ≠ some .display) {look : Option TableColumn}
    (brings : ∀ found, look = some found → Brings columns chosen column found)
    (fits : (chosen ++ column :: look.toList).length ≤ maxColumns) :
    Choice columns (passed ++ [column]) (chosen ++ column :: look.toList) := by
  have notPassed : column ∉ passed := by
    rw [split] at distinct
    intro member
    exact (List.nodup_append.mp distinct).2.2 column member column mem_cons_self rfl
  have looks : ∀ found ∈ look.toList, Brings columns chosen column found := by
    intro found member
    exact brings found (Option.mem_toList.mp member)
  constructor
  · intro other member
    rcases List.mem_append.mp member with before | added
    · exact choice.listed before
    · rcases List.mem_cons.mp added with rfl | isLook
      · rw [split]
        exact mem_append_right _ mem_cons_self
      · exact (looks other isLook).listed
  · apply List.nodup_append.mpr
    refine ⟨choice.nodup, ?_, ?_⟩
    · rw [nodup_cons]
      constructor
      · intro member
        exact main (looks column member).display
      · cases look <;> simp
    · rintro other before added member rfl
      rcases List.mem_cons.mp member with rfl | isLook
      · exact notPassed (choice.behind other before main)
      · exact (looks other isLook).fresh before
  · exact fits
  · intro other member otherMain
    rcases List.mem_append.mp member with before | added
    · exact mem_append_left _ (choice.behind other before otherMain)
    · rcases List.mem_cons.mp added with rfl | isLook
      · exact mem_append_right _ (List.mem_singleton.mpr rfl)
      · exact absurd (looks other isLook).display otherMain
  · intro other member display
    rcases List.mem_append.mp member with before | added
    · rcases choice.owned other before display with ⟨owner, chosenOwner, ownerMain, own⟩
      exact ⟨owner, mem_append_left _ chosenOwner, ownerMain, own⟩
    · rcases List.mem_cons.mp added with rfl | isLook
      · exact absurd display main
      · refine ⟨column, ?_, main, (looks other isLook).own⟩
        exact mem_append_right _ mem_cons_self

def freshLook (columns chosen : List TableColumn) (column : TableColumn) : Option TableColumn :=
  (lookFor columns (column.displayKey.getD "")).filter fun look =>
    !(chosen.map (·.key)).contains look.key

def withLook (columns chosen : List TableColumn) (column : TableColumn) : List TableColumn :=
  chosen ++ column :: (freshLook columns chosen column).toList

/-- One step of the walk, whose taken keys are those of the choice. -/
theorem chooseColumns_cons (columns rest chosen : List TableColumn) (column : TableColumn) :
    chooseColumns columns (column :: rest) chosen (chosen.map (·.key)) =
      if column.role = some .display || bareId column || repeatsEarlier column chosen then
        chooseColumns columns rest chosen (chosen.map (·.key))
      else if maxColumns < (withLook columns chosen column).length then chosen
      else chooseColumns columns rest (withLook columns chosen column)
        ((withLook columns chosen column).map (·.key)) := by
  have long : (withLook columns chosen column).length =
      chosen.length + (if (freshLook columns chosen column).isNone then 1 else 2) := by
    rw [withLook, length_append]
    cases freshLook columns chosen column <;> rfl
  rw [chooseColumns, long, withLook, map_append, map_cons]
  rfl

theorem brings_freshLook (named : ∀ column ∈ columns, column.key ≠ "")
    {look : TableColumn} (found : freshLook columns chosen column = some look) :
    Brings columns chosen column look := by
  rcases Option.filter_eq_some_iff.mp found with ⟨isLook, fresh⟩
  have holds := List.find?_some isLook
  rw [Bool.and_eq_true, decide_eq_true_iff, decide_eq_true_iff] at holds
  have listed : look ∈ columns := List.mem_reverse.mp (mem_of_find?_eq_some isLook)
  refine ⟨listed, holds.1, ?_, ?_⟩
  · rcases display : column.displayKey with _ | key
    · rw [display] at holds
      exact absurd holds.2 (named look listed)
    · rw [display] at holds
      exact congrArg some holds.2.symm
  · intro member
    rw [Bool.not_eq_true', ← Bool.not_eq_true, contains_iff_mem] at fresh
    exact fresh (mem_map_of_mem member)

/-- The walk keeps what holds of the choice. -/
theorem chooseColumns_choice (distinct : columns.Nodup)
    (named : ∀ column ∈ columns, column.key ≠ "") (split : columns = passed ++ rest)
    (choice : Choice columns passed chosen) :
    ∃ passed, Choice columns passed (chooseColumns columns rest chosen (chosen.map (·.key))) := by
  induction rest generalizing passed chosen with
  | nil => exact ⟨passed, choice⟩
  | cons column rest walk =>
    have moved : columns = (passed ++ [column]) ++ rest := by
      rw [split, append_assoc]
      rfl
    rw [chooseColumns_cons]
    split
    · exact walk moved choice.pass
    · rename_i kept
      split
      · exact ⟨passed, choice⟩
      · rename_i short
        apply walk moved
        apply choice.take distinct split
        · intro display
          apply kept
          rw [display]
          rfl
        · intro found
          exact brings_freshLook named
        · exact Nat.not_lt.mp short

theorem chosen_subset (chosen : List TableColumn) (taken : List String) :
    chosen ⊆ chooseColumns columns rest chosen taken := by
  induction rest generalizing chosen taken with
  | nil => exact List.Subset.refl chosen
  | cons column rest walk =>
    rw [chooseColumns]
    split
    · exact walk chosen taken
    · dsimp only
      generalize (Option.filter _ _) = look
      rcases Nat.lt_or_ge maxColumns (chosen.length + if look.isNone then 1 else 2) with
        full | fits
      · rw [if_pos full]
        exact List.Subset.refl chosen
      · rw [if_neg (Nat.not_lt.mpr fits)]
        exact List.Subset.trans (subset_append_left _ _) (walk _ _)

/-- Something is chosen when some column is readable. -/
theorem chooseColumns_eq_nil :
    chooseColumns columns rest [] [] = [] ↔ ∀ column ∈ rest, ¬ Readable column := by
  induction rest with
  | nil => exact iff_of_true rfl nofun
  | cons column rest walk =>
    rw [forall_mem_cons, ← walk]
    have step := chooseColumns_cons columns rest [] column
    rw [map_nil] at step
    rw [step]
    by_cases readable : Readable column
    · have kept : ¬ (column.role = some .display || bareId column ||
          repeatsEarlier column []) = true := by
        rw [Bool.or_eq_true, Bool.or_eq_true, decide_eq_true_iff, readable.2]
        rintro ((display | bare) | repeated)
        · exact readable.1 display
        · cases bare
        · cases repeated
      have fits : ¬ maxColumns < (withLook columns [] column).length := by
        rw [withLook]
        cases freshLook columns [] column <;> exact Nat.not_lt.mpr (by simp [maxColumns])
      rw [if_neg kept, if_neg fits]
      apply iff_of_false
      · intro empty
        have member : column ∈ withLook columns [] column := mem_cons_self
        have stays := @chosen_subset columns rest (withLook columns [] column)
          ((withLook columns [] column).map (·.key)) column member
        rw [empty] at stays
        cases stays
      · rintro ⟨unreadable, _⟩
        exact unreadable readable
    · have skipped : (column.role = some .display || bareId column ||
          repeatsEarlier column []) = true := by
        by_contra kept
        rw [Bool.or_eq_true, Bool.or_eq_true, decide_eq_true_iff, not_or, not_or] at kept
        exact readable ⟨kept.1.1, Bool.eq_false_iff.mpr kept.1.2⟩
      rw [if_pos skipped]
      exact (and_iff_right readable).symm

end Choosing

def notice (hidden all : Nat) : String :=
  s!"{hidden} of {all} columns not shown."

/-- What stands before the notice. -/
def lead (summary : String) : List Char :=
  if summary = "" then [] else summary.toList ++ [' ', '·', ' ']

section Notice

variable (hidden all : Nat)

theorem notice_letters : (notice hidden all).toList =
    Nat.toDigits 10 hidden ++ (" of ".toList ++ (Nat.toDigits 10 all ++
      " columns not shown.".toList)) := by
  show (toString hidden ++ " of " ++ toString all ++ " columns not shown.").toList = _
  rw [String.toList_append, String.toList_append, String.toList_append,
    Nat.toString_eq_repr, Nat.toString_eq_repr, Nat.toList_repr, Nat.toList_repr,
    append_assoc, append_assoc]

theorem separator_notMem : '·' ∉ (notice hidden all).toList := by
  have digits : ∀ number, '·' ∉ Nat.toDigits 10 number := by
    intro number member
    have digit := @Nat.isDigit_of_mem_toDigits 10 number '·' (by decide) (by decide) member
    cases digit
  rw [notice_letters]
  simp only [mem_append, not_or]
  exact ⟨digits hidden, by decide, digits all, by decide⟩

theorem notice_starts : ∃ first rest, (notice hidden all).toList = first :: rest ∧ first ≠ ' ' := by
  rw [notice_letters]
  rcases digits : Nat.toDigits 10 hidden with _ | ⟨first, rest⟩
  · exact absurd digits Nat.toDigits_ne_nil
  · refine ⟨first, _, rfl, ?_⟩
    rintro rfl
    have digit := @Nat.isDigit_of_mem_toDigits 10 hidden ' ' (by decide) (by decide)
      (by rw [digits]; exact mem_cons_self)
    cases digit

theorem notice_ends : ∃ rest, (notice hidden all).toList = rest ++ ['.'] := by
  rw [notice_letters]
  refine ⟨Nat.toDigits 10 hidden ++ (" of ".toList ++ (Nat.toDigits 10 all ++
    " columns not shown".toList)), ?_⟩
  simp only [append_assoc]
  rfl

end Notice

section Cut

variable {Letter : Type} {text word : List Letter} {blank mark : Letter} {limit : Nat}

theorem starts_behind {before after : List Letter} (unmarked : mark ∉ word)
    (found : before ++ word = (text ++ [mark]) ++ after) :
    ∃ skipped, after = skipped ++ word := by
  rcases List.append_eq_append_iff.mp found with ⟨crossing, marked, isWord⟩ | ⟨skipped, _, behind⟩
  · rcases eq_nil_or_concat crossing with rfl | ⟨start, last, rfl⟩
    · exact ⟨[], isWord.symm⟩
    · rw [concat_eq_append, ← append_assoc] at marked
      have same := (append_inj' marked rfl).2
      cases same
      refine absurd ?_ unmarked
      rw [isWord]
      simp
  · exact ⟨skipped, behind⟩

/-- A word cut short behind a separator is not there, unless it was before it. -/
theorem infix_take (unmarked : mark ∉ word) (starts : word.head? ≠ some blank)
    (ends : word.getLast? ≠ some blank) (letters : word ≠ [])
    (cut : limit < (text ++ blank :: mark :: blank :: word).length) :
    word <:+: (text ++ blank :: mark :: blank :: word).take limit ↔ word <:+: text.take limit := by
  constructor
  · rintro ⟨before, after, found⟩
    have short : (before ++ word).length ≤ limit := by
      have long := congrArg List.length found
      rw [length_append, length_take] at long
      omega
    have early : ∀ more, text = before ++ word ++ more → word <:+: text.take limit := by
      rintro more rfl
      apply (suffix_append before word).isInfix.trans
      apply List.IsPrefix.isInfix
      exact List.prefix_take_iff.mpr ⟨prefix_append _ _, short⟩
    have whole := (take_append_drop limit (text ++ blank :: mark :: blank :: word)).symm
    rw [← found, append_assoc] at whole
    generalize dropped : List.drop limit (text ++ blank :: mark :: blank :: word) = tail at whole
    have remains : 0 < tail.length := by
      rw [← dropped, length_drop]
      omega
    rcases List.append_eq_append_iff.mp whole.symm with
      ⟨more, isText, _⟩ | ⟨crossing, isWord, behind⟩
    · exact early more isText
    · rcases crossing with _ | ⟨first, _ | ⟨second, crossing⟩⟩
      · rw [append_nil] at isWord
        exact early [] (by rw [append_nil]; exact isWord.symm)
      · rw [cons_append, List.cons.injEq] at behind
        rcases behind with ⟨rfl, _⟩
        refine absurd ?_ ends
        have last := congrArg List.getLast? isWord
        rw [List.getLast?_append_of_ne_nil _ letters, List.getLast?_concat] at last
        exact last
      · simp only [cons_append, List.cons.injEq] at behind
        rcases behind with ⟨rfl, rfl, behind⟩
        have split : before ++ word = (text ++ [blank] ++ [mark]) ++ crossing := by
          rw [isWord]
          simp
        rcases starts_behind unmarked split with ⟨skipped, rfl⟩
        have long := congrArg List.length behind
        simp only [length_cons, length_append] at long
        have none : skipped = [] := eq_nil_of_length_eq_zero (by omega)
        subst none
        refine absurd ?_ starts
        have head := congrArg List.head? behind
        rw [nil_append, List.head?_cons, List.head?_append_of_ne_nil _ letters] at head
        exact head.symm
  · intro inside
    apply inside.trans
    apply List.IsPrefix.isInfix
    apply List.prefix_take_iff.mpr
    exact ⟨(List.take_prefix limit text).trans (prefix_append text _), length_take_le limit text⟩

end Cut

structure WideTable where
  columns : List TableColumn
  rows : List Row
  presentation : Option ResultPresentation
  distinct : (columns.map (·.key)).Nodup
  named : ∀ column ∈ columns, column.key ≠ ""
  wide : maxColumns < columns.length

namespace WideTable

variable (table : WideTable)

def trimmed : List TableColumn × List Row × Option ResultPresentation :=
  trimColumns table.columns table.rows table.presentation

def shown : List TableColumn :=
  table.trimmed.1

/-- The summary the notice is put after. -/
def summary : String :=
  (table.presentation.bind (·.summary)).getD ""

def missing : String :=
  notice (table.columns.length - table.shown.length) table.columns.length

end WideTable

def Reads (column : TableColumn) (key : String) : Prop :=
  (key ≠ "" ∧ (column.key = key ∨ column.displayKey = some key ∨ column.currencyKey = some key)) ∨
  ∃ template name, column.hrefTemplate = some template ∧
    Sum.inr name ∈ templateParts template ∧ String.ofList name = key

structure Honest (table : WideTable) : Prop where
  shows : table.shown ≠ []
  ordered : table.shown.Sublist table.columns
  nodup : table.shown.Nodup
  few : table.shown.length ≤ maxColumns
  owned : ∀ look ∈ table.shown, look.role = some .display →
    ∃ owner ∈ table.shown, owner.role ≠ some .display ∧ owner.displayKey = some look.key
  rows : List.Forall₂ (fun row kept => kept.Sublist row ∧ ∀ cell,
    cell ∈ kept ↔ cell ∈ row ∧ ∃ column ∈ table.shown, Reads column cell.1)
    table.rows table.trimmed.2.1
  stated : ∃ summary, table.trimmed.2.2.bind (·.summary) = some summary ∧
    table.missing.toList <:+: summary.toList

/-- The summary leaves room for the notice, or holds it already. -/
def HasRoom (table : WideTable) : Prop :=
  (lead table.summary ++ table.missing.toList).length ≤ summaryMaxChars ∨
    table.missing.toList <:+: table.summary.toList.take summaryMaxChars

section Trimmed

variable {table : WideTable}

theorem mem_rowKeysRead {columns : List TableColumn} {key : String} :
    key ∈ rowKeysRead columns ↔ ∃ column ∈ columns, Reads column key := by
  rw [rowKeysRead, mem_flatMap]
  apply exists_congr
  intro column
  apply and_congr_right
  intro _
  rw [mem_append, Reads]
  apply or_congr
  · rw [mem_filterMap]
    constructor
    · rintro ⟨found, listed, isKey⟩
      rcases Option.filter_eq_some_iff.mp isKey with ⟨rfl, named⟩
      refine ⟨of_decide_eq_true named, ?_⟩
      simp only [mem_cons, not_mem_nil, or_false] at listed
      rcases listed with own | look | currency
      · exact .inl (Option.some.inj own).symm
      · exact .inr (.inl look.symm)
      · exact .inr (.inr currency.symm)
    · rintro ⟨named, own⟩
      refine ⟨some key, ?_, Option.filter_eq_some_iff.mpr ⟨rfl, decide_eq_true named⟩⟩
      simp only [mem_cons, not_mem_nil, or_false]
      rcases own with rfl | look | currency
      · exact .inl rfl
      · exact .inr (.inl look.symm)
      · exact .inr (.inr currency.symm)
  · rcases column.hrefTemplate with _ | template
    · simp
    · rw [mem_filterMap]
      constructor
      · rintro ⟨part, listed, isKey⟩
        rcases part with letter | name
        · cases isKey
        · exact ⟨template, name, rfl, listed, Option.some.inj isKey⟩
      · rintro ⟨_, name, same, listed, rfl⟩
        cases same
        exact ⟨.inr name, listed, rfl⟩

variable (table) in
theorem choice_columns : ∃ passed,
    Choice table.columns passed (chooseColumns table.columns table.columns [] []) :=
  chooseColumns_choice table.distinct.of_map table.named (nil_append table.columns).symm Choice.nil

variable (table) in
theorem shown_eq : table.shown = table.columns.filter
    (· ∈ chooseColumns table.columns table.columns [] []) := by
  rcases choice_columns table with ⟨passed, choice⟩
  rw [WideTable.shown, WideTable.trimmed, trimColumns, if_neg (Nat.not_le.mpr table.wide)]
  exact sorted_eq_filter table.distinct choice.nodup choice.listed

theorem mem_shown {column : TableColumn} : column ∈ table.shown ↔
    column ∈ chooseColumns table.columns table.columns [] [] := by
  rcases choice_columns table with ⟨passed, choice⟩
  rw [shown_eq, mem_filter, decide_eq_true_iff]
  exact ⟨And.right, fun chosen => ⟨choice.listed chosen, chosen⟩⟩

theorem shown_eq_nil : table.shown = [] ↔ ∀ column ∈ table.columns, ¬ Readable column := by
  rw [← @chooseColumns_eq_nil table.columns, eq_nil_iff_forall_not_mem, eq_nil_iff_forall_not_mem]
  apply forall_congr'
  intro column
  rw [mem_shown]

/-- The choice holds at most what is allowed, and so does what is shown. -/
theorem length_shown : table.shown.length ≤ maxColumns := by
  rcases choice_columns table with ⟨passed, choice⟩
  apply Nat.le_trans _ choice.few
  apply List.Subperm.length_le
  apply subperm_of_subset
  · rw [shown_eq]
    exact table.distinct.of_map.filter _
  · intro column member
    exact mem_shown.mp member

/-- The notice goes behind the summary there was, and both are cut. -/
theorem summary_trimmed : table.trimmed.2.2.bind (·.summary) = some (String.ofList
    ((lead table.summary ++ table.missing.toList).take summaryMaxChars)) := by
  have apart : ∀ text : String, (s!"{text} · {table.missing}").toList =
      text.toList ++ [' ', '·', ' '] ++ table.missing.toList := by
    intro text
    show (text ++ " · " ++ table.missing).toList = _
    rw [String.toList_append, String.toList_append]
    rfl
  have joined : (((table.presentation.bind (·.summary)).filter fun text => text ≠ "").elim
      table.missing fun text => s!"{text} · {table.missing}").toList =
        lead table.summary ++ table.missing.toList := by
    rw [WideTable.summary, lead]
    rcases table.presentation.bind (·.summary) with _ | text
    · rfl
    · by_cases empty : text = ""
      · subst empty
        rfl
      · have named : (some text).filter (fun text => decide (text ≠ "")) = some text :=
          Option.filter_eq_some_iff.mpr ⟨rfl, decide_eq_true empty⟩
        rw [Option.getD_some, if_neg empty, named]
        exact apart text
  rw [← joined, WideTable.missing, WideTable.shown, WideTable.trimmed, trimColumns,
    if_neg (Nat.not_le.mpr table.wide)]
  dsimp only
  generalize List.mergeSort _ _ = shown
  rcases table.presentation with _ | presentation
  · rfl
  · dsimp only [Option.getD_some, Option.bind_some]
    cases presentation.summary.filter fun text => text ≠ "" with
    | none => rfl
    | some text => rfl

theorem stated_iff : table.missing.toList <:+:
    (lead table.summary ++ table.missing.toList).take summaryMaxChars ↔ HasRoom table := by
  rcases Nat.lt_or_ge summaryMaxChars (lead table.summary ++ table.missing.toList).length with
    cut | fits
  · rw [HasRoom, or_iff_right (Nat.not_le.mpr cut)]
    rcases notice_starts (table.columns.length - table.shown.length) table.columns.length with
      ⟨first, rest, letters, notBlank⟩
    change table.missing.toList = first :: rest at letters
    by_cases empty : table.summary = ""
    · rw [lead, if_pos empty, nil_append] at cut ⊢
      apply iff_of_false
      · intro inside
        have short := inside.length_le
        rw [length_take] at short
        omega
      · intro inside
        rw [empty, letters] at inside
        have short := inside.length_le
        cases short
    · rw [lead, if_neg empty, append_assoc] at cut ⊢
      rcases notice_ends (table.columns.length - table.shown.length) table.columns.length with
        ⟨start, ends⟩
      change table.missing.toList = start ++ ['.'] at ends
      have unmarked : '·' ∉ table.missing.toList := separator_notMem _ _
      refine infix_take unmarked ?_ ?_ ?_ cut
      · rw [letters, List.head?_cons]
        intro blank
        exact notBlank (Option.some.inj blank)
      · rw [ends, List.getLast?_concat]
        decide
      · rw [letters]
        nofun
  · rw [take_of_length_le fits]
    exact iff_of_true (suffix_append _ _).isInfix (.inl fits)

/-- A row keeps exactly the keys that are read. -/
theorem rows_trimmed : List.Forall₂ (fun row kept => kept.Sublist row ∧ ∀ cell,
    cell ∈ kept ↔ cell ∈ row ∧ ∃ column ∈ table.shown, Reads column cell.1)
    table.rows table.trimmed.2.1 := by
  have rows : table.trimmed.2.1 = table.rows.map fun row =>
      row.filter fun cell => (rowKeysRead table.shown).contains cell.1 := by
    rw [WideTable.shown, WideTable.trimmed, trimColumns, if_neg (Nat.not_le.mpr table.wide)]
  rw [rows, forall₂_map_right_iff]
  apply List.forall₂_same.mpr
  intro row _
  constructor
  · exact filter_sublist
  · intro cell
    rw [mem_filter, contains_iff_mem, mem_rowKeysRead]

theorem Honest.hasRoom (honest : Honest table) : HasRoom table := by
  rcases honest.stated with ⟨summary, isSummary, states⟩
  rw [summary_trimmed] at isSummary
  rw [← Option.some.inj isSummary, String.toList_ofList] at states
  exact stated_iff.mp states

/-- A trimmed table is honest when something in it is readable and the notice has
room. -/
theorem honest_iff (table : WideTable) :
    Honest table ↔ (∃ column ∈ table.columns, Readable column) ∧ HasRoom table := by
  constructor
  · intro honest
    constructor
    · by_contra unreadable
      apply honest.shows
      rw [shown_eq_nil]
      intro column listed readable
      exact unreadable ⟨column, listed, readable⟩
    · exact honest.hasRoom
  · rintro ⟨⟨column, listed, readable⟩, room⟩
    rcases choice_columns table with ⟨passed, choice⟩
    constructor
    · intro empty
      exact shown_eq_nil.mp empty column listed readable
    · rw [shown_eq]
      exact filter_sublist
    · rw [shown_eq]
      exact table.distinct.of_map.filter _
    · exact length_shown
    · intro look isShown display
      rcases choice.owned look (mem_shown.mp isShown) display with ⟨owner, chosen, owns⟩
      exact ⟨owner, mem_shown.mpr chosen, owns⟩
    · exact rows_trimmed
    · refine ⟨_, summary_trimmed, ?_⟩
      rw [String.toList_ofList]
      exact stated_iff.mpr room

end Trimmed

def plainColumn (valueType : String) (place : Nat) : TableColumn where
  key := String.ofList (List.replicate (place + 1) 'k')
  label := "label"
  valueType := valueType

def twentyOne (valueType : String) : List TableColumn :=
  (List.range 21).map (plainColumn valueType)

theorem keys_twentyOne (valueType : String) : (twentyOne valueType).map (·.key) =
    (List.range 21).map fun place => String.ofList (List.replicate (place + 1) 'k') := by
  rw [twentyOne, map_map]
  rfl

def tableOf (valueType : String) (summary : Option String) : WideTable where
  columns := twentyOne valueType
  rows := []
  presentation := some { title := "Invoices", summary }
  distinct := by
    rw [keys_twentyOne]
    apply List.nodup_range.map
    intro first second same
    have letters := congrArg String.toList same
    rw [String.toList_ofList, String.toList_ofList] at letters
    have lengths := congrArg List.length letters
    rw [length_replicate, length_replicate] at lengths
    exact Nat.succ.inj lengths
  named := by
    intro column listed
    rcases List.mem_map.mp listed with ⟨place, _, rfl⟩
    intro empty
    have letters := congrArg String.toList empty
    rw [plainColumn, String.toList_ofList] at letters
    cases letters
  wide := by
    rw [twentyOne, length_map, length_range]
    decide

/-- A summary of so many letters. -/
def summaryOf (count : Nat) : String :=
  String.ofList (List.replicate count 's')

theorem letters_summaryOf (valueType : String) (count : Nat) :
    (tableOf valueType (some (summaryOf count))).summary.toList = List.replicate count 's' := by
  show (summaryOf count).toList = List.replicate count 's'
  rw [summaryOf, String.toList_ofList]

theorem no_room {table : WideTable}
    (letters : table.summary.toList = List.replicate 230 's') : ¬ HasRoom table := by
  have some : table.summary ≠ "" := by
    intro empty
    have long := congrArg List.length letters
    rw [empty, length_replicate] at long
    cases long
  rintro (short | before)
  · have long : 19 ≤ table.missing.toList.length := by
      rw [WideTable.missing, notice_letters, ← append_assoc, ← append_assoc, length_append]
      exact Nat.le_add_left _ _
    rw [lead, if_neg some, letters, length_append, length_append, length_replicate] at short
    change 230 + 3 + _ ≤ 240 at short
    omega
  · rcases notice_ends (table.columns.length - table.shown.length) table.columns.length with
      ⟨start, ends⟩
    have dot : '.' ∈ table.missing.toList := by
      rw [WideTable.missing, ends]
      exact mem_append_right _ mem_cons_self
    rw [letters] at before
    have listed := mem_of_mem_take (before.subset dot)
    exact absurd (eq_of_mem_replicate listed) (by decide)

/-- Twenty-one ids show nothing; a long summary cuts the notice. -/
theorem ids_and_summary_dishonest :
    ¬ Honest (tableOf "id" none) ∧
      ¬ Honest (tableOf "text" (some (summaryOf 230))) := by
  constructor
  · intro honest
    apply honest.shows
    rw [shown_eq_nil]
    rintro column listed ⟨_, notBare⟩
    rcases List.mem_map.mp listed with ⟨place, _, rfl⟩
    cases notBare
  · intro honest
    exact no_room (letters_summaryOf "text" 230) honest.hasRoom

end McpAssistant.Services.WideTables
