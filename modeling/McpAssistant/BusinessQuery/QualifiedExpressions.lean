import McpAssistant.BusinessQuery.ExpressionGrammar
import Mathlib.Data.List.Chain

/-!
# Qualifying a bundle expression

A bundle declares its expressions with bare column names, and the compiler writes them
for one table by putting the table's name before each column.  It looks for the columns
among the words of the text, and not among the tokens of the grammar: a word inside a
literal is taken for a column, and a column next to a number is not seen.
-/

namespace McpAssistant.BusinessQuery.QualifiedExpressions

open SetKeys (isSqlIdentifier)
open ExpressionGrammar Foundations.PrintedValues List

/-- The letters that Python's regular expressions take for parts of words.  Which
letters outside ASCII are is not said, except for digits and blanks. -/
structure WordClass where
  isWord : Char → Bool
  ascii : ∀ letter : Char, letter.toNat < 128 → isWord letter = isIdentifierLetter letter
  digit : ∀ letter, isDecimalDigit letter = true → isWord letter = true
  space : ∀ letter, isSpace letter = true → isWord letter = false

/-- A view the compiler reads; a signed bundle names views and columns by SQL
identifiers. -/
structure Table where
  name : String
  columns : List String
  nameSafe : isSqlIdentifier name.toList = true
  columnsSafe : ∀ column ∈ columns, isSqlIdentifier column.toList = true

/-- The parts a text is split into at its identifiers: the identifiers, and what stands
between them. -/
inductive Piece where
  | between (text : List Char)
  | word (text : List Char)

def Piece.text : Piece → List Char
  | between text => text
  | word text => text

@[simp] theorem text_between (text : List Char) : (Piece.between text).text = text := rfl

@[simp] theorem text_word (text : List Char) : (Piece.word text).text = text := rfl

def Piece.identifier : Piece → Option (List Char)
  | between _ => none
  | word text => some text

section Splitting

variable (words : WordClass)

/-- `re.split` at whole words that are identifiers: `pending` is what stands since the
last of them, `run` the identifier letters read so far, both last letter first. -/
def split (pending run : List Char) (wordBefore : Bool) : List Char → List Piece
  | [] =>
    if run = [] then [.between pending.reverse]
    else [.between pending.reverse, .word run.reverse, .between []]
  | letter :: letters =>
    if isIdentifierLetter letter && (run ≠ [] || isIdentifierStart letter && !wordBefore) then
      split pending (letter :: run) true letters
    else if run ≠ [] && !words.isWord letter then
      .between pending.reverse :: .word run.reverse :: split [letter] [] false letters
    else split (letter :: (run ++ pending)) [] (words.isWord letter) letters

/-- The whole words of a text that are identifiers. -/
def wordsOf (letters : List Char) : List (List Char) :=
  (split words [] [] false letters).filterMap Piece.identifier

end Splitting

section Qualification

variable (words : WordClass) (table : Table)

def qualifyToken (text : List Char) : List Char :=
  if isReserved text || !text.head?.any isIdentifierStart then text
  else if table.columns.contains (String.ofList text) && !text.contains '.' then
    table.name.toList ++ '.' :: text
  else text

def qualifyBundleExpression (expression : String) : String :=
  String.ofList ((split words [] [] false expression.toList).flatMap fun piece =>
    qualifyToken table piece.text)

/-- An identifier that is no function or keyword and names a column. -/
def namesColumn (text : List Char) : Bool :=
  !isReserved text && table.columns.contains (String.ofList text)

def declaredText (token : Token) : List Char :=
  match token with
  | .ident text =>
    if namesColumn table text then table.name.toList ++ '.' :: text else text
  | token => token.text

def ChangesOnlyColumns (expression : String) : Prop :=
  qualifyBundleExpression words table expression =
    String.ofList ((tokenize expression.toList).flatMap (declaredText table))

def isNumberToken : Token → Bool
  | .num _ => true
  | _ => false

def isColumnToken : Token → Bool
  | .ident text => namesColumn table text
  | _ => false

structure ColumnsApart (found : List Token) : Prop where
  literals : ∀ inner, .str inner ∈ found → ∀ text ∈ wordsOf words inner,
    namesColumn table text = false
  numbers : found.IsChain fun first second =>
    ¬(isNumberToken first = true ∧ isColumnToken table second = true) ∧
      ¬(isColumnToken table first = true ∧ isNumberToken second = true)

end Qualification

section Identifiers

variable {letter : Char}

theorem isIdentifierLetter_of_start
    (start : isIdentifierStart letter = true) : isIdentifierLetter letter = true := by
  rw [isIdentifierLetter, start, Bool.true_or]

variable {letters : List Char}

theorem isSqlIdentifier_iff : isSqlIdentifier letters = true ↔
      (∃ first, letters.head? = some first ∧ isIdentifierStart first = true) ∧
        ∀ letter ∈ letters, isIdentifierLetter letter = true := by
  cases letters with
  | nil => simp [isSqlIdentifier]
  | cons first rest =>
    rw [isSqlIdentifier_cons, Bool.and_eq_true, all_eq_true, forall_mem_cons]
    constructor
    · rintro ⟨start, others⟩
      exact ⟨⟨first, rfl, start⟩, isIdentifierLetter_of_start start, others⟩
    · rintro ⟨⟨_, ⟨⟩, start⟩, -, others⟩
      exact ⟨start, others⟩

theorem toNat_lt_of_isIdentifierLetter
    (isLetter : isIdentifierLetter letter = true) : letter.toNat < 128 := by
  simp only [isIdentifierLetter, isIdentifierStart, Bool.or_eq_true, Bool.and_eq_true,
    decide_eq_true_eq, beq_iff_eq, Char.isDigit, UInt32.le_iff_toNat_le] at isLetter
  rcases isLetter with (⟨ascii, -⟩ | rfl) | ⟨-, atMost⟩
  · exact ascii
  · decide
  · exact Nat.lt_of_le_of_lt atMost (by decide)

theorem isSqlIdentifier_of_append {first second : List Char} (nonempty : first ≠ [])
    (whole : isSqlIdentifier (first ++ second) = true) :
    isSqlIdentifier first = true := by
  rw [isSqlIdentifier_iff] at whole ⊢
  rw [List.head?_append_of_ne_nil _ nonempty] at whole
  exact ⟨whole.1, fun letter member => whole.2 letter (mem_append_left second member)⟩

theorem isSqlIdentifier_concat
    (whole : isSqlIdentifier letters = true) (isLetter : isIdentifierLetter letter = true) :
    isSqlIdentifier (letters ++ [letter]) = true := by
  rw [isSqlIdentifier_iff] at whole ⊢
  rcases whole with ⟨⟨first, head, start⟩, others⟩
  constructor
  · refine ⟨first, ?_, start⟩
    cases letters with
    | nil => cases head
    | cons => exact head
  · intro other member
    rcases List.mem_append.mp member with inside | last
    · exact others other inside
    · exact List.mem_singleton.mp last ▸ isLetter

theorem isIdentifierStart_of_singleton
    (whole : isSqlIdentifier [letter] = true) : isIdentifierStart letter = true := by
  rw [isSqlIdentifier_cons, Bool.and_eq_true] at whole
  exact whole.1

variable {words : WordClass}

theorem isWord_of_isIdentifierLetter
    (isLetter : isIdentifierLetter letter = true) : words.isWord letter = true := by
  rw [words.ascii letter (toNat_lt_of_isIdentifierLetter isLetter), isLetter]

theorem qualifyToken_eq {text : List Char} (identifier : isSqlIdentifier text = true) :
    qualifyToken table text =
      if namesColumn table text then table.name.toList ++ '.' :: text else text := by
  rcases isSqlIdentifier_iff.mp identifier with ⟨⟨first, head, start⟩, letters⟩
  have noPoint : text.contains '.' = false := by
    rw [contains_eq_mem, decide_eq_false_iff_not]
    intro member
    exact absurd (letters '.' member) (by decide)
  unfold qualifyToken namesColumn
  rw [head, Option.any_some, start, noPoint, Bool.not_false, Bool.and_true, Bool.not_true,
    Bool.or_false]
  cases isReserved text <;> rfl

theorem qualifyToken_of_not_identifier {text : List Char}
    (other : isSqlIdentifier text = false) : qualifyToken table text = text := by
  unfold qualifyToken
  split
  · rfl
  · split
    · next named =>
        rw [Bool.and_eq_true, contains_iff_mem] at named
        have safe := table.columnsSafe _ named.1
        rw [String.toList_ofList, other] at safe
        cases safe
    · rfl

end Identifiers

section Split

variable {words : WordClass} {table : Table}

/-- What stands between identifiers is none, and what stands for one is one. -/
def Piece.Proper : Piece → Prop
  | between text => isSqlIdentifier text = false
  | word text => isSqlIdentifier text = true

/-- The state of a split keeps its pieces proper. -/
structure Splitting (pending run : List Char) (wordBefore : Bool) : Prop where
  between : isSqlIdentifier pending.reverse = false
  word : run ≠ [] → isSqlIdentifier run.reverse = true
  start : pending = [] → run = [] → wordBefore = false

theorem splitting_start : Splitting [] [] false :=
  ⟨rfl, fun nonempty => absurd rfl nonempty, fun _ _ => rfl⟩

def Continues (run : List Char) (wordBefore : Bool) (letter : Char) : Prop :=
  isIdentifierLetter letter = true ∧
    (run ≠ [] ∨ isIdentifierStart letter = true ∧ wordBefore = false)

theorem continues_iff {run : List Char} {wordBefore : Bool} {letter : Char} :
    (isIdentifierLetter letter && (run ≠ [] || isIdentifierStart letter && !wordBefore)) = true ↔
      Continues run wordBefore letter := by
  simp [Continues]

variable {pending run : List Char} {wordBefore : Bool} {letter : Char}

theorem Splitting.continue (splitting : Splitting pending run wordBefore)
    (continues : Continues run wordBefore letter) :
    Splitting pending (letter :: run) true := by
  refine ⟨splitting.between, fun _ => ?_, fun _ empty => by cases empty⟩
  rw [reverse_cons]
  by_cases empty : run = []
  · rcases continues.2 with nonempty | ⟨start, -⟩
    · exact absurd empty nonempty
    · rw [empty, reverse_nil, nil_append, isSqlIdentifier_cons, start]
      rfl
  · exact isSqlIdentifier_concat (splitting.word empty) continues.1

theorem splitting_between (notLetter : isIdentifierLetter letter = false) :
    Splitting [letter] [] false := by
  refine ⟨?_, fun nonempty => absurd rfl nonempty, fun empty => by cases empty⟩
  rw [reverse_singleton, Bool.eq_false_iff]
  intro whole
  have isLetter := isIdentifierLetter_of_start (isIdentifierStart_of_singleton whole)
  rw [notLetter] at isLetter
  cases isLetter

theorem Splitting.push (splitting : Splitting pending run wordBefore)
    (stops : ¬Continues run wordBefore letter) (word : Bool) :
    Splitting (letter :: (run ++ pending)) [] word := by
  refine ⟨?_, fun nonempty => absurd rfl nonempty, fun empty => by cases empty⟩
  rw [reverse_cons, reverse_append, Bool.eq_false_iff]
  intro whole
  by_cases empty : pending = []
  · rw [empty, reverse_nil, nil_append] at whole
    have isLetter := (isSqlIdentifier_iff.mp whole).2 letter
      (mem_append_right _ (mem_singleton_self letter))
    by_cases noRun : run = []
    · rw [noRun, reverse_nil, nil_append] at whole
      exact stops ⟨isLetter, .inr
        ⟨isIdentifierStart_of_singleton whole, splitting.start empty noRun⟩⟩
    · exact stops ⟨isLetter, .inl noRun⟩
  · rw [append_assoc] at whole
    have before := isSqlIdentifier_of_append (mt List.reverse_eq_nil_iff.mp empty) whole
    rw [splitting.between] at before
    cases before

theorem split_cons (letters : List Char) : split words pending run wordBefore (letter :: letters) =
      if isIdentifierLetter letter && (run ≠ [] || isIdentifierStart letter && !wordBefore) then
        split words pending (letter :: run) true letters
      else if run ≠ [] && !words.isWord letter then
        .between pending.reverse :: .word run.reverse :: split words [letter] [] false letters
      else split words (letter :: (run ++ pending)) [] (words.isWord letter) letters :=
  rfl

theorem isIdentifierLetter_of_not_word (notWord : words.isWord letter = false) :
    isIdentifierLetter letter = false := by
  rw [Bool.eq_false_iff]
  intro isLetter
  rw [isWord_of_isIdentifierLetter isLetter] at notWord
  cases notWord

theorem proper_split {letters : List Char} (splitting : Splitting pending run wordBefore) :
    ∀ piece ∈ split words pending run wordBefore letters, piece.Proper := by
  induction letters generalizing pending run wordBefore with
  | nil =>
    unfold split
    by_cases empty : run = []
    · rw [if_pos empty, forall_mem_singleton]
      exact splitting.between
    · rw [if_neg empty, forall_mem_cons, forall_mem_cons, forall_mem_singleton]
      exact ⟨splitting.between, splitting.word empty, rfl⟩
  | cons letter letters ih =>
    rw [split_cons]
    split
    · next continues =>
        exact ih (splitting.continue (continues_iff.mp continues))
    · next stops =>
        split
        · next ends =>
            rw [Bool.and_eq_true, decide_eq_true_eq, Bool.not_eq_true'] at ends
            rw [forall_mem_cons, forall_mem_cons]
            exact ⟨splitting.between, splitting.word ends.1,
              ih (splitting_between (isIdentifierLetter_of_not_word ends.2))⟩
        · exact ih (splitting.push (mt continues_iff.mpr stops) _)

theorem flatMap_text_split {letters : List Char} :
    (split words pending run wordBefore letters).flatMap Piece.text =
      pending.reverse ++ run.reverse ++ letters := by
  induction letters generalizing pending run wordBefore with
  | nil =>
    unfold split
    by_cases empty : run = []
    · simp [empty]
    · simp [empty]
  | cons letter letters ih =>
    rw [split_cons]
    split
    · rw [ih]
      simp
    · split
      · simp [ih]
      · rw [ih]
        simp

end Split

section Letters

variable (words : WordClass) (table : Table)

/-- The qualified text of what is left to read, after the identifier letters read so
far. -/
def qualified (run : List Char) (wordBefore : Bool) : List Char → List Char
  | [] => qualifyToken table run.reverse
  | letter :: letters =>
    if isIdentifierLetter letter && (run ≠ [] || isIdentifierStart letter && !wordBefore) then
      qualified (letter :: run) true letters
    else if run ≠ [] && !words.isWord letter then
      qualifyToken table run.reverse ++ letter :: qualified [] false letters
    else run.reverse ++ letter :: qualified [] (words.isWord letter) letters

variable {words table} {pending run : List Char} {wordBefore : Bool} {letter : Char}
  {letters : List Char}

theorem qualified_continue (continues : Continues run wordBefore letter) :
    qualified words table run wordBefore (letter :: letters) =
      qualified words table (letter :: run) true letters :=
  if_pos (continues_iff.mpr continues)

theorem qualified_stop (stops : ¬Continues run wordBefore letter) :
    qualified words table run wordBefore (letter :: letters) =
      (if run ≠ [] && !words.isWord letter then qualifyToken table run.reverse
        else run.reverse) ++ letter :: qualified words table [] (words.isWord letter) letters := by
  have step : qualified words table run wordBefore (letter :: letters) =
      if run ≠ [] && !words.isWord letter then
        qualifyToken table run.reverse ++ letter :: qualified words table [] false letters
      else run.reverse ++ letter :: qualified words table [] (words.isWord letter) letters :=
    if_neg (mt continues_iff.mp stops)
  rw [step]
  split
  · next ends =>
      rw [Bool.and_eq_true, Bool.not_eq_true'] at ends
      rw [ends.2]
  · rfl

theorem qualifyToken_nil : qualifyToken table [] = [] := qualifyToken_of_not_identifier rfl

/-- Outside an identifier a letter that begins none stays as it is. -/
theorem qualified_cons (stops : ¬Continues [] wordBefore letter) :
    qualified words table [] wordBefore (letter :: letters) =
      letter :: qualified words table [] (words.isWord letter) letters :=
  qualified_stop stops

theorem qualified_split (splitting : Splitting pending run wordBefore) :
    (split words pending run wordBefore letters).flatMap
        (fun piece => qualifyToken table piece.text) =
      pending.reverse ++ qualified words table run wordBefore letters := by
  induction letters generalizing pending run wordBefore with
  | nil =>
    have between := @qualifyToken_of_not_identifier table _ splitting.between
    unfold split
    by_cases empty : run = []
    · simp [empty, qualified, between, qualifyToken_nil]
    · simp [empty, qualified, between, qualifyToken_nil]
  | cons letter letters ih =>
    have between := @qualifyToken_of_not_identifier table _ splitting.between
    rw [split_cons]
    split
    · next continues =>
        have goes := continues_iff.mp continues
        rw [ih (splitting.continue goes), qualified_continue goes]
    · next stops =>
        have ends := mt continues_iff.mpr stops
        rw [qualified_stop ends]
        split
        · next notWord =>
            rw [Bool.and_eq_true, Bool.not_eq_true'] at notWord
            have next := splitting_between (isIdentifierLetter_of_not_word notWord.2)
            rw [flatMap_cons, flatMap_cons, ih next, text_between, text_word, between, notWord.2]
            simp
        · rw [ih (splitting.push ends _)]
          simp

theorem qualifyBundleExpression_eq (expression : String) :
    qualifyBundleExpression words table expression =
      String.ofList (qualified words table [] false expression.toList) := by
  rw [qualifyBundleExpression, qualified_split splitting_start]
  rfl

theorem length_le_qualifyToken (text : List Char) :
    text.length ≤ (qualifyToken table text).length := by
  unfold qualifyToken
  split
  · exact Nat.le_refl _
  · split
    · simp only [length_append, length_cons]
      omega
    · exact Nat.le_refl _

theorem length_le_flatMap (pieces : List Piece) : (pieces.flatMap Piece.text).length ≤
      (pieces.flatMap fun piece => qualifyToken table piece.text).length := by
  induction pieces with
  | nil => exact Nat.le_refl 0
  | cons piece pieces ih =>
    rw [flatMap_cons, flatMap_cons, length_append, length_append]
    exact Nat.add_le_add (length_le_qualifyToken piece.text) ih

/-- Qualification changes no text exactly when it changes no part of it. -/
theorem flatMap_qualifyToken_eq_iff {pieces : List Piece} :
    (pieces.flatMap fun piece => qualifyToken table piece.text) = pieces.flatMap Piece.text ↔
      ∀ piece ∈ pieces, qualifyToken table piece.text = piece.text := by
  induction pieces with
  | nil => simp
  | cons piece pieces ih =>
    rw [flatMap_cons, flatMap_cons, forall_mem_cons, ← ih]
    constructor
    · intro same
      have lengths := congrArg List.length same
      rw [length_append, length_append] at lengths
      have own := @length_le_qualifyToken table piece.text
      have others := @length_le_flatMap table pieces
      exact append_inj same (by omega)
    · rintro ⟨own, others⟩
      rw [own, others]

theorem append_cons_ne_self (name text : List Char) : name ++ '.' :: text ≠ text := by
  intro same
  have lengths := congrArg List.length same
  rw [length_append, length_cons] at lengths
  omega

theorem qualified_eq_self_iff : qualified words table [] false letters = letters ↔
      ∀ text ∈ wordsOf words letters, namesColumn table text = false := by
  have whole := @flatMap_text_split words [] [] false letters
  have split := @qualified_split words table [] [] false letters splitting_start
  have proper := @proper_split words [] [] false letters splitting_start
  rw [reverse_nil, nil_append] at split
  rw [reverse_nil, nil_append, nil_append] at whole
  rw [← split]
  conv_lhs => rhs; rw [← whole]
  rw [flatMap_qualifyToken_eq_iff, wordsOf]
  constructor
  · intro same text member
    rcases List.mem_filterMap.mp member with ⟨piece, inside, isWord⟩
    cases piece with
    | between => cases isWord
    | word text =>
      cases isWord
      have unchanged := same _ inside
      rw [Piece.text, qualifyToken_eq (proper _ inside)] at unchanged
      by_contra named
      rw [Bool.not_eq_false] at named
      rw [if_pos named] at unchanged
      exact append_cons_ne_self _ _ unchanged
  · intro none piece inside
    cases piece with
    | between text => exact qualifyToken_of_not_identifier (proper _ inside)
    | word text =>
      rw [Piece.text, qualifyToken_eq (proper _ inside),
        none text (List.mem_filterMap.mpr ⟨_, inside, rfl⟩)]
      rfl

theorem not_continues_of_start (other : isIdentifierStart letter = false) :
    ¬Continues [] wordBefore letter := by
  rintro ⟨-, nonempty | ⟨start, -⟩⟩
  · exact nonempty rfl
  · exact absurd (other.symm.trans start) Bool.false_ne_true

theorem not_continues_of_letter (other : isIdentifierLetter letter = false) :
    ¬Continues run wordBefore letter := by
  rintro ⟨isLetter, -⟩
  exact absurd (other.symm.trans isLetter) Bool.false_ne_true

/-- Whether the last letter read is part of a word. -/
def wordAfter (words : WordClass) (wordBefore : Bool) (text : List Char) : Bool :=
  text.foldl (fun _ letter => words.isWord letter) wordBefore

theorem wordAfter_concat (before : List Char) :
    wordAfter words wordBefore (before ++ [letter]) = words.isWord letter := by
  rw [wordAfter, foldl_append]
  rfl

theorem qualified_plain {text : List Char}
    (plain : ∀ letter ∈ text, isIdentifierStart letter = false) :
    qualified words table [] wordBefore (text ++ letters) =
      text ++ qualified words table [] (wordAfter words wordBefore text) letters := by
  induction text generalizing wordBefore with
  | nil => rfl
  | cons letter text ih =>
    rw [forall_mem_cons] at plain
    rw [cons_append, qualified_cons (not_continues_of_start plain.1), ih plain.2]
    rfl

theorem qualified_within {text : List Char}
    (within : ∀ letter ∈ text, isIdentifierLetter letter = true) :
    qualified words table [] true (text ++ letters) =
      text ++ qualified words table [] true letters := by
  induction text with
  | nil => rfl
  | cons letter text ih =>
    rw [forall_mem_cons] at within
    have stops : ¬Continues [] true letter := by
      rintro ⟨-, nonempty | ⟨-, start⟩⟩
      · exact nonempty rfl
      · cases start
    rw [cons_append, qualified_cons stops, isWord_of_isIdentifierLetter within.1, ih within.2]
    rfl

theorem qualified_run {text : List Char} (nonempty : run ≠ [])
    (within : ∀ letter ∈ text, isIdentifierLetter letter = true) :
    qualified words table run true (text ++ letters) =
      qualified words table (text.reverse ++ run) true letters := by
  induction text generalizing run with
  | nil => rfl
  | cons letter text ih =>
    rw [forall_mem_cons] at within
    rw [cons_append, qualified_continue ⟨within.1, .inl nonempty⟩,
      ih (cons_ne_nil letter run) within.2]
    simp

theorem qualified_identifier {text : List Char} (identifier : isSqlIdentifier text = true)
    (ends : ∀ letter, letters.head? = some letter → isIdentifierLetter letter = false) :
    qualified words table [] wordBefore (text ++ letters) =
      (if wordBefore = false ∧ letters.head?.any words.isWord = false then
        qualifyToken table text else text) ++ qualified words table [] true letters := by
  rcases isSqlIdentifier_iff.mp identifier with ⟨⟨first, head, start⟩, within⟩
  cases wordBefore with
  | true =>
    rw [qualified_within within, if_neg]
    rintro ⟨word, -⟩
    cases word
  | false =>
    cases text with
    | nil => cases head
    | cons first' rest =>
      cases head
      rw [forall_mem_cons] at within
      rw [cons_append, qualified_continue ⟨within.1, .inr ⟨start, rfl⟩⟩,
        qualified_run (cons_ne_nil first []) within.2]
      have whole : (rest.reverse ++ [first]).reverse = first :: rest := by simp
      cases letters with
      | nil =>
        show qualifyToken table (rest.reverse ++ [first]).reverse = _
        rw [whole, if_pos ⟨rfl, rfl⟩]
        show _ = _ ++ qualifyToken table []
        rw [qualifyToken_nil, append_nil]
      | cons letter letters =>
        have stops := ends letter rfl
        rw [qualified_stop (not_continues_of_letter stops),
          qualified_cons (not_continues_of_letter stops), whole]
        cases isWord : words.isWord letter <;> simp [isWord]

theorem qualified_append {text : List Char} (notWord : words.isWord letter = false) :
    qualified words table run wordBefore (text ++ letter :: letters) =
      qualified words table run wordBefore text ++
        letter :: qualified words table [] false letters := by
  have notLetter := isIdentifierLetter_of_not_word notWord
  induction text generalizing run wordBefore with
  | nil =>
    rw [nil_append, qualified_stop (not_continues_of_letter notLetter), notWord]
    by_cases empty : run = []
    · simp [empty, qualified, qualifyToken_nil]
    · simp [empty, qualified]
  | cons other text ih =>
    by_cases continues : Continues run wordBefore other
    · rw [cons_append, qualified_continue continues, qualified_continue continues, ih]
    · rw [cons_append, qualified_stop continues, qualified_stop continues, ih]
      simp

theorem isWord_quote : words.isWord '\'' = false := words.ascii '\'' (by decide)

theorem qualified_literal {inner : List Char} :
    qualified words table [] wordBefore ('\'' :: inner ++ '\'' :: letters) =
      '\'' :: qualified words table [] false inner ++
        '\'' :: qualified words table [] false letters := by
  rw [cons_append, qualified_cons (not_continues_of_letter (by decide)), isWord_quote,
    qualified_append isWord_quote]
  rfl

theorem mem_qualified {other : Char}
    (member : other ∈ qualified words table run wordBefore letters) :
    other ∈ run ∨ other ∈ letters ∨ other ∈ table.name.toList ∨ other = '.' := by
  have token : ∀ text : List Char, other ∈ qualifyToken table text →
      other ∈ text ∨ other ∈ table.name.toList ∨ other = '.' := by
    intro text inside
    unfold qualifyToken at inside
    split at inside
    · exact .inl inside
    · split at inside
      · rcases List.mem_append.mp inside with named | later
        · exact .inr (.inl named)
        · rcases List.mem_cons.mp later with isPoint | own
          · exact .inr (.inr isPoint)
          · exact .inl own
      · exact .inl inside
  induction letters generalizing run wordBefore with
  | nil =>
    rcases token _ member with own | added
    · exact .inl (List.mem_reverse.mp own)
    · exact .inr (.inr added)
  | cons letter letters ih =>
    by_cases continues : Continues run wordBefore letter
    · rw [qualified_continue continues] at member
      rcases ih member with inRun | inLetters | added
      · rcases List.mem_cons.mp inRun with isFirst | inside
        · exact .inr (.inl (List.mem_cons.mpr (.inl isFirst)))
        · exact .inl inside
      · exact .inr (.inl (mem_cons_of_mem letter inLetters))
      · exact .inr (.inr added)
    · rw [qualified_stop continues] at member
      rcases List.mem_append.mp member with before | later
      · split at before
        · rcases token _ before with own | added
          · exact .inl (List.mem_reverse.mp own)
          · exact .inr (.inr added)
        · exact .inl (List.mem_reverse.mp before)
      · rcases List.mem_cons.mp later with isFirst | rest
        · exact .inr (.inl (List.mem_cons.mpr (.inl isFirst)))
        · rcases ih rest with inRun | inLetters | added
          · cases inRun
          · exact .inr (.inl (mem_cons_of_mem letter inLetters))
          · exact .inr (.inr added)

end Letters

/-! ## The tokens of an admitted expression -/

section Tokens

variable {words : WordClass} {table : Table}

/-- Two texts that agree split alike where a kind of letter stops. -/
theorem append_unique {keep : Char → Bool} {first second left right : List Char}
    (keepFirst : ∀ letter ∈ first, keep letter = true)
    (keepSecond : ∀ letter ∈ second, keep letter = true)
    (stopLeft : ∀ letter, left.head? = some letter → keep letter = false)
    (stopRight : ∀ letter, right.head? = some letter → keep letter = false)
    (same : first ++ left = second ++ right) : first = second ∧ left = right := by
  have none : ∀ rest : List Char, (∀ letter, rest.head? = some letter → keep letter = false) →
      rest.takeWhile keep = [] := by
    intro rest stops
    cases rest with
    | nil => rfl
    | cons letter rest => rw [takeWhile_cons, stops letter rfl]; rfl
  have heads := congrArg (List.takeWhile keep) same
  rw [takeWhile_append_of_pos keepFirst, takeWhile_append_of_pos keepSecond,
    none left stopLeft, none right stopRight, append_nil, append_nil] at heads
  rw [heads] at same
  exact ⟨heads, append_cancel_left same⟩

theorem isWord_of_ascii {letter : Char} (ascii : letter.toNat < 128)
    (other : isIdentifierLetter letter = false) : words.isWord letter = false := by
  rw [words.ascii letter ascii, other]

variable {letter : Char}

theorem operator_letter (operator : letter = '!' ∨ isOperator letter = true) :
    letter.toNat < 128 ∧ isIdentifierLetter letter = false ∧ letter ≠ '.' := by
  simp only [isOperator, contains_iff_mem, mem_cons, not_mem_nil, or_false] at operator
  rcases operator with rfl | rfl | rfl | rfl | rfl | rfl | rfl | rfl <;> decide

theorem punctuation_letter (punctuation : isPunctuation letter = true) :
    letter.toNat < 128 ∧ isIdentifierLetter letter = false ∧ letter ≠ '.' := by
  simp only [isPunctuation, contains_iff_mem, mem_cons, not_mem_nil, or_false] at punctuation
  rcases punctuation with rfl | rfl | rfl <;> decide

theorem not_letter_of_not_word (notWord : words.isWord letter = false) :
    isIdentifierStart letter = false := by
  rw [Bool.eq_false_iff]
  intro start
  exact absurd ((isIdentifierLetter_of_not_word notWord).symm.trans
    (isIdentifierLetter_of_start start)) Bool.false_ne_true

variable {first : Char} {rest after letters : List Char} {token : Token}
  {others found : List Token} {wordBefore : Bool}

theorem isWord_of_scans (scans : Scans first rest token after) (known : token.isKnown = true)
    (notLetter : isIdentifierLetter first = false) :
    words.isWord first = isNumberToken token := by
  cases scans with
  | ws space => exact words.space first space
  | str => exact isWord_quote
  | num digit => exact words.digit first digit
  | op operators whole nonempty =>
    rename_i text
    cases text with
    | nil => exact absurd rfl nonempty
    | cons letter text =>
      cases whole
      have other := operator_letter (operators first mem_cons_self)
      exact isWord_of_ascii other.1 other.2.1
  | punct punctuation =>
    have other := punctuation_letter punctuation
    exact isWord_of_ascii other.1 other.2.1
  | ident start =>
    rw [isIdentifierLetter_of_start start] at notLetter
    cases notLetter
  | bad => cases known

theorem first_ne_point (scans : Scans first rest token after)
    (known : token.isKnown = true) : first ≠ '.' := by
  rintro rfl
  cases scans with
  | ws space => exact absurd space (by decide)
  | num digit => exact absurd digit (by decide)
  | op operators whole nonempty =>
    rename_i text
    cases text with
    | nil => exact absurd rfl nonempty
    | cons letter text =>
      cases whole
      exact (operator_letter (operators '.' mem_cons_self)).2.2 rfl
  | punct punctuation => exact (punctuation_letter punctuation).2.2 rfl
  | ident start => exact absurd start (by decide)
  | bad => cases known

theorem head_isWord (tokenizes : Tokenizes letters found)
    (known : ∀ token ∈ found, token.isKnown = true)
    (ends : ∀ letter, letters.head? = some letter → isIdentifierLetter letter = false) :
    letters.head?.any words.isWord = found.head?.any isNumberToken := by
  cases tokenizes with
  | nil => rfl
  | cons scans _ =>
    exact isWord_of_scans scans (known _ mem_cons_self) (ends _ rfl)

theorem head_ne_point (tokenizes : Tokenizes letters found)
    (known : ∀ token ∈ found, token.isKnown = true) : letters.head? ≠ some '.' := by
  cases tokenizes with
  | nil => exact nofun
  | cons scans _ =>
    intro isPoint
    exact first_ne_point scans (known _ mem_cons_self) (Option.some.inj isPoint)

theorem head_dropWhile (head : (rest.dropWhile isIdentifierLetter).head? = some letter) :
    isIdentifierLetter letter = false := by
  have stops := List.head?_dropWhile_not isIdentifierLetter rest
  rw [head] at stops
  simpa using stops

theorem head_isColumn (tokenizes : Tokenizes letters found)
    (ends : ∀ letter, letters.head? = some letter → isIdentifierLetter letter = false) :
    found.head?.any (isColumnToken table) = false := by
  cases tokenizes with
  | nil => rfl
  | cons scans _ =>
    cases scans with
    | ident start =>
      have notLetter := ends _ rfl
      rw [isIdentifierLetter_of_start start] at notLetter
      cases notLetter
    | _ => rfl

theorem columnsApart_cons : ColumnsApart words table (token :: others) ↔
      (∀ inner, token = .str inner → ∀ text ∈ wordsOf words inner, namesColumn table text = false) ∧
      ¬(isNumberToken token = true ∧ others.head?.any (isColumnToken table) = true) ∧
      ¬(isColumnToken table token = true ∧ others.head?.any isNumberToken = true) ∧
      ColumnsApart words table others := by
  constructor
  · rintro ⟨literals, numbers⟩
    refine ⟨fun inner same => literals inner (same ▸ mem_cons_self), ?_, ?_,
      fun inner member => literals inner (mem_cons_of_mem token member), ?_⟩
    · cases others with
      | nil => exact fun both => absurd both.2 Bool.false_ne_true
      | cons other others => exact (List.isChain_cons_cons.mp numbers).1.1
    · cases others with
      | nil => exact fun both => absurd both.2 Bool.false_ne_true
      | cons other others => exact (List.isChain_cons_cons.mp numbers).1.2
    · exact numbers.tail
  · rintro ⟨own, before, behind, literals, numbers⟩
    constructor
    · intro inner member
      rcases List.mem_cons.mp member with same | inside
      · exact own inner same.symm
      · exact literals inner inside
    · cases others with
      | nil => exact List.IsChain.singleton token
      | cons other others => exact List.isChain_cons_cons.mpr ⟨⟨before, behind⟩, numbers⟩

theorem toNat_of_isIdentifierStart
    (start : isIdentifierStart letter = true) : 58 ≤ letter.toNat ∧ letter.toNat < 128 := by
  refine ⟨?_, toNat_lt_of_isIdentifierLetter (isIdentifierLetter_of_start start)⟩
  rcases Bool.or_eq_true_iff.mp start with alphabetic | underscore
  · rcases Bool.or_eq_true_iff.mp (Bool.and_eq_true_iff.mp alphabetic).2 with upper | lower
    · have above : 65 ≤ letter.toNat :=
        UInt32.le_iff_toNat_le.mp (of_decide_eq_true upper).1
      exact Nat.le_trans (by decide) above
    · have above : 97 ≤ letter.toNat :=
        UInt32.le_iff_toNat_le.mp (of_decide_eq_true (Bool.and_eq_true_iff.mp lower).1)
      exact Nat.le_trans (by decide) above
  · rw [eq_of_beq underscore]
    decide

theorem exists_digitRun (isDigit : isDecimalDigit letter = true) :
    ∃ run ∈ digitRuns, run ≤ letter.toNat ∧ letter.toNat < run + 10 := by
  rcases Option.isSome_iff_exists.mp isDigit with ⟨value, found⟩
  rcases exists_of_findSome?_eq_some found with ⟨run, member, inside⟩
  refine ⟨run, member, ?_⟩
  by_contra outside
  rw [if_neg outside] at inside
  cases inside

theorem isIdentifierStart_of_digit (isDigit : isDecimalDigit letter = true) :
    isIdentifierStart letter = false := by
  rw [Bool.eq_false_iff]
  intro start
  have range := toNat_of_isIdentifierStart start
  rcases exists_digitRun isDigit with ⟨run, member, within⟩
  have runs : ∀ run ∈ digitRuns, run = 48 ∨ 128 ≤ run := by decide
  rcases runs run member with first | other
  · omega
  · omega

theorem qualified_verbatim {text : List Char} (nonempty : text ≠ [])
    (notWord : ∀ letter ∈ text, words.isWord letter = false) :
    qualified words table [] wordBefore (text ++ letters) =
      text ++ qualified words table [] false letters := by
  rw [qualified_plain fun letter member => not_letter_of_not_word (notWord letter member)]
  have last := dropLast_append_getLast nonempty
  rw [← last, wordAfter_concat, notWord _ (getLast_mem nonempty)]

theorem qualified_number {text : List Char} (number : IsNumber text) :
    qualified words table [] wordBefore (text ++ letters) =
      text ++ qualified words table [] true letters := by
  have plain : ∀ letter ∈ text, isIdentifierStart letter = false := by
    intro letter member
    rcases number.letters letter member with isDigit | isPoint
    · exact isIdentifierStart_of_digit isDigit
    · exact isPoint ▸ rfl
  rcases number.last with ⟨before, digit, same, isDigit⟩
  rw [qualified_plain plain, same, wordAfter_concat, words.digit digit isDigit]

def Written (words : WordClass) (table : Table) (after : List Char) (others : List Token) : Prop :=
  ∀ wordBefore, qualified words table [] wordBefore after = others.flatMap (declaredText table) ↔
    (wordBefore = true → others.head?.any (isColumnToken table) = false) ∧
      ColumnsApart words table others

theorem written_plain (rest : Written words table after others)
    (verbatim : qualified words table [] wordBefore (token.text ++ after) =
      token.text ++ qualified words table [] (isNumberToken token) after)
    (declared : declaredText table token = token.text)
    (noColumn : isColumnToken table token = false)
    (noLiteral : ∀ inner, token ≠ .str inner) :
    qualified words table [] wordBefore (token.text ++ after) =
        declaredText table token ++ others.flatMap (declaredText table) ↔
      (wordBefore = true → isColumnToken table token = false) ∧
        ColumnsApart words table (token :: others) := by
  rw [verbatim, declared, append_cancel_left_eq, rest, columnsApart_cons, noColumn]
  constructor
  · rintro ⟨before, apart⟩
    refine ⟨fun _ => rfl, fun inner same => absurd same (noLiteral inner), ?_, ?_, apart⟩
    · rintro ⟨number, column⟩
      exact absurd ((before number).symm.trans column) Bool.false_ne_true
    · exact fun both => absurd both.1 Bool.false_ne_true
  · rintro ⟨-, -, before, -, apart⟩
    refine ⟨fun number => ?_, apart⟩
    rw [Bool.eq_false_iff]
    exact fun column => before ⟨number, column⟩

theorem quote_not_mem_name : '\'' ∉ table.name.toList := by
  intro member
  exact absurd ((isSqlIdentifier_iff.mp table.nameSafe).2 _ member) (by decide)

theorem written_literal {inner : List Char} (rest : Written words table after others)
    (quotable : ∀ letter ∈ inner, isQuotable letter = true) :
    qualified words table [] wordBefore ((Token.str inner).text ++ after) =
        declaredText table (.str inner) ++ others.flatMap (declaredText table) ↔
      (wordBefore = true → isColumnToken table (.str inner) = false) ∧
        ColumnsApart words table (.str inner :: others) := by
  have noQuote : ∀ letter ∈ inner, (letter != '\'') = true := by
    intro letter member
    have fine := quotable letter member
    rw [isQuotable, Bool.and_eq_true] at fine
    exact fine.1
  have noQuoteWritten : ∀ letter ∈ qualified words table [] false inner,
      (letter != '\'') = true := by
    intro letter member
    rcases mem_qualified member with none | own | named | isPoint
    · cases none
    · exact noQuote letter own
    · rw [bne_iff_ne]
      rintro rfl
      exact quote_not_mem_name named
    · exact isPoint ▸ rfl
  have stops : ∀ rest : List Char, ∀ letter, ('\'' :: rest).head? = some letter →
      (letter != '\'') = false := by
    rintro rest letter ⟨⟩
    rfl
  have split : qualified words table [] wordBefore ((Token.str inner).text ++ after) =
        declaredText table (.str inner) ++ others.flatMap (declaredText table) ↔
      qualified words table [] false inner = inner ∧
        qualified words table [] false after = others.flatMap (declaredText table) := by
    have text : (Token.str inner).text ++ after = '\'' :: inner ++ '\'' :: after := by
      simp [Token.text]
    have declared : declaredText table (.str inner) ++ others.flatMap (declaredText table) =
        '\'' :: inner ++ '\'' :: others.flatMap (declaredText table) := by
      simp [declaredText, Token.text]
    rw [text, declared, qualified_literal, cons_append, cons_append, cons_inj_right]
    constructor
    · intro same
      rcases append_unique noQuoteWritten noQuote (stops _) (stops _) same with ⟨quoted, later⟩
      exact ⟨quoted, (List.cons.inj later).2⟩
    · rintro ⟨quoted, later⟩
      rw [quoted, later]
  rw [split, qualified_eq_self_iff, rest, columnsApart_cons]
  constructor
  · rintro ⟨quoted, -, apart⟩
    refine ⟨fun _ => rfl, ?_, fun both => absurd both.1 Bool.false_ne_true,
      fun both => absurd both.1 Bool.false_ne_true, apart⟩
    rintro _ ⟨⟩
    exact quoted
  · rintro ⟨-, own, -, -, apart⟩
    exact ⟨own inner rfl, fun word => absurd word Bool.false_ne_true, apart⟩

theorem written_identifier {text : List Char} (rest : Written words table after others)
    (tokenizes : Tokenizes after others) (known : ∀ token ∈ others, token.isKnown = true)
    (identifier : isSqlIdentifier text = true)
    (ends : ∀ letter, after.head? = some letter → isIdentifierLetter letter = false) :
    qualified words table [] wordBefore (text ++ after) =
        declaredText table (.ident text) ++ others.flatMap (declaredText table) ↔
      (wordBefore = true → isColumnToken table (.ident text) = false) ∧
        ColumnsApart words table (.ident text :: others) := by
  have notColumn := @head_isColumn table _ _ tokenizes ends
  have noLiteral : ∀ inner, Token.ident text = .str inner →
      ∀ quoted ∈ wordsOf words inner, namesColumn table quoted = false := nofun
  have noNumber : ¬(isNumberToken (.ident text) = true ∧
      others.head?.any (isColumnToken table) = true) :=
    fun both => absurd both.1 Bool.false_ne_true
  have later := rest true
  rw [qualified_identifier identifier ends, qualifyToken_eq identifier,
    head_isWord tokenizes known ends, columnsApart_cons]
  by_cases column : namesColumn table text = true
  · have isColumn : isColumnToken table (.ident text) = true := column
    have declared : declaredText table (.ident text) = table.name.toList ++ '.' :: text :=
      if_pos column
    rw [if_pos column, declared, isColumn]
    by_cases apart : wordBefore = false ∧ others.head?.any isNumberToken = false
    · rw [if_pos apart, append_cancel_left_eq, later]
      constructor
      · rintro ⟨-, others⟩
        refine ⟨fun word => ?_, noLiteral, noNumber, ?_, others⟩
        · exact absurd (apart.1.symm.trans word) Bool.false_ne_true
        · exact fun both => absurd (apart.2.symm.trans both.2) Bool.false_ne_true
      · rintro ⟨-, -, -, -, others⟩
        exact ⟨fun _ => notColumn, others⟩
    · rw [if_neg apart]
      apply iff_of_false
      · intro same
        have within := (isSqlIdentifier_iff.mp identifier).2
        have nameWithin := (isSqlIdentifier_iff.mp table.nameSafe).2
        have heads : ∀ letter, (qualified words table [] true after).head? = some letter →
            isIdentifierLetter letter = false ∧ letter ≠ '.' := by
          intro letter head
          cases after with
          | nil =>
            rw [qualified, reverse_nil, qualifyToken_nil] at head
            cases head
          | cons other after =>
            have stop := ends other rfl
            rw [qualified_cons (not_continues_of_letter stop)] at head
            cases head
            refine ⟨stop, ?_⟩
            rintro rfl
            exact head_ne_point tokenizes known rfl
        rw [append_assoc] at same
        have split := append_unique within nameWithin (fun letter head => (heads letter head).1)
          (by rintro letter ⟨⟩; decide) same
        exact (heads '.' (by rw [split.2]; rfl)).2 rfl
      · rintro ⟨before, -, -, behind, -⟩
        apply apart
        constructor
        · rw [Bool.eq_false_iff]
          exact fun word => absurd (before word).symm Bool.false_ne_true
        · rw [Bool.eq_false_iff]
          exact fun number => behind ⟨rfl, number⟩
  · have isColumn : isColumnToken table (.ident text) = false :=
      Bool.eq_false_iff.mpr column
    have declared : declaredText table (.ident text) = text := if_neg column
    rw [if_neg column, ite_self, declared, isColumn, append_cancel_left_eq, later]
    constructor
    · rintro ⟨-, others⟩
      exact ⟨fun _ => rfl, noLiteral, noNumber,
        fun both => absurd both.1 Bool.false_ne_true, others⟩
    · rintro ⟨-, -, -, -, others⟩
      exact ⟨fun _ => notColumn, others⟩

/-- A text is written as the bundle declares its tokens unless a literal quotes a column,
or a column is no whole word. -/
theorem written_tokenizes (tokenizes : Tokenizes letters found)
    (known : ∀ token ∈ found, token.isKnown = true) : Written words table letters found := by
  induction tokenizes with
  | nil =>
    intro wordBefore
    apply iff_of_true
    · exact qualifyToken_nil
    · refine ⟨fun _ => rfl, ?_, .nil⟩
      intro inner member
      cases member
  | @cons first rest after token others scans tokenizes ih =>
    intro wordBefore
    have later := ih fun other member => known other (mem_cons_of_mem token member)
    rw [← scans.append, flatMap_cons]
    cases scans with
    | ws space =>
      have spaces : ∀ letter ∈ first :: rest.takeWhile isSpace, words.isWord letter = false := by
        intro letter member
        rcases List.mem_cons.mp member with rfl | inside
        · exact words.space letter space
        · exact words.space letter (mem_takeWhile_imp inside)
      exact written_plain later (qualified_verbatim (cons_ne_nil _ _) spaces) rfl rfl nofun
    | str quotable => exact written_literal later quotable
    | num _ number => exact written_plain later (qualified_number number) rfl rfl nofun
    | op operators _ nonempty =>
      have notWord := fun letter member =>
        have other := operator_letter (operators letter member)
        @isWord_of_ascii words letter other.1 other.2.1
      exact written_plain later (qualified_verbatim nonempty notWord) rfl rfl nofun
    | punct punctuation =>
      have other := punctuation_letter punctuation
      have notWord : ∀ letter ∈ [first], words.isWord letter = false := by
        intro letter member
        rw [List.mem_singleton.mp member]
        exact isWord_of_ascii other.1 other.2.1
      exact written_plain later (qualified_verbatim (cons_ne_nil _ _) notWord) rfl rfl nofun
    | ident start =>
      have identifier : isSqlIdentifier (first :: rest.takeWhile isIdentifierLetter) =
          true := by
        rw [isSqlIdentifier_cons, start, Bool.true_and]
        exact all_takeWhile
      have knownOthers := fun other member =>
        known other (mem_cons_of_mem _ member)
      exact written_identifier later tokenizes knownOthers identifier fun _ head =>
        head_dropWhile head
    | bad => cases known _ mem_cons_self

end Tokens

/-- Qualifying an expression that the grammar admits changes only its column references
exactly where its literals quote no word that names a column and no column is written
next to a number. -/
theorem changesOnlyColumns_iff (words : WordClass) (table : Table)
    {upper : String → String} (expression : BundleExpression upper) :
    ChangesOnlyColumns words table expression.expression ↔
      ColumnsApart words table (tokenize expression.expression.toList) := by
  have written := @written_tokenizes words table _ _
    (tokenizes_tokenize expression.expression.toList) (isKnown_of_admitted expression) false
  rw [ChangesOnlyColumns, qualifyBundleExpression_eq, String.ofList_inj, written]
  constructor
  · exact fun both => both.2
  · exact fun apart => ⟨fun word => absurd word Bool.false_ne_true, apart⟩

variable {letter : Char}

theorem isDigit_of_isDecimalDigit (isDigit : isDecimalDigit letter = true)
    (ascii : letter.toNat < 128) : letter.isDigit = true := by
  rcases exists_digitRun isDigit with ⟨run, member, within⟩
  have runs : ∀ run ∈ digitRuns, run = 48 ∨ 128 ≤ run := by decide
  have first : run = 48 := by
    rcases runs run member with first | other
    · exact first
    · omega
  rw [first] at within
  rw [Char.isDigit, Bool.and_eq_true, decide_eq_true_eq, decide_eq_true_eq]
  exact ⟨within.1, Nat.le_of_lt_succ within.2⟩

theorem not_isSpace_of_isDecimalDigit
    (isDigit : isDecimalDigit letter = true) : isSpace letter = false := by
  rcases exists_digitRun isDigit with ⟨run, member, within⟩
  have runs : ∀ run ∈ digitRuns, (run = 48 ∨ 0x660 ≤ run) ∧
      (run + 10 ≤ 0x1680 ∨ 0x1680 < run) ∧ (run + 10 ≤ 0x2000 ∨ 0x3000 < run) := by decide
  have apart := runs run member
  simp only [isSpace, contains_cons, contains_nil, Bool.or_false,
    Bool.or_eq_false_iff, Bool.and_eq_false_iff, decide_eq_false_iff_not, beq_eq_false_iff_ne]
  omega

theorem not_isSpace_of_isIdentifierLetter
    (isLetter : isIdentifierLetter letter = true) : isSpace letter = false := by
  have range : 48 ≤ letter.toNat ∧ letter.toNat < 128 := by
    refine ⟨?_, toNat_lt_of_isIdentifierLetter isLetter⟩
    rw [isIdentifierLetter, Bool.or_eq_true] at isLetter
    rcases isLetter with start | digit
    · exact Nat.le_trans (by decide) (toNat_of_isIdentifierStart start).1
    · rw [Char.isDigit, Bool.and_eq_true, decide_eq_true_eq] at digit
      exact digit.1
  simp only [isSpace, contains_cons, contains_nil, Bool.or_false,
    Bool.or_eq_false_iff, Bool.and_eq_false_iff, decide_eq_false_iff_not, beq_eq_false_iff_ne]
  omega

def plainWords : WordClass where
  isWord := fun letter => isIdentifierLetter letter || isDecimalDigit letter
  ascii := by
    intro letter ascii
    cases isDigit : isDecimalDigit letter with
    | false => rw [Bool.or_false]
    | true => rw [isIdentifierLetter, isDigit_of_isDecimalDigit isDigit ascii]; simp
  digit := by
    intro letter isDigit
    rw [isDigit, Bool.or_true]
  space := by
    intro letter space
    rw [Bool.or_eq_false_iff, Bool.eq_false_iff, Bool.eq_false_iff]
    constructor
    · intro isLetter
      exact absurd ((not_isSpace_of_isIdentifierLetter isLetter).symm.trans space)
        Bool.false_ne_true
    · intro isDigit
      exact absurd ((not_isSpace_of_isDecimalDigit isDigit).symm.trans space) Bool.false_ne_true

/-- Upper case, for letters of the English alphabet. -/
def englishUpper (raw : String) : String :=
  String.ofList (raw.toList.map Char.toUpper)

def billFact : Table where
  name := "ai_v1_bq_bill_fact"
  columns := ["id", "type", "payable", "status"]
  nameSafe := by decide +kernel
  columnsSafe := by decide +kernel

def payableStatus : BundleExpression englishUpper where
  expression := "status = 'payable'"
  allowed := billFact.columns
  admitted := by decide +kernel

/-- The bills whose status is `payable` are asked for, and the status is compared with the
text `ai_v1_bq_bill_fact.payable`. -/
theorem payableStatus_changed :
    ¬ChangesOnlyColumns plainWords billFact payableStatus.expression := by
  have written : qualifyBundleExpression plainWords billFact payableStatus.expression =
      "ai_v1_bq_bill_fact.status = 'ai_v1_bq_bill_fact.payable'" := by decide +kernel
  have declared : String.ofList ((tokenize payableStatus.expression.toList).flatMap
      (declaredText billFact)) = "ai_v1_bq_bill_fact.status = 'payable'" := by
    decide +kernel
  rw [ChangesOnlyColumns, written, declared]
  decide +kernel

end McpAssistant.BusinessQuery.QualifiedExpressions
