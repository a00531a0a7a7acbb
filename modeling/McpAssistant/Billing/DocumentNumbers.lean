import McpAssistant.Billing.StockWrites
import McpAssistant.Foundations.Interleaving

/-!
# Document numbers

A sequence is the numbers of one type in one period.  While every row whose
number starts as the sequence does is of the sequence's type and has three
digits after that start, the last number in text order is the largest, so the
next one is new.  Types that share the start `ST`, and a sequence past 999,
break this.
-/

namespace McpAssistant.Billing.DocumentNumbers

open Foundations.Interleaving
open Foundations.Procedures
open StockEntries

variable {database : Database} {session : Session}

/-- A text's last three letters are digits. -/
def EndsInDigits (text : String) : Prop :=
  ∃ start a b c, text.toList = start ++ [a, b, c] ∧
    a.isDigit = true ∧ b.isDigit = true ∧ c.isDigit = true

variable {letter : Char} (digit : letter.isDigit = true)
include digit

theorem toNat_of_isDigit : 48 ≤ letter.toNat ∧ letter.toNat ≤ 57 := by
  rw [Char.isDigit, Bool.and_eq_true, decide_eq_true_eq, decide_eq_true_eq] at digit
  exact digit

theorem utf8EncodeChar_of_isDigit : String.utf8EncodeChar letter = [letter.toUInt8] := by
  apply String.utf8EncodeChar_eq_singleton
  rw [Char.utf8Size_eq_one_iff]
  have := toNat_of_isDigit digit
  show letter.val.toNat ≤ 127
  exact Nat.le_trans this.2 (by decide)

theorem toNat_toUInt8_of_isDigit : letter.toUInt8.toNat = letter.toNat := by
  have := toNat_of_isDigit digit
  show letter.val.toUInt8.toNat = letter.toNat
  rw [UInt32.toNat_toUInt8]
  exact Nat.mod_eq_of_lt (Nat.lt_of_le_of_lt this.2 (by decide))

theorem isDigitByte_of_isDigit : isDigitByte letter.toUInt8 = true := by
  have := toNat_of_isDigit digit
  have byte := toNat_toUInt8_of_isDigit digit
  rw [isDigitByte, Bool.and_eq_true, decide_eq_true_eq, decide_eq_true_eq,
    UInt8.le_iff_toNat_le, UInt8.le_iff_toNat_le, byte]
  exact this

omit digit

variable {text : String} {start : List Char}

theorem lastBytes_of_digits {a b c : Char}
    (ends : text.toList = start ++ [a, b, c]) (digitA : a.isDigit = true)
    (digitB : b.isDigit = true) (digitC : c.isDigit = true) :
    lastBytes text 3 = [a.toUInt8, b.toUInt8, c.toUInt8] := by
  have bytes : text.toList.flatMap String.utf8EncodeChar =
      start.flatMap String.utf8EncodeChar ++ [a.toUInt8, b.toUInt8, c.toUInt8] := by
    rw [ends, List.flatMap_append]
    simp [utf8EncodeChar_of_isDigit digitA, utf8EncodeChar_of_isDigit digitB,
      utf8EncodeChar_of_isDigit digitC]
  unfold lastBytes
  rw [bytes]
  simp

theorem intval_of_digits {a b c : UInt8} (digitA : isDigitByte a = true)
    (digitB : isDigitByte b = true) (digitC : isDigitByte c = true) :
    intval [a, b, c] = digitsValue [a, b, c] := by
  have bounds := digitA
  rw [isDigitByte, Bool.and_eq_true, decide_eq_true_eq, decide_eq_true_eq,
    UInt8.le_iff_toNat_le, UInt8.le_iff_toNat_le] at bounds
  have low : 48 ≤ a.toNat := bounds.1
  have notSpace : isSpaceByte a = false := by
    rw [isSpaceByte, Bool.or_eq_false_iff, Bool.and_eq_false_iff,
      decide_eq_false_iff_not, decide_eq_false_iff_not, UInt8.le_iff_toNat_le,
      UInt8.le_iff_toNat_le, beq_eq_false_iff_ne]
    constructor
    · rintro rfl
      exact absurd low (by decide)
    · right
      show ¬ a.toNat ≤ 13
      omega
  have notMinus : (a == 45) = false := by
    rw [beq_eq_false_iff_ne]
    rintro rfl
    exact absurd low (by decide)
  have notPlus : (a == 43) = false := by
    rw [beq_eq_false_iff_ne]
    rintro rfl
    exact absurd low (by decide)
  simp [intval, leadingMagnitude, notSpace, notMinus, notPlus, digitA, digitB, digitC]

theorem intval_lastBytes {a b c : Char}
    (ends : text.toList = start ++ [a, b, c]) (digitA : a.isDigit = true)
    (digitB : b.isDigit = true) (digitC : c.isDigit = true) :
    intval (lastBytes text 3) = Nat.ofDigitChars 10 [a, b, c] 0 := by
  rw [lastBytes_of_digits ends digitA digitB digitC,
    intval_of_digits (isDigitByte_of_isDigit digitA) (isDigitByte_of_isDigit digitB)
      (isDigitByte_of_isDigit digitC)]
  simp [digitsValue, Nat.ofDigitChars, toNat_toUInt8_of_isDigit digitA,
    toNat_toUInt8_of_isDigit digitB, toNat_toUInt8_of_isDigit digitC]

/-- Among texts of one start and three digits more, the smaller number comes
first. -/
theorem lt_of_ofDigitChars_lt {a b c x y z : Char}
    (digitA : a.isDigit = true) (digitB : b.isDigit = true) (digitC : c.isDigit = true)
    (digitX : x.isDigit = true) (digitY : y.isDigit = true) (digitZ : z.isDigit = true)
    (less : Nat.ofDigitChars 10 [a, b, c] 0 < Nat.ofDigitChars 10 [x, y, z] 0) :
    start ++ [a, b, c] < start ++ [x, y, z] := by
  induction start with
  | cons head start ih => exact List.cons_lt_cons_iff.mpr (Or.inr ⟨rfl, ih⟩)
  | nil =>
    have boundA := toNat_of_isDigit digitA
    have boundB := toNat_of_isDigit digitB
    have boundC := toNat_of_isDigit digitC
    have boundX := toNat_of_isDigit digitX
    have boundY := toNat_of_isDigit digitY
    have boundZ := toNat_of_isDigit digitZ
    simp only [Nat.ofDigitChars, List.foldl_cons, List.foldl_nil] at less
    have zero : '0'.toNat = 48 := rfl
    have split : a.toNat < x.toNat ∨ a.toNat = x.toNat ∧
        (b.toNat < y.toNat ∨ b.toNat = y.toNat ∧ c.toNat < z.toNat) := by
      omega
    simp only [List.nil_append, List.cons_lt_cons_iff]
    rcases split with first | ⟨sameA, second | ⟨sameB, third⟩⟩
    · exact Or.inl first
    · exact Or.inr ⟨Char.toNat_inj.mp sameA, Or.inl second⟩
    · exact Or.inr ⟨Char.toNat_inj.mp sameA, Or.inr ⟨Char.toNat_inj.mp sameB, Or.inl third⟩⟩

theorem toList_strPad (text : String) (width : Nat) : (strPad text width).toList =
      List.replicate (width - text.length) '0' ++ text.toList :=
  String.toList_ofList

theorem plain_strPad (plain : Plain text) (width : Nat) : Plain (strPad text width) := by
  intro letter member
  rw [toList_strPad, List.mem_append] at member
  rcases member with padding | inText
  · rw [List.eq_of_mem_replicate padding]
    rfl
  · exact plain letter inText

theorem plain_append {left right : String} (first : Plain left) (second : Plain right) :
    Plain (left ++ right) := by
  intro letter member
  rw [String.toList_append, List.mem_append] at member
  exact member.elim (first letter) (second letter)

theorem plain_of_isDigit (digits : ∀ letter ∈ text.toList, letter.isDigit = true) : Plain text := by
  intro letter member
  rw [plainLetter, digits letter member]
  rfl

theorem isDigit_of_mem_natRepr {number : Nat}
    (member : letter ∈ (toString number).toList) : letter.isDigit = true := by
  rw [Nat.toString_eq_repr, Nat.toList_repr] at member
  exact Nat.isDigit_of_mem_toDigits (by decide) (by decide) member

theorem plain_toString_int (number : Int) : Plain (toString number) := by
  cases number with
  | ofNat value => exact plain_of_isDigit fun _ => isDigit_of_mem_natRepr
  | negSucc value =>
    intro letter member
    have signed : (toString (Int.negSucc value)).toList = '-' :: (toString (value + 1)).toList := by
      show ("-" ++ Nat.repr (value + 1)).toList = _
      rw [String.toList_append]
      rfl
    rw [signed, List.mem_cons] at member
    rcases member with rfl | inNumber
    · rfl
    · exact plain_of_isDigit (fun _ => isDigit_of_mem_natRepr) letter inNumber

theorem plain_of_all (all : text.toList.all plainLetter = true) : Plain text :=
  List.all_eq_true.mp all

theorem plain_typePrefix (type : String) : Plain (typePrefix type) := by
  apply plain_of_all
  unfold typePrefix
  split
  · rfl
  · split
    · rfl
    · split
      · rfl
      · rfl

theorem plain_sequenceStart (period : Period) (type : String) :
    Plain (sequenceStart period type) := by
  apply plain_append
  · apply plain_append (plain_typePrefix type)
    apply plain_of_isDigit
    intro letter member
    rw [lastLetters, String.toList_ofList] at member
    exact isDigit_of_mem_natRepr (List.mem_of_mem_drop member)
  · exact plain_strPad (plain_toString_int _) 2

/-- A padded number is digits, at least three of them, and ends in its own. -/
theorem digits_strPad (number : Nat) :
    ∀ letter ∈ (strPad (toString number) 3).toList, letter.isDigit = true := by
  intro letter member
  rw [toList_strPad, List.mem_append] at member
  rcases member with padding | inNumber
  · rw [List.eq_of_mem_replicate padding]
    rfl
  · exact isDigit_of_mem_natRepr inNumber

theorem length_strPad (text : String) (width : Nat) :
    width ≤ (strPad text width).toList.length := by
  rw [toList_strPad, List.length_append, List.length_replicate, String.length_toList]
  omega

theorem ofDigitChars_strPad (number : Nat) :
    Nat.ofDigitChars 10 (strPad (toString number) 3).toList 0 = number := by
  rw [toList_strPad, Nat.ofDigitChars_append, Nat.ofDigitChars_replicate_zero,
    Nat.mul_zero, Nat.toString_eq_repr, Nat.toList_repr, Nat.ofDigitChars_ten_toDigits]

theorem exists_last_three {letters : List Char} (long : 3 ≤ letters.length) :
    ∃ start a b c, letters = start ++ [a, b, c] := by
  have ending : (letters.drop (letters.length - 3)).length = 3 := by
    rw [List.length_drop]
    omega
  rcases List.length_eq_three.mp ending with ⟨a, b, c, same⟩
  exact ⟨letters.take (letters.length - 3), a, b, c, by
    rw [← same, List.take_append_drop]⟩

/-- A text that a document number can be: plain letters, the last three digits. -/
def Numbered (text : String) : Prop :=
  Plain text ∧ EndsInDigits text

theorem numbered_append_strPad {start : String} (plain : Plain start) (number : Nat) :
    Numbered (start ++ strPad (toString number) 3) := by
  constructor
  · exact plain_append plain (plain_of_isDigit (digits_strPad number))
  · rcases exists_last_three (length_strPad (toString number) 3) with
      ⟨before, a, b, c, ends⟩
    have digit := digits_strPad number
    rw [ends] at digit
    refine ⟨start.toList ++ before, a, b, c, ?_, ?_, ?_, ?_⟩
    · rw [String.toList_append, ends, List.append_assoc]
    · exact digit a (by simp)
    · exact digit b (by simp)
    · exact digit c (by simp)

variable {rows : List Journal}

theorem eq_nil_of_lastByDocumentNo (none : lastByDocumentNo database rows = none) : rows = [] := by
  cases rows with
  | nil => rfl
  | cons row rows =>
    simp only [lastByDocumentNo] at none
    split at none
    · cases none
    · split at none
      · cases none
      · cases none

theorem lastByDocumentNo_spec {last : Journal}
    (isLast : lastByDocumentNo database rows = some last) :
    last ∈ rows ∧ ∀ row ∈ rows,
      ¬ database.weight last.documentNo < database.weight row.documentNo := by
  induction rows generalizing last with
  | nil => cases isLast
  | cons row rows ih =>
    simp only [lastByDocumentNo] at isLast
    cases found : lastByDocumentNo database rows with
    | none =>
      rw [found] at isLast
      cases isLast
      rw [eq_nil_of_lastByDocumentNo found]
      constructor
      · exact List.mem_cons_self
      · intro other member
        rw [List.mem_singleton.mp member]
        exact List.lt_irrefl _
    | some latest =>
      rw [found] at isLast
      rcases ih found with ⟨member, greatest⟩
      simp only at isLast
      split at isLast
      · rename_i later
        cases isLast
        constructor
        · exact List.mem_cons_self
        · intro other isOther after
          rcases List.mem_cons.mp isOther with rfl | inRows
          · exact List.lt_irrefl _ after
          · exact greatest other inRows (List.lt_trans later after)
      · rename_i notLater
        cases isLast
        constructor
        · exact List.mem_cons_of_mem _ member
        · intro other isOther
          rcases List.mem_cons.mp isOther with rfl | inRows
          · exact notLater
          · exact greatest other inRows

theorem exists_nextSequence {last : Option Journal}
    (numbered : ∀ row ∈ last, EndsInDigits row.documentNo) :
    ∃ number : Nat, nextSequence last = number := by
  cases last with
  | none => exact ⟨1, rfl⟩
  | some row =>
    rcases numbered row rfl with ⟨start, a, b, c, ends, digitA, digitB, digitC⟩
    refine ⟨Nat.ofDigitChars 10 [a, b, c] 0 + 1, ?_⟩
    rw [nextSequence, intval_lastBytes ends digitA digitB digitC]
    rfl

/-- Every row of the entity whose number starts as the sequence's numbers do is
of the sequence's type and has three letters after that start. -/
def OwnSequence (database : Database) (journal : List Journal) (entityId : Int)
    (period : Period) (type : String) : Prop :=
  ∀ row ∈ journal, row.entityId = entityId →
    (sequenceStart period type).toList <+: row.documentNo.toList →
    database.same row.type type = true ∧
      row.documentNo.length = (sequenceStart period type).length + 3

section Fresh

variable {journal : List Journal} {entityId : Int} {period : Period} {type : String}

theorem mem_of_lastEntry {last : Journal}
    (isLast : lastEntry database session entityId period type journal = some last) :
    last ∈ journal :=
  (List.mem_filter.mp (lastByDocumentNo_spec isLast).1).1

theorem numbered_generateDocumentNumber (numbered : ∀ row ∈ journal, Numbered row.documentNo) :
    Numbered (generateDocumentNumber database session entityId period type journal) := by
  have last : ∀ row ∈ lastEntry database session entityId period type journal,
      EndsInDigits row.documentNo := by
    intro row isLast
    exact (numbered row (mem_of_lastEntry isLast)).2
  rcases exists_nextSequence last with ⟨number, same⟩
  rw [generateDocumentNumber, same]
  exact numbered_append_strPad (plain_sequenceStart period type) number

theorem digits_after_start {start text : String} (numbered : Numbered text)
    (starts : start.toList <+: text.toList) (length : text.length = start.length + 3) :
    ∃ a b c, text.toList = start.toList ++ [a, b, c] ∧
      a.isDigit = true ∧ b.isDigit = true ∧ c.isDigit = true := by
  rcases starts with ⟨ending, whole⟩
  rcases numbered.2 with ⟨before, a, b, c, ends, digits⟩
  have long : ending.length = 3 := by
    have total := congrArg List.length whole
    rw [List.length_append, String.length_toList, String.length_toList] at total
    omega
  have same : ending = [a, b, c] := (List.append_inj' (whole.trans ends) long).2
  exact ⟨a, b, c, by rw [← whole, same], digits⟩

theorem generateDocumentNumber_fresh (numbered : ∀ row ∈ journal, Numbered row.documentNo)
    (noCash : ∀ row ∈ journal, row.cash = false)
    (sees : session.seesEntity entityId = true)
    (own : OwnSequence database journal entityId period type) :
    ∀ row ∈ journal, row.entityId = entityId → row.documentNo ≠
      generateDocumentNumber database session entityId period type journal := by
  intro row member isEntity taken
  let start := sequenceStart period type
  have plainStart : Plain start := plain_sequenceStart period type
  have starts : start.toList <+: row.documentNo.toList := by
    rw [taken, generateDocumentNumber, String.toList_append]
    exact List.prefix_append _ _
  have matching : ∀ other ∈ journal.filter fun row =>
      session.seesRow row && row.entityId == entityId && database.same row.type type &&
        database.startsLike start row.documentNo,
      other ∈ journal ∧ other.entityId = entityId ∧ start.toList <+: other.documentNo.toList := by
    intro other found
    simp only [List.mem_filter, Bool.and_eq_true, beq_iff_eq] at found
    exact ⟨found.1, found.2.1.1.2,
      (database.startsLike_iff plainStart (numbered other found.1).1).mp found.2.2⟩
  have rowMatches : row ∈ journal.filter fun row =>
      session.seesRow row && row.entityId == entityId && database.same row.type type &&
        database.startsLike start row.documentNo := by
    simp only [List.mem_filter, Bool.and_eq_true, beq_iff_eq]
    refine ⟨member, ⟨⟨?_, isEntity⟩, (own row member isEntity starts).1⟩,
      (database.startsLike_iff plainStart (numbered row member).1).mpr starts⟩
    rw [Session.seesRow, isEntity, sees, noCash row member, Bool.true_and, Session.seesCash]
    split
    · rfl
    · exact Bool.or_true _
  cases found : lastEntry database session entityId period type journal with
  | none =>
    rw [eq_nil_of_lastByDocumentNo found] at rowMatches
    cases rowMatches
  | some last =>
    rcases lastByDocumentNo_spec found with ⟨lastMatches, greatest⟩
    rcases matching last lastMatches with ⟨lastMember, lastEntity, lastStarts⟩
    rcases digits_after_start (numbered last lastMember) lastStarts
      (own last lastMember lastEntity lastStarts).2 with
      ⟨a, b, c, lastEnds, digitA, digitB, digitC⟩
    rcases digits_after_start (numbered row member) starts (own row member isEntity starts).2 with
      ⟨x, y, z, rowEnds, digitX, digitY, digitZ⟩
    have next : nextSequence (some last) = ((Nat.ofDigitChars 10 [a, b, c] 0 + 1 : Nat) : Int) := by
      rw [nextSequence, intval_lastBytes lastEnds digitA digitB digitC]
      rfl
    have value : Nat.ofDigitChars 10 [x, y, z] 0 = Nat.ofDigitChars 10 [a, b, c] 0 + 1 := by
      have padded : (strPad (toString (nextSequence (some last))) 3).toList = [x, y, z] := by
        rw [taken, generateDocumentNumber, found, String.toList_append] at rowEnds
        exact List.append_cancel_left rowEnds
      rw [← padded, next]
      exact ofDigitChars_strPad _
    have before : last.documentNo.toList < row.documentNo.toList := by
      rw [lastEnds, rowEnds]
      apply lt_of_ofDigitChars_lt digitA digitB digitC digitX digitY digitZ
      rw [value]
      exact Nat.lt_succ_self _
    exact greatest row rowMatches
      ((database.weight_lt (numbered last lastMember).1 (numbered row member).1).mpr before)

end Fresh

def callType : Call → String
  | .handle _ posting => posting.type
  | .reverse _ _ _ _ => stockReversal

/-- The period a call takes its number in. -/
def callPeriod (database : Database) (journal : List Journal) : Call → Option Period
  | .handle session posting => session.findPeriod posting.periodId
  | .reverse session documentNo entityId _ =>
    (originalEntries database session documentNo entityId journal).head?.bind
      fun first => session.findPeriod first.periodId

/-- No document number is supplied. -/
def Unnumbered : Call → Prop
  | .handle _ posting => posting.suppliedNo = none
  | .reverse _ _ _ _ => True

/-- The sequence a call takes its number from is the call's own. -/
def KeepsSequence (database : Database) (journal : List Journal) (call : Call) : Prop :=
  ∀ period ∈ callPeriod database journal call,
    OwnSequence database journal (callEntity call) period (callType call)

section Writing

variable {call : Call} {journal rows : List Journal} {documentNo : String}

theorem writes_number (writes : Writes database call journal documentNo rows)
    (unnumbered : Unnumbered call) :
    ∃ period, period ∈ callPeriod database journal call ∧
      (callSession call).seesEntity (callEntity call) = true ∧
      documentNo = generateDocumentNumber database (callSession call) (callEntity call)
        period (callType call) journal := by
  cases call with
  | handle session posting =>
    rcases writes with ⟨user, period, _, _, _, isUser, isPeriod, rfl, _⟩
    refine ⟨period, isPeriod, ?_, ?_⟩
    · simp [callSession, callEntity, Session.seesEntity, isUser]
    · rw [show posting.suppliedNo = none from unnumbered, callEntity, isUser]
      rfl
  | reverse session original entityId reason =>
    rcases writes with ⟨first, period, isFirst, isPeriod, rfl, _⟩
    refine ⟨period, ?_, ?_, rfl⟩
    · show Option.bind _ _ = some period
      rw [isFirst]
      exact isPeriod
    · have found := List.mem_of_head? isFirst
      rw [originalEntries, List.mem_filter, Bool.and_eq_true, Bool.and_eq_true,
        Session.seesRow, Bool.and_eq_true, beq_iff_eq] at found
      show session.seesEntity entityId = true
      rw [← found.2.2]
      exact found.2.1.1.1

end Writing

/-- The rows one successful call added, with the entity and number they share. -/
structure Batch where
  entityId : Int
  documentNo : String
  rows : List Journal
deriving DecidableEq

def Batch.key (batch : Batch) : Int × String :=
  (batch.entityId, batch.documentNo)

/-- A ledger with the documents written so far. -/
structure Books where
  ledger : Ledger := {}
  batches : List Batch := []

def record (database : Database) (call : Call) (books : Books) : Books :=
  match serve database call books.ledger with
  | .ok response ledger =>
    match response.documentNo with
    | some documentNo => {
        ledger := ledger
        batches := books.batches ++ [{
          entityId := callEntity call
          documentNo := documentNo
          rows := ledger.rows.drop books.ledger.rows.length }] }
    | none => { books with ledger := ledger }
  | .error _ ledger => { books with ledger := ledger }

theorem record_cases (call : Call) (books : Books) :
    (∃ documentNo rows, Writes database call books.ledger.rows documentNo rows ∧
      (record database call books).ledger.rows = books.ledger.rows ++ rows ∧
      (record database call books).batches =
        books.batches ++ [⟨callEntity call, documentNo, rows⟩]) ∨
    ((record database call books).ledger.rows = books.ledger.rows ∧
      (record database call books).batches = books.batches) := by
  have leads := @leads_serve database books.ledger call
  unfold Leads at leads
  unfold record
  cases served : serve database call books.ledger with
  | error failure ledger =>
    rw [served] at leads
    exact Or.inr ⟨leads.2.1, rfl⟩
  | ok response ledger =>
    rw [served] at leads
    rcases leads with ⟨_, answered⟩
    cases reports : response.documentNo with
    | none =>
      rw [reports] at answered
      simp only [reports]
      exact Or.inr ⟨answered, trivial⟩
    | some documentNo =>
      rw [reports] at answered
      rcases answered with ⟨rows, writes, grown⟩
      simp only [reports]
      refine Or.inl ⟨documentNo, rows, writes, grown, ?_⟩
      rw [grown, List.drop_left]

/-- What holds of the books after calls that keep to sequences of their own. -/
structure Kept (books : Books) : Prop where
  numbered : ∀ row ∈ books.ledger.rows, Numbered row.documentNo
  noCash : ∀ row ∈ books.ledger.rows, row.cash = false
  rows_eq : books.ledger.rows = books.batches.flatMap Batch.rows
  nonempty : ∀ batch ∈ books.batches, batch.rows ≠ []
  own : ∀ batch ∈ books.batches, ∀ row ∈ batch.rows,
    row.entityId = batch.entityId ∧ row.documentNo = batch.documentNo
  nodup : (books.batches.map Batch.key).Nodup

theorem kept_record {books : Books} {call : Call} (kept : Kept books) (unnumbered : Unnumbered call)
    (keeps : KeepsSequence database books.ledger.rows call) :
    Kept (record database call books) := by
  rcases @record_cases database call books with
    ⟨documentNo, rows, writes, grown, recorded⟩ | ⟨same, recorded⟩
  · rcases writes_rows writes with ⟨nonempty, own⟩
    rcases writes_number writes unnumbered with ⟨period, isPeriod, sees, number⟩
    have numbered : Numbered documentNo := by
      rw [number]
      exact numbered_generateDocumentNumber kept.numbered
    have fresh := generateDocumentNumber_fresh kept.numbered kept.noCash sees
      (keeps period isPeriod)
    rw [← number] at fresh
    constructor
    · intro row member
      rw [grown, List.mem_append] at member
      rcases member with old | new
      · exact kept.numbered row old
      · rw [(own row new).2]
        exact numbered
    · intro row member
      rw [grown, List.mem_append] at member
      exact member.elim (kept.noCash row) (writes_cash writes kept.noCash row)
    · rw [grown, recorded, List.flatMap_append, ← kept.rows_eq]
      simp
    · intro batch member
      rw [recorded, List.mem_append, List.mem_singleton] at member
      rcases member with old | rfl
      · exact kept.nonempty batch old
      · exact nonempty
    · intro batch member
      rw [recorded, List.mem_append, List.mem_singleton] at member
      rcases member with old | rfl
      · exact kept.own batch old
      · exact own
    · rw [recorded, List.map_append, List.nodup_append]
      refine ⟨kept.nodup, List.pairwise_singleton _ _, ?_⟩
      intro key isOld other isNew same
      rcases List.mem_map.mp isOld with ⟨batch, member, rfl⟩
      rcases List.mem_singleton.mp isNew with rfl
      rcases List.exists_mem_of_ne_nil _ (kept.nonempty batch member) with ⟨row, inBatch⟩
      rcases kept.own batch member row inBatch with ⟨entity, named⟩
      have inJournal : row ∈ books.ledger.rows := by
        rw [kept.rows_eq]
        exact List.mem_flatMap.mpr ⟨batch, member, inBatch⟩
      rcases Prod.mk.inj same with ⟨sameEntity, sameNumber⟩
      exact fresh row inJournal (entity.trans sameEntity) (named.trans sameNumber)
  · constructor
    · rw [same]
      exact kept.numbered
    · rw [same]
      exact kept.noCash
    · rw [same, recorded]
      exact kept.rows_eq
    · rw [recorded]
      exact kept.nonempty
    · rw [recorded]
      exact kept.own
    · rw [recorded]
      exact kept.nodup

def NumberedApart (database : Database) (books : Books) : Prop :=
  (books.batches.map Batch.key).Nodup ∧ ∀ batch ∈ books.batches, ∀ session : Session,
      session.seesEntity batch.entityId = true →
      originalEntries database session batch.documentNo batch.entityId
        books.ledger.rows = batch.rows

theorem same_iff_of_plain {left right : String} (first : Plain left)
    (second : Plain right) : database.same left right = true ↔ left = right := by
  rw [Database.same, beq_iff_eq]
  constructor
  · intro same
    have notBefore : ¬ left.toList < right.toList := by
      rw [← database.weight_lt first second, same]
      exact List.lt_irrefl _
    have notAfter : ¬ right.toList < left.toList := by
      rw [← database.weight_lt second first, same]
      exact List.lt_irrefl _
    exact String.toList_inj.mp (List.le_antisymm notAfter notBefore)
  · rintro rfl
    rfl

theorem filter_flatMap_of_nodup {batches : List Batch} {selects : Journal → Bool}
    {batch : Batch} (nodup : (batches.map Batch.key).Nodup) (member : batch ∈ batches)
    (selected : ∀ other ∈ batches, ∀ row ∈ other.rows,
      (selects row = true ↔ other.key = batch.key)) :
    (batches.flatMap Batch.rows).filter selects = batch.rows := by
  induction batches with
  | nil => cases member
  | cons first batches ih =>
    rw [List.map_cons, List.nodup_cons] at nodup
    rw [List.flatMap_cons, List.filter_append]
    rcases List.mem_cons.mp member with rfl | inRest
    · have all : batch.rows.filter selects = batch.rows := by
        apply List.filter_eq_self.mpr
        intro row inBatch
        exact (selected batch List.mem_cons_self row inBatch).mpr rfl
      have none : (batches.flatMap Batch.rows).filter selects = [] := by
        apply List.filter_eq_nil_iff.mpr
        intro row inOthers chosen
        rcases List.mem_flatMap.mp inOthers with ⟨other, isOther, inOther⟩
        have same := (selected other (List.mem_cons_of_mem _ isOther) row inOther).mp chosen
        exact nodup.1 (List.mem_map.mpr ⟨other, isOther, same⟩)
      rw [all, none, List.append_nil]
    · have none : first.rows.filter selects = [] := by
        apply List.filter_eq_nil_iff.mpr
        intro row inFirst chosen
        have same := (selected first List.mem_cons_self row inFirst).mp chosen
        exact nodup.1 (List.mem_map.mpr ⟨batch, inRest, same.symm⟩)
      rw [none, List.nil_append]
      apply ih nodup.2 inRest
      exact fun other isOther => selected other (List.mem_cons_of_mem _ isOther)

theorem Kept.numberedApart {books : Books} (kept : Kept books) : NumberedApart database books := by
  refine ⟨kept.nodup, ?_⟩
  intro batch member session sees
  have inJournal : ∀ other ∈ books.batches, ∀ row ∈ other.rows, row ∈ books.ledger.rows := by
    intro other isOther row inOther
    rw [kept.rows_eq]
    exact List.mem_flatMap.mpr ⟨other, isOther, inOther⟩
  have plain : ∀ other ∈ books.batches, Plain other.documentNo := by
    intro other isOther
    rcases List.exists_mem_of_ne_nil _ (kept.nonempty other isOther) with ⟨row, inOther⟩
    rw [← (kept.own other isOther row inOther).2]
    exact (kept.numbered row (inJournal other isOther row inOther)).1
  rw [originalEntries, kept.rows_eq]
  apply filter_flatMap_of_nodup kept.nodup member
  intro other isOther row inOther
  rcases kept.own other isOther row inOther with ⟨entity, named⟩
  have cash : session.seesCash row.cash = true := by
    rw [kept.noCash row (inJournal other isOther row inOther), Session.seesCash]
    split
    · rfl
    · exact Bool.or_true _
  rw [Bool.and_eq_true, Bool.and_eq_true, Session.seesRow, Bool.and_eq_true, cash,
    beq_iff_eq, named, entity, same_iff_of_plain (plain other isOther)
    (plain batch member)]
  constructor
  · rintro ⟨⟨_, sameNumber⟩, sameEntity⟩
    exact Prod.ext sameEntity sameNumber
  · intro same
    rcases Prod.mk.inj same with ⟨sameEntity, sameNumber⟩
    rw [sameEntity]
    exact ⟨⟨⟨sees, rfl⟩, sameNumber⟩, rfl⟩

/-- After any run of calls without a document number, each in a sequence of its
own, every document has its own number. -/
theorem numberedApart_of_keepsSequence (database : Database) {books : Books}
    (reached : Reaches (record database)
      (fun books call => Unnumbered call ∧ KeepsSequence database books.ledger.rows call)
      {} books) :
    NumberedApart database books := by
  apply Kept.numberedApart
  apply reached.invariant
  · constructor
    · exact fun _ member => nomatch member
    · exact fun _ member => nomatch member
    · rfl
    · exact fun _ member => nomatch member
    · exact fun _ member => nomatch member
    · exact List.nodup_nil
  · intro state call kept orderly
    exact kept_record kept orderly.1 orderly.2

theorem numberedApart_closingStock :
    NumberedApart binaryDatabase (runFrom (record binaryDatabase) {}
      [postingOf closingStock, postingOf closingStock]) := by
  apply numberedApart_of_keepsSequence
  apply reaches_runFrom Reaches.start
  refine ⟨⟨rfl, ?_⟩, ⟨rfl, ?_⟩, trivial⟩
  · exact fun _ _ _ member => nomatch member
  · rintro period ⟨⟩
    unfold OwnSequence
    decide +kernel

def Documents (database : Database) (entityId : Int) (century : Nat) (books : Books)
    (call : Call) : Prop :=
  Unnumbered call ∧ callEntity call = entityId ∧
    (∀ period ∈ (callSession call).periods, period.calendarYear / 100 = century) ∧
    (record database call books).batches ≠ books.batches

/-- Two types without a prefix of their own are numbered alike. -/
theorem not_numberedApart_of_documents :
    ¬ ∀ (database : Database) (entityId : Int) (century : Nat) (books : Books),
      Reaches (record database) (Documents database entityId century) {} books →
      NumberedApart database books := by
  intro claimed
  have apart := claimed binaryDatabase 1 20 (runFrom (record binaryDatabase) {}
      [postingOf "Stock Transfer", postingOf "Stock Loss"])
    (reaches_runFrom Reaches.start ⟨⟨rfl, rfl, by decide, by decide +kernel⟩,
        ⟨rfl, rfl, by decide, by decide +kernel⟩, trivial⟩)
  have keys : (runFrom (record binaryDatabase) {}
      [postingOf "Stock Transfer", postingOf "Stock Loss"]).batches.map Batch.key =
      [(1, "ST2401001"), (1, "ST2401001")] := by
    decide +kernel
  have nodup := apart.1
  rw [keys] at nodup
  exact absurd nodup (by decide)

end McpAssistant.Billing.DocumentNumbers
