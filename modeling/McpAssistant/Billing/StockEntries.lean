import McpAssistant.Foundations.Transactions
import Mathlib.Algebra.Ring.Nat

/-!
# Stock entries

A stock entry is a debit row and a credit row of the journal under one document
number.  The next number of a sequence is read back from the last one in the
database's text order.  A reversal finds the rows of a document by its number
and writes them again, debit and credit swapped, under a number of its own.
-/

namespace McpAssistant.Billing.StockEntries

open Foundations.Procedures
open Foundations.Transactions

/-- A row of `journals`.  Amounts and rates are ten-thousandths. -/
structure Journal where
  id : Nat
  cash : Bool
  type : String
  entityId : Int
  periodId : Int
  currencyId : Int
  documentNo : String
  postDate : String
  accountId : Int
  billId : Option Int
  inventoryId : Option Int
  customerId : Option Int
  supplierId : Option Int
  reference : Option String
  receiptNumber : Option String
  voucherNumber : Option String
  itemId : Option Int
  debit : Int
  credit : Int
  foreignDebit : Int
  foreignCredit : Int
  exchangeRate : Int
  description : String
deriving DecidableEq

structure Period where
  id : Int
  entityId : Int
  calendarYear : Nat
  periodCount : Int
deriving DecidableEq

structure Account where
  id : Int
  entityId : Int
  accountType : String
deriving DecidableEq

structure User where
  entityId : Int
  superAdmin : Bool := false
  admin : Bool := false
deriving DecidableEq

abbrev Ledger := Store Journal

/-- What a call reads besides the journal. -/
structure Session where
  user : Option User
  periods : List Period
  accounts : List Account
  today : String

namespace Session

/-- The entity scope, which nobody and a super admin go without. -/
def seesEntity (session : Session) (entityId : Int) : Bool :=
  match session.user with
  | none => true
  | some user => user.superAdmin || entityId == user.entityId

/-- The cash scope hides cash rows from a user who is not an admin. -/
def seesCash (session : Session) (cash : Bool) : Bool :=
  match session.user with
  | none => true
  | some user => user.admin || !cash

def seesRow (session : Session) (row : Journal) : Bool :=
  session.seesEntity row.entityId && session.seesCash row.cash

def findPeriod (session : Session) (id : Int) : Option Period :=
  session.periods.find? fun period =>
    period.id == id && session.seesEntity period.entityId

def findAccount (session : Session) (id : Int) : Option Account :=
  session.accounts.find? fun account =>
    account.id == id && session.seesEntity account.entityId

end Session

/-- Only `\Exception` is caught; a wrong argument type is no `\Exception`. -/
inductive Throwable where
  | exception (message : String)
  | typeError
deriving DecidableEq

/-- The letters that document numbers are generated from. -/
def plainLetter (letter : Char) : Bool :=
  letter.isDigit || letter.isUpper || letter == '-'

def Plain (text : String) : Prop :=
  ∀ letter ∈ text.toList, plainLetter letter = true

/-- How the database compares texts, and which rows it refuses with which
message.  On texts of plain letters its comparisons are by code point. -/
structure Database where
  weight : String → List Nat
  startsLike : String → String → Bool
  refuses : Journal → Option String
  weight_lt : ∀ {left right : String}, Plain left → Plain right →
    (weight left < weight right ↔ left.toList < right.toList)
  startsLike_iff : ∀ {start text : String}, Plain start → Plain text →
    (startsLike start text = true ↔ start.toList <+: text.toList)

theorem map_toNat_lt {left right : List Char} :
    left.map Char.toNat < right.map Char.toNat ↔ left < right := by
  induction left generalizing right with
  | nil =>
    cases right with
    | nil => simp
    | cons head right => simp
  | cons first left ih =>
    cases right with
    | nil => simp
    | cons second right =>
      rw [List.map_cons, List.map_cons, List.cons_lt_cons_iff, List.cons_lt_cons_iff,
        ih, Char.toNat_inj]
      exact Iff.rfl

/-- A database that compares all texts by code point and refuses no row. -/
def binaryDatabase : Database where
  weight text := text.toList.map Char.toNat
  startsLike start text := start.toList.isPrefixOf text.toList
  refuses _ := none
  weight_lt _ _ := map_toNat_lt
  startsLike_iff _ _ := List.isPrefixOf_iff_prefix

/-- Texts of one weight are equal to the database. -/
def Database.same (database : Database) (left right : String) : Bool :=
  database.weight left == database.weight right

def create (database : Database) (fill : Nat → Journal) : Procedure Throwable Ledger Journal :=
  insertRow (fun row => (database.refuses row).map Throwable.exception) fill

/-- The first row in descending order of document numbers. -/
def lastByDocumentNo (database : Database) : List Journal → Option Journal
  | [] => none
  | row :: rows =>
    match lastByDocumentNo database rows with
    | none => some row
    | some last =>
      if database.weight last.documentNo < database.weight row.documentNo then
        some row
      else some last

/-- `str_pad` on the left with zeros. -/
def strPad (text : String) (width : Nat) : String :=
  String.ofList (List.replicate (width - text.length) '0' ++ text.toList)

/-- `substr` from the end, on the bytes of a text. -/
def lastBytes (text : String) (count : Nat) : List UInt8 :=
  let bytes := text.toList.flatMap String.utf8EncodeChar
  bytes.drop (bytes.length - count)

/-- `substr` from the end of an ASCII text. -/
def lastLetters (text : String) (count : Nat) : String :=
  String.ofList (text.toList.drop (text.length - count))

def isSpaceByte (byte : UInt8) : Bool :=
  byte == 32 || (9 ≤ byte && byte ≤ 13)

def isDigitByte (byte : UInt8) : Bool :=
  48 ≤ byte && byte ≤ 57

def digitsValue (bytes : List UInt8) : Nat :=
  bytes.foldl (fun value byte => 10 * value + (byte.toNat - 48)) 0

/-- The magnitude that a text without its sign starts with. -/
def leadingMagnitude (bytes : List UInt8) : Nat :=
  let whole := bytes.takeWhile isDigitByte
  match bytes.dropWhile isDigitByte with
  | [] => digitsValue whole
  | mark :: after =>
    if (mark == 69 || mark == 101) && whole ≠ [] then
      digitsValue whole * 10 ^ digitsValue (after.takeWhile isDigitByte)
    else digitsValue whole

/-- `intval` of a text of at most three bytes, too short for a fraction that an
exponent makes whole or for a signed exponent. -/
def intval (bytes : List UInt8) : Int :=
  match bytes.dropWhile isSpaceByte with
  | [] => 0
  | sign :: rest =>
    if sign == 45 then -(leadingMagnitude rest : Int)
    else if sign == 43 then leadingMagnitude rest
    else leadingMagnitude (sign :: rest)

def closingStock : String := "Closing Stock"

def stockReversal : String := "Stock Reversal"

def typePrefix (type : String) : String :=
  if type = closingStock then "CS"
  else if type = "Stock Adjustment" then "SA"
  else if type = "Opening Stock" then "OS"
  else "ST"

def sequenceStart (period : Period) (type : String) : String :=
  typePrefix type ++ lastLetters (toString period.calendarYear) 2 ++
    strPad (toString period.periodCount) 2

/-- The row that `generateDocumentNumber` takes the last number from. -/
def lastEntry (database : Database) (session : Session) (entityId : Int)
    (period : Period) (type : String) (rows : List Journal) : Option Journal :=
  lastByDocumentNo database (rows.filter fun row =>
    session.seesRow row && row.entityId == entityId && database.same row.type type &&
      database.startsLike (sequenceStart period type) row.documentNo)

def nextSequence (last : Option Journal) : Int :=
  match last with
  | none => 1
  | some entry => intval (lastBytes entry.documentNo 3) + 1

def generateDocumentNumber (database : Database) (session : Session) (entityId : Int)
    (period : Period) (type : String) (rows : List Journal) : String :=
  sequenceStart period type ++ strPad (toString (nextSequence
      (lastEntry database session entityId period type rows))) 3

inductive Response where
  | posted (documentNo : String) (debitEntryId creditEntryId : Nat) (message : String)
  | reversed (reversalDocumentNo message : String)
  | failed (error message : String)
deriving DecidableEq

/-- The answer to a caught exception, after the rollback. -/
def answerFailure (message : String) : Throwable → Option Response
  | .exception error => some (.failed error message)
  | .typeError => none

/-- What `handle` is given.  The amount is as the decimal columns hold it, or the
database's message where they cannot. -/
structure Posting where
  amount : Except String Int
  debitAccountId : Int
  creditAccountId : Int
  description : String
  postDate : String
  periodId : Int
  currencyId : Int := 1
  reference : Option String := none
  documentNo : Option String := none
  type : String := closingStock

/-- The document number a posting supplies; PHP takes `""` and `"0"` for none. -/
def Posting.suppliedNo (posting : Posting) : Option String :=
  match posting.documentNo with
  | none => none
  | some text => if text = "" ∨ text = "0" then none else some text

/-- One of the two rows of a stock entry. -/
def stockRow (posting : Posting) (entityId : Int) (documentNo : String)
    (accountId debit credit : Int) (id : Nat) : Journal where
  id := id
  cash := false
  type := posting.type
  entityId := entityId
  periodId := posting.periodId
  currencyId := posting.currencyId
  documentNo := documentNo
  postDate := posting.postDate
  accountId := accountId
  billId := none
  inventoryId := none
  customerId := none
  supplierId := none
  reference := posting.reference
  receiptNumber := none
  voucherNumber := none
  itemId := none
  debit := debit
  credit := credit
  foreignDebit := debit
  foreignCredit := credit
  exchangeRate := 10000
  description := posting.description

/-- A value found, or the exception that names what was not. -/
def orThrow {Value : Type} (message : String) : Option Value → Procedure Throwable Ledger Value
  | some value => pure value
  | none => throw (.exception message)

def noResults (model : String) (id : Int) : String :=
  "No query results for model [App\\Models\\" ++ model ++ "] " ++ toString id

def noUser : String := "Attempt to read property \"entity_id\" on null"

def foreignAccounts : String := "Accounts must belong to the same entity"

/-- The column's value of an amount, asked for when a row is inserted. -/
def storedAmount : Except String Int → Procedure Throwable Ledger Int
  | .ok amount => pure amount
  | .error message => throw (.exception message)

def handleBody (database : Database) (session : Session) (posting : Posting) :
    Procedure Throwable Ledger Response := do
  let user ← orThrow noUser session.user
  let period ← orThrow (noResults "Period" posting.periodId) (session.findPeriod posting.periodId)
  let ledger ← get
  let documentNo := posting.suppliedNo.getD (generateDocumentNumber database session
    user.entityId period posting.type ledger.rows)
  let debitAccount ← orThrow (noResults "Account" posting.debitAccountId)
    (session.findAccount posting.debitAccountId)
  let creditAccount ← orThrow (noResults "Account" posting.creditAccountId)
    (session.findAccount posting.creditAccountId)
  if debitAccount.entityId ≠ user.entityId ∨ creditAccount.entityId ≠ user.entityId then
    throw (.exception foreignAccounts)
  else do
    let amount ← storedAmount posting.amount
    let debitEntry ← create database
      (stockRow posting user.entityId documentNo posting.debitAccountId amount 0)
    let creditEntry ← create database
      (stockRow posting user.entityId documentNo posting.creditAccountId 0 amount)
    pure (.posted documentNo debitEntry.id creditEntry.id "Stock entry posted successfully")

def handle (database : Database) (session : Session) (posting : Posting) :
    Procedure Throwable Ledger Response :=
  transaction (answerFailure "Failed to post stock entry") (handleBody database session posting)

/-- The row that undoes another one. -/
def reversalRow (session : Session) (documentNo reversalNo reason : String)
    (entry : Journal) (id : Nat) : Journal :=
  { entry with
    id := id
    type := stockReversal
    documentNo := reversalNo
    postDate := session.today
    reference := some ("REV-" ++ entry.reference.getD "")
    debit := entry.credit
    credit := entry.debit
    foreignDebit := entry.foreignCredit
    foreignCredit := entry.foreignDebit
    description := reason ++ " - Original: " ++ documentNo }

/-- The rows a document number finds. -/
def originalEntries (database : Database) (session : Session) (documentNo : String)
    (entityId : Int) (rows : List Journal) : List Journal :=
  rows.filter fun row =>
    session.seesRow row && database.same row.documentNo documentNo && row.entityId == entityId

/-- `generateDocumentNumber` takes a period and no null. -/
def periodArgument : Option Period → Procedure Throwable Ledger Period
  | some period => pure period
  | none => throw .typeError

def createReversals (database : Database) (session : Session)
    (documentNo reversalNo reason : String) (entries : List Journal) :
    Procedure Throwable Ledger PUnit :=
  entries.forM fun entry => do
    let _ ← create database (reversalRow session documentNo reversalNo reason entry)

def reverseBody (database : Database) (session : Session) (documentNo : String)
    (entityId : Int) (reason : String) : Procedure Throwable Ledger Response := do
  let ledger ← get
  let entries := originalEntries database session documentNo entityId ledger.rows
  let first ← orThrow "Original stock entry not found" entries.head?
  let period ← periodArgument (session.findPeriod first.periodId)
  let reversalNo := generateDocumentNumber database session entityId period
    stockReversal ledger.rows
  createReversals database session documentNo reversalNo reason entries
  pure (.reversed reversalNo "Stock entry reversed successfully")

def reverse (database : Database) (session : Session) (documentNo : String)
    (entityId : Int) (reason : String) : Procedure Throwable Ledger Response :=
  transaction (answerFailure "Failed to reverse stock entry")
    (reverseBody database session documentNo entityId reason)

inductive Call where
  | handle (session : Session) (posting : Posting)
  | reverse (session : Session) (documentNo : String) (entityId : Int) (reason : String)

def serve (database : Database) : Call → Procedure Throwable Ledger Response
  | .handle session posting => handle database session posting
  | .reverse session documentNo entityId reason =>
    reverse database session documentNo entityId reason

def january : Session where
  user := some { entityId := 1 }
  periods := [⟨1, 1, 2024, 1⟩]
  accounts := [⟨1, 1, "INVENTORY"⟩, ⟨2, 1, "DIRECT_EXPENSE"⟩]
  today := "2024-01-31"

def postingOf (type : String) : Call :=
  .handle january {
    amount := .ok 1000000
    debitAccountId := 1
    creditAccountId := 2
    description := "Stock"
    postDate := "2024-01-31"
    periodId := 1
    type := type }

end McpAssistant.Billing.StockEntries
