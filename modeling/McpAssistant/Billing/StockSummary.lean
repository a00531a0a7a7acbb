import McpAssistant.Billing.StockWrites
import McpAssistant.Foundations.Fallible
import McpAssistant.Foundations.Interleaving
import Mathlib.Data.List.Nodup
import Mathlib.Algebra.Ring.Int.Defs

/-!
# Stock summaries

The opening stock of a period is the balance up to the period before it, read
from the journal joined with the periods.  Both tables have a column
`entity_id`, which the query names without its table: the database refuses the
query, so a period with a period before it has no summary.
-/

namespace McpAssistant.Billing.StockSummary

open Foundations.Interleaving
open Foundations.Procedures
open StockEntries

def journalColumns : List String :=
  ["id", "type", "cash", "entity_id", "period_id", "currency_id", "document_no",
    "post_date", "account_id", "bill_id", "inventory_id", "customer_id", "supplier_id",
    "reference", "receipt_number", "voucher_number", "item_id", "debit", "credit",
    "foreign_debit", "foreign_credit", "exchange_rate", "description", "created_at",
    "updated_at"]

def periodColumns : List String :=
  ["id", "entity_id", "period_count", "status", "calendar_year", "created_at", "updated_at"]

def resolveColumn (tables : List (String × List String)) (column : String) :
    Except Throwable String :=
  match tables.filter fun table => table.2.contains column with
  | [] => .error (.exception ("Unknown column '" ++ column ++ "'"))
  | [table] => .ok table.1
  | _ => .error (.exception ("Column '" ++ column ++ "' is ambiguous"))

def lastPeriod : List Period → Option Period
  | [] => none
  | period :: periods =>
    match lastPeriod periods with
    | none => some period
    | some last => if last.periodCount < period.periodCount then some period else some last

/-- The period whose end a period opens with: the last one of the year before,
or the one before it in its year. -/
def previousPeriod (session : Session) (entityId : Int) (period : Period) : Option Period :=
  let own := session.periods.filter fun other =>
    session.seesEntity other.entityId && other.entityId == entityId
  if period.periodCount = 1 then
    lastPeriod (own.filter fun other =>
      (other.calendarYear : Int) == (period.calendarYear : Int) - 1)
  else
    own.find? fun other => other.calendarYear == period.calendarYear &&
      other.periodCount == period.periodCount - 1

def inventoryAccount (database : Database) (session : Session) (entityId : Int) : Option Account :=
  session.accounts.find? fun account => session.seesEntity account.entityId &&
    account.entityId == entityId && database.same account.accountType "INVENTORY"

def movement (rows : List Journal) : Int :=
  (rows.map fun row => row.debit - row.credit).sum

/-- The columns the balance query names without a table. -/
def unqualifiedColumns (session : Session) : List String :=
  ["debit", "credit", "entity_id", "currency_id", "account_id"] ++
    (if session.user.any fun user => !user.admin then ["cash"] else [])

def upTo (last period : Period) : Bool :=
  period.calendarYear < last.calendarYear ||
    period.calendarYear == last.calendarYear && period.periodCount ≤ last.periodCount

def balanceUpTo (session : Session) (rows : List Journal) (entityId currencyId : Int)
    (account : Account) (last : Period) : Except Throwable Int := do
  (unqualifiedColumns session).forM fun column => do
    let _ ← resolveColumn [("journals", journalColumns), ("periods", periodColumns)] column
  pure (movement (rows.filter fun row =>
    session.seesRow row && row.entityId == entityId && row.currencyId == currencyId &&
      row.accountId == account.id && session.periods.any fun period =>
        period.id == row.periodId && upTo last period))

def getOpeningStock (session : Session) (rows : List Journal)
    (entityId currencyId : Int) (period : Period) (account : Account) :
    Except Throwable Int :=
  match previousPeriod session entityId period with
  | none => .ok 0
  | some last => balanceUpTo session rows entityId currencyId account last

structure Summary where
  openingStock : Int
  closingStock : Int
  adjustment : Int
  entriesCount : Rat

def closingRows (database : Database) (session : Session) (rows : List Journal)
    (entityId periodId : Int) : List Journal :=
  rows.filter fun row => session.seesRow row && row.entityId == entityId &&
    row.periodId == periodId && database.same row.type closingStock

/-- What the 'Closing Stock' rows of a period add to the inventory account. -/
def periodAdjustments (database : Database) (session : Session) (rows : List Journal)
    (entityId periodId currencyId : Int) (account : Account) : Int :=
  movement ((closingRows database session rows entityId periodId).filter fun row =>
    row.currencyId == currencyId && row.accountId == account.id)

/-- A method that takes a period takes no null. -/
def requirePeriod : Option Period → Except Throwable Period
  | some period => .ok period
  | none => .error .typeError

def getStockSummary (database : Database) (session : Session) (rows : List Journal)
    (entityId periodId currencyId : Int) : Except Throwable Summary :=
  match inventoryAccount database session entityId with
  | none => .ok ⟨0, 0, 0, 0⟩
  | some account => do
      let period ← requirePeriod (session.findPeriod periodId)
      let openingStock ← getOpeningStock session rows entityId currencyId period account
      let adjustment :=
        periodAdjustments database session rows entityId periodId currencyId account
      pure {
        openingStock := openingStock
        closingStock := openingStock + adjustment
        adjustment := adjustment
        entriesCount :=
          ((closingRows database session rows entityId periodId).length : Rat) / 2 }

variable {database : Database} {session : Session} {rows : List Journal} {entityId currencyId : Int}

def RollsForward (database : Database) (session : Session) (rows : List Journal)
    (entityId currencyId : Int) (earlier later : Period) : Prop :=
  ∃ closes opens,
    getStockSummary database session rows entityId earlier.id currencyId = .ok closes ∧
    getStockSummary database session rows entityId later.id currencyId = .ok opens ∧
    closes.closingStock = opens.openingStock

def Precedes (first second : Period) : Prop :=
  first.calendarYear < second.calendarYear ∨
    first.calendarYear = second.calendarYear ∧ first.periodCount < second.periodCount

/-- Two existing periods of an entity with none between them. -/
structure Consecutive (session : Session) (entityId : Int) (earlier later : Period) : Prop where
  ids : (session.periods.map Period.id).Nodup
  earlierExists : earlier ∈ session.periods
  laterExists : later ∈ session.periods
  earlierEntity : earlier.entityId = entityId
  laterEntity : later.entityId = entityId
  precedes : Precedes earlier later
  adjacent : ∀ period ∈ session.periods, period.entityId = entityId →
    ¬ (Precedes earlier period ∧ Precedes period later)

/-- Nothing is carried over: the entity has no inventory account, or neither
period has a period before it as the code looks for it and the earlier one's
'Closing Stock' rows add nothing to the account. -/
def NothingCarried (database : Database) (session : Session) (rows : List Journal)
    (entityId currencyId : Int) (earlier later : Period) : Prop :=
  ∀ account ∈ inventoryAccount database session entityId,
    previousPeriod session entityId earlier = none ∧
    previousPeriod session entityId later = none ∧
    periodAdjustments database session rows entityId earlier.id currencyId account = 0

/-- The database cannot tell whose `entity_id` the query means. -/
theorem balanceUpTo_refused (account : Account) (last : Period) :
    balanceUpTo session rows entityId currencyId account last =
      .error (.exception "Column 'entity_id' is ambiguous") := by
  rfl

theorem getOpeningStock_eq (period : Period) (account : Account) :
    getOpeningStock session rows entityId currencyId period account =
      if previousPeriod session entityId period = none then .ok 0
      else .error (.exception "Column 'entity_id' is ambiguous") := by
  unfold getOpeningStock
  cases previousPeriod session entityId period with
  | none => rfl
  | some last => exact balanceUpTo_refused account last

variable {account : Account}

theorem seesEntity_of_inventoryAccount
    (found : inventoryAccount database session entityId = some account) :
    session.seesEntity entityId = true := by
  have matched := List.find?_some found
  simp only [Bool.and_eq_true, beq_iff_eq] at matched
  rw [← matched.1.2]
  exact matched.1.1

theorem findPeriod_eq {period : Period} (ids : (session.periods.map Period.id).Nodup)
    (member : period ∈ session.periods)
    (sees : session.seesEntity period.entityId = true) :
    session.findPeriod period.id = some period := by
  cases found : session.findPeriod period.id with
  | none =>
    have missing := List.find?_eq_none.mp found period member
    rw [sees] at missing
    simp at missing
  | some other =>
    have matched := List.find?_some found
    rw [Bool.and_eq_true, beq_iff_eq] at matched
    rw [List.inj_on_of_nodup_map ids (List.mem_of_find?_eq_some found) member matched.1]

theorem getStockSummary_eq {period : Period}
    (isAccount : inventoryAccount database session entityId = some account)
    (isPeriod : session.findPeriod period.id = some period) :
    getStockSummary database session rows entityId period.id currencyId =
      (getOpeningStock session rows entityId currencyId period account).map
        fun openingStock => {
          openingStock := openingStock
          closingStock := openingStock +
            periodAdjustments database session rows entityId period.id currencyId account
          adjustment :=
            periodAdjustments database session rows entityId period.id currencyId account
          entriesCount :=
            ((closingRows database session rows entityId period.id).length : Rat) / 2 } := by
  unfold getStockSummary
  rw [isAccount, isPeriod]
  show (getOpeningStock session rows entityId currencyId period account >>= _) = _
  cases getOpeningStock session rows entityId currencyId period account with
  | ok openingStock => rfl
  | error failure => rfl

/-- Two consecutive periods roll forward exactly when nothing is carried over. -/
theorem rollsForward_iff (database : Database) (session : Session) (rows : List Journal)
    (entityId currencyId : Int) {earlier later : Period}
    (consecutive : Consecutive session entityId earlier later) :
    RollsForward database session rows entityId currencyId earlier later ↔
      NothingCarried database session rows entityId currencyId earlier later := by
  cases isAccount : inventoryAccount database session entityId with
  | none =>
    constructor
    · intro _ account member
      rw [isAccount] at member
      cases member
    · intro _
      refine ⟨⟨0, 0, 0, 0⟩, ⟨0, 0, 0, 0⟩, ?_, ?_, rfl⟩
      · rw [getStockSummary, isAccount]
      · rw [getStockSummary, isAccount]
  | some account =>
    have sees := seesEntity_of_inventoryAccount isAccount
    have earlierFound := findPeriod_eq consecutive.ids consecutive.earlierExists
      (consecutive.earlierEntity ▸ sees)
    have laterFound := findPeriod_eq consecutive.ids consecutive.laterExists
      (consecutive.laterEntity ▸ sees)
    rw [RollsForward, getStockSummary_eq isAccount earlierFound,
      getStockSummary_eq isAccount laterFound, getOpeningStock_eq, getOpeningStock_eq]
    constructor
    · rintro ⟨closes, opens, closing, opening, same⟩ other isOther
      rw [isAccount] at isOther
      rcases Option.some.inj isOther with rfl
      by_cases noneEarlier : previousPeriod session entityId earlier = none
      · by_cases noneLater : previousPeriod session entityId later = none
        · rw [if_pos noneEarlier] at closing
          rw [if_pos noneLater] at opening
          refine ⟨noneEarlier, noneLater, ?_⟩
          cases closing
          cases opening
          exact (Int.zero_add _).symm.trans same
        · rw [if_neg noneLater] at opening
          cases opening
      · rw [if_neg noneEarlier] at closing
        cases closing
    · intro nothing
      rcases nothing account isAccount with ⟨noneEarlier, noneLater, still⟩
      rw [if_pos noneEarlier, if_pos noneLater]
      refine ⟨_, _, rfl, rfl, ?_⟩
      show 0 + periodAdjustments _ _ _ _ _ _ _ = 0
      rw [still]
      rfl

/-- A user with two periods in a row. -/
def twoMonths : Session :=
  { january with periods := [⟨1, 1, 2024, 1⟩, ⟨2, 1, 2024, 2⟩] }

theorem consecutive_twoMonths : Consecutive twoMonths 1 ⟨1, 1, 2024, 1⟩ ⟨2, 1, 2024, 2⟩ where
  ids := by decide
  earlierExists := by decide
  laterExists := by decide
  earlierEntity := rfl
  laterEntity := rfl
  precedes := Or.inr ⟨rfl, by decide⟩
  adjacent := by
    unfold Precedes
    decide

theorem rollsForward_iff_twoMonths :
    RollsForward binaryDatabase twoMonths [] 1 1 ⟨1, 1, 2024, 1⟩ ⟨2, 1, 2024, 2⟩ ↔
      NothingCarried binaryDatabase twoMonths [] 1 1 ⟨1, 1, 2024, 1⟩ ⟨2, 1, 2024, 2⟩ :=
  rollsForward_iff binaryDatabase twoMonths [] 1 1 consecutive_twoMonths

/-- The second month has no summary at all. -/
theorem not_rollsForward_of_reached : ¬ ∀ (database : Database) (ledger : Ledger),
      Reaches (fun call ledger => stateAfter (serve database call) ledger)
        (fun _ _ => True) {} ledger →
      ∀ (session : Session) (entityId currencyId : Int) (earlier later : Period),
        Consecutive session entityId earlier later →
        RollsForward database session ledger.rows entityId currencyId earlier later := by
  intro claimed
  let call := postingOf closingStock
  rcases claimed binaryDatabase (stateAfter (serve binaryDatabase call) {})
    (Reaches.start.next call trivial) twoMonths 1 1 _ _ consecutive_twoMonths with
    ⟨_, opens, _, opening, _⟩
  have isAccount : inventoryAccount binaryDatabase twoMonths 1 =
      some ⟨1, 1, "INVENTORY"⟩ := by
    decide +kernel
  rw [getStockSummary_eq isAccount (by rfl), getOpeningStock_eq, if_neg (by decide)] at opening
  cases opening

end McpAssistant.Billing.StockSummary
