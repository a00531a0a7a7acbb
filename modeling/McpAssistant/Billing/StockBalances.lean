import McpAssistant.Billing.StockWrites
import McpAssistant.Foundations.Interleaving
import Mathlib.Algebra.Ring.Int.Defs

/-!
# Balances

Every call adds rows whose debits and credits are equal, all under one number,
so the rows of any documents balance.  A reversal takes back the net effect of
the rows it finds.  Nothing marks them as reversed: a second reversal finds them
again, and takes back their effect once more.
-/

namespace McpAssistant.Billing.StockBalances

open Foundations.Interleaving
open Foundations.Procedures
open StockEntries List

variable {database : Database}

def totalDebit (rows : List Journal) : Int :=
  (rows.map Journal.debit).sum

def totalCredit (rows : List Journal) : Int :=
  (rows.map Journal.credit).sum

/-- What rows add to the balance of an account. -/
def net (account : Int) (rows : List Journal) : Int :=
  let own := rows.filter fun row => row.accountId == account
  totalDebit own - totalCredit own

theorem totalDebit_append (left right : List Journal) :
    totalDebit (left ++ right) = totalDebit left + totalDebit right := by
  rw [totalDebit, map_append, sum_append]
  rfl

theorem totalCredit_append (left right : List Journal) :
    totalCredit (left ++ right) = totalCredit left + totalCredit right := by
  rw [totalCredit, map_append, sum_append]
  rfl

theorem net_append (account : Int) (left right : List Journal) :
    net account (left ++ right) = net account left + net account right := by
  simp only [net, filter_append, totalDebit_append, totalCredit_append]
  omega

def Balanced (rows : List Journal) : Prop :=
  ∀ selects : Int → String → Bool,
    let chosen := rows.filter fun row => selects row.entityId row.documentNo
    totalDebit chosen = totalCredit chosen

theorem balanced_append {left right : List Journal} (first : Balanced left)
    (second : Balanced right) : Balanced (left ++ right) := by
  intro selects
  have onLeft := first selects
  have onRight := second selects
  simp only [filter_append, totalDebit_append, totalCredit_append]
  simp only at onLeft onRight
  omega

theorem balanced_of_document {rows : List Journal} {entityId : Int} {documentNo : String}
    (own : ∀ row ∈ rows, row.entityId = entityId ∧ row.documentNo = documentNo)
    (together : totalDebit rows = totalCredit rows) : Balanced rows := by
  intro selects
  have chosen : rows.filter (fun row => selects row.entityId row.documentNo) =
      if selects entityId documentNo then rows else [] := by
    split
    · rename_i selected
      apply List.filter_eq_self.mpr
      intro row member
      rw [(own row member).1, (own row member).2]
      exact selected
    · rename_i unselected
      apply List.filter_eq_nil_iff.mpr
      intro row member
      rw [(own row member).1, (own row member).2]
      exact unselected
  show totalDebit (rows.filter _) = totalCredit (rows.filter _)
  rw [chosen]
  split
  · exact together
  · rfl

section Mirrored

variable {session : Session} {documentNo reversalNo reason : String} {entries rows : List Journal}

theorem totals_reversed (matched : List.Forall₂ (fun entry row => ∃ id,
      row = reversalRow session documentNo reversalNo reason entry id) entries rows) :
    totalDebit rows = totalCredit entries ∧ totalCredit rows = totalDebit entries := by
  induction matched with
  | nil => exact ⟨rfl, rfl⟩
  | cons fits _ ih =>
    rcases fits with ⟨id, rfl⟩
    simp only [totalDebit, totalCredit, map_cons, sum_cons] at ih ⊢
    rw [ih.1, ih.2]
    exact ⟨rfl, rfl⟩

theorem filter_reversed (account : Int) (matched : List.Forall₂ (fun entry row => ∃ id,
      row = reversalRow session documentNo reversalNo reason entry id) entries rows) :
    List.Forall₂ (fun entry row => ∃ id,
      row = reversalRow session documentNo reversalNo reason entry id)
      (entries.filter fun row => row.accountId == account)
      (rows.filter fun row => row.accountId == account) := by
  induction matched with
  | nil => exact List.Forall₂.nil
  | @cons entry row _ _ fits _ ih =>
    have same : row.accountId = entry.accountId := by
      rcases fits with ⟨id, rfl⟩
      rfl
    rw [filter_cons, filter_cons, same]
    split
    · exact List.Forall₂.cons fits ih
    · exact ih

theorem net_reversed (account : Int) (matched : List.Forall₂ (fun entry row => ∃ id,
      row = reversalRow session documentNo reversalNo reason entry id) entries rows) :
    net account rows = -net account entries := by
  rcases totals_reversed (filter_reversed account matched) with ⟨debits, credits⟩
  show totalDebit _ - totalCredit _ = -(totalDebit _ - totalCredit _)
  rw [debits, credits, Int.neg_sub]

end Mirrored

section Adding

variable {journal rows : List Journal} {documentNo : String}

theorem balanced_originalEntries {session : Session} {entityId : Int}
    (balanced : Balanced journal) (noCash : ∀ row ∈ journal, row.cash = false) :
    totalDebit (originalEntries database session documentNo entityId journal) =
      totalCredit (originalEntries database session documentNo entityId journal) := by
  have found : originalEntries database session documentNo entityId journal =
      journal.filter fun row => session.seesEntity row.entityId &&
        database.same row.documentNo documentNo && row.entityId == entityId := by
    apply filter_congr
    intro row member
    have shown : session.seesCash row.cash = true := by
      rw [noCash row member, Session.seesCash]
      split
      · rfl
      · exact Bool.or_true _
    rw [Session.seesRow, shown, Bool.and_true]
  rw [found]
  exact balanced fun entity number => session.seesEntity entity &&
    database.same number documentNo && entity == entityId

theorem balanced_writes {call : Call}
    (writes : Writes database call journal documentNo rows) (balanced : Balanced journal)
    (noCash : ∀ row ∈ journal, row.cash = false) : Balanced rows := by
  apply balanced_of_document (writes_rows writes).2
  cases call with
  | handle session posting =>
    rcases writes with ⟨_, _, amount, _, _, _, _, _, rfl⟩
    show amount + (0 + 0) = 0 + (amount + 0)
    omega
  | reverse session original entityId reason =>
    rcases writes with ⟨_, _, _, _, _, matched⟩
    rcases totals_reversed matched with ⟨debits, credits⟩
    rw [debits, credits]
    exact (balanced_originalEntries balanced noCash).symm

end Adding

/-- A ledger with the documents that were reversed. -/
structure Books where
  ledger : Ledger := {}
  reversed : List (Int × String) := []

def reversedDocument : Call → Response → List (Int × String)
  | .reverse _ documentNo entityId _, .reversed _ _ => [(entityId, documentNo)]
  | _, _ => []

def record (database : Database) (call : Call) (books : Books) : Books :=
  match serve database call books.ledger with
  | .ok response ledger => {
      ledger := ledger
      reversed := books.reversed ++ reversedDocument call response }
  | .error _ ledger => { books with ledger := ledger }

def Books.HasReversed (database : Database) (books : Books) (entityId : Int)
    (documentNo : String) : Prop :=
  ∃ document ∈ books.reversed, document.1 = entityId ∧ database.same document.2 documentNo = true

/-- A reversal finds the period of the rows it finds; a repeated one finds rows
without a net effect. -/
def ReversesOnce (database : Database) (books : Books) : Call → Prop
  | .handle _ _ => True
  | .reverse session documentNo entityId _ =>
    ¬ LacksPeriod database session documentNo entityId books.ledger.rows ∧
      (books.HasReversed database entityId documentNo → ∀ account,
        net account (originalEntries database session documentNo entityId books.ledger.rows) = 0)

/-- A successful reversal takes back the net effect of its document on every
account, and no balance changes when it is repeated. -/
def Undoes (database : Database) (books : Books) (after : Ledger) : Call → Prop
  | .handle _ _ => True
  | .reverse session documentNo entityId _ => ∀ account,
      net account after.rows = net account books.ledger.rows -
        net account (originalEntries database session documentNo entityId books.ledger.rows) ∧
      (books.HasReversed database entityId documentNo →
        net account after.rows = net account books.ledger.rows)

/-- What a call does to the books: it leaves no transaction open, and unless it
succeeds it leaves the rows alone. -/
def Serves (database : Database) (call : Call) (books : Books) : Prop :=
  match serve database call books.ledger with
  | .ok response after => after.savepoints = [] ∧
      match response.documentNo with
      | some _ => Undoes database books after call
      | none => after.rows = books.ledger.rows
  | .error _ after => after.savepoints = [] ∧ after.rows = books.ledger.rows

/-- Books that balance, with no transaction open. -/
structure Kept (books : Books) : Prop where
  balanced : Balanced books.ledger.rows
  noCash : ∀ row ∈ books.ledger.rows, row.cash = false
  closed : books.ledger.savepoints = []

variable {books : Books} {call : Call}

theorem ReversesOnce.found (once : ReversesOnce database books call) :
    ¬ call.LacksPeriod database books.ledger.rows := by
  cases call with
  | handle session posting => exact id
  | reverse session documentNo entityId reason => exact once.1

theorem serves_of_reversesOnce (kept : Kept books)
    (once : ReversesOnce database books call) : Serves database call books := by
  have leads := @leads_serve database books.ledger call
  unfold Leads at leads
  unfold Serves
  cases served : serve database call books.ledger with
  | error failure after =>
    rw [served] at leads
    exact absurd leads.2.2.2 once.found
  | ok response after =>
    rw [served] at leads
    rcases leads with ⟨same, answered⟩
    refine ⟨same.trans kept.closed, ?_⟩
    cases reports : response.documentNo with
    | none =>
      rw [reports] at answered
      exact answered
    | some number =>
      rw [reports] at answered
      rcases answered with ⟨rows, writes, grown⟩
      cases call with
      | handle session posting => trivial
      | reverse session documentNo entityId reason =>
        rcases writes with ⟨_, _, _, _, _, matched⟩
        intro account
        have effect := net_reversed account matched
        have total : net account after.rows = net account books.ledger.rows + net account rows := by
          rw [grown, net_append]
        constructor
        · rw [total, effect]
          omega
        · intro before
          rw [total, effect, once.2 before account]
          omega

theorem record_ledger (call : Call) (books : Books) : (record database call books).ledger =
      stateAfter (serve database call) books.ledger := by
  unfold record stateAfter
  cases serve database call books.ledger with
  | ok response ledger => rfl
  | error failure ledger => rfl

theorem kept_record (kept : Kept books)
    (once : ReversesOnce database books call) : Kept (record database call books) := by
  rcases stateAfter_serve call once.found with ⟨same, served⟩
  rw [← record_ledger] at same served
  rcases served with ⟨documentNo, rows, writes, grown⟩ | unchanged
  · constructor
    · rw [grown]
      exact balanced_append kept.balanced (balanced_writes writes kept.balanced kept.noCash)
    · intro row member
      rw [grown, mem_append] at member
      exact member.elim (kept.noCash row) (writes_cash writes kept.noCash row)
    · exact same.trans kept.closed
  · constructor
    · rw [unchanged]
      exact kept.balanced
    · rw [unchanged]
      exact kept.noCash
    · exact same.trans kept.closed

/-- In any run whose reversals find their periods, and are repeated only where
the rows they find have no net effect, the books balance, no transaction stays
open and every call does to the books what it should. -/
theorem balanced_of_reversesOnce (database : Database) {books : Books}
    (reached : Reaches (record database) (ReversesOnce database) {} books) :
    Balanced books.ledger.rows ∧ books.ledger.savepoints = [] ∧
      ∀ call, ReversesOnce database books call → Serves database call books := by
  have kept : Kept books := by
    apply reached.invariant
    · constructor
      · exact fun _ => rfl
      · exact fun _ member => nomatch member
      · rfl
    · exact fun _ _ kept once => kept_record kept once
  exact ⟨kept.balanced, kept.closed, fun _ once => serves_of_reversesOnce kept once⟩

/-- Rows of any documents balance, and none is a cash row. -/
def Sound (rows : List Journal) : Prop :=
  Balanced rows ∧ ∀ row ∈ rows, row.cash = false

theorem sound_nil : Sound [] :=
  ⟨fun _ => rfl, forall_mem_nil _⟩

/-- A call only adds rows, also where it leaves a transaction open. -/
theorem record_adds (call : Call) (books : Books) :
    ∃ rows, (record database call books).ledger.rows = books.ledger.rows ++ rows ∧
      (Sound books.ledger.rows → Sound rows) := by
  have leads := @leads_serve database books.ledger call
  unfold Leads at leads
  rw [record_ledger, stateAfter]
  cases served : serve database call books.ledger with
  | error failure after =>
    rw [served] at leads
    exact ⟨[], leads.2.1.trans (append_nil _).symm, fun _ => sound_nil⟩
  | ok response after =>
    rw [served] at leads
    have answered := leads.2
    cases reports : response.documentNo with
    | none =>
      rw [reports] at answered
      exact ⟨[], answered.trans (append_nil _).symm, fun _ => sound_nil⟩
    | some documentNo =>
      rw [reports] at answered
      obtain ⟨rows, writes, grown⟩ := answered
      exact ⟨rows, grown, fun sound =>
        ⟨balanced_writes writes sound.1 sound.2, writes_cash writes sound.2⟩⟩

/-- Whatever is posted and reversed, in any order, the rows of any documents balance,
and no later call changes or removes a row. -/
theorem append_only_balanced (database : Database) (calls more : List Call) :
    let books := runFrom (record database) {} calls
    Sound books.ledger.rows ∧
      books.ledger.rows <+: (runFrom (record database) books more).ledger.rows := by
  constructor
  · apply @runFrom_invariant _ _ (record database) fun books => Sound books.ledger.rows
    · intro books call sound
      obtain ⟨rows, grown, added⟩ := @record_adds database call books
      rw [grown]
      exact ⟨balanced_append sound.1 (added sound).1,
        forall_mem_append.mpr ⟨sound.2, (added sound).2⟩⟩
    · exact sound_nil
  · apply @runFrom_invariant _ _ (record database) fun later => _ <+: later.ledger.rows
    · intro books call longer
      obtain ⟨rows, grown, _⟩ := @record_adds database call books
      rw [grown]
      exact longer.trans (prefix_append _ _)
    · exact prefix_rfl

def undoing : Call :=
  .reverse january "CS2401001" 1 "Stock entry reversal"

theorem balanced_reversedEntry :
    let books := runFrom (record binaryDatabase) {} [postingOf closingStock, undoing]
    Balanced books.ledger.rows ∧ books.ledger.savepoints = [] ∧
      ∀ call, ReversesOnce binaryDatabase books call → Serves binaryDatabase call books := by
  apply balanced_of_reversesOnce
  apply reaches_runFrom Reaches.start
  refine ⟨trivial, ⟨?_, ?_⟩, trivial⟩
  · rintro ⟨first, isFirst, missing⟩
    have periods : (originalEntries binaryDatabase january "CS2401001" 1
        (record binaryDatabase (postingOf closingStock) {}).ledger.rows).head?.map
          Journal.periodId = some 1 := by
      decide +kernel
    rw [isFirst] at periods
    rw [show first.periodId = 1 from Option.some.inj periods] at missing
    exact absurd missing (by decide)
  · rintro ⟨document, member, _⟩
    have none : (record binaryDatabase (postingOf closingStock) {}).reversed = [] := by
      decide +kernel
    rw [none] at member
    cases member

/-- The second reversal of a document takes its effect back once more. -/
theorem not_serves_of_reached : ¬ ∀ (database : Database) (books : Books),
      Reaches (record database) (fun _ _ => True) {} books →
      Balanced books.ledger.rows ∧ books.ledger.savepoints = [] ∧
        ∀ call, Serves database call books := by
  intro claimed
  let books := runFrom (record binaryDatabase) {} [postingOf closingStock, undoing]
  have serves := (claimed binaryDatabase books
    (reaches_runFrom Reaches.start ⟨trivial, trivial, trivial⟩)).2.2 undoing
  have again : books.HasReversed binaryDatabase 1 "CS2401001" := by
    refine ⟨(1, "CS2401001"), ?_, rfl, by decide +kernel⟩
    decide +kernel
  have before : net 1 books.ledger.rows = 0 := by
    decide +kernel
  have answers : (match serve binaryDatabase undoing books.ledger with
      | .ok response after => some (response.documentNo, net 1 after.rows)
      | .error _ _ => none) = some (some "ST2401002", -1000000) := by
    decide +kernel
  unfold Serves at serves
  cases served : serve binaryDatabase undoing books.ledger with
  | error failure after =>
    rw [served] at answers
    cases answers
  | ok response after =>
    rw [served] at answers serves
    rcases Prod.mk.inj (Option.some.inj answers) with ⟨reports, effect⟩
    have undoes := serves.2
    rw [reports] at undoes
    have unchanged := (undoes 1).2 again
    rw [effect, before] at unchanged
    exact absurd unchanged (by decide)

end McpAssistant.Billing.StockBalances
