import McpAssistant.Billing.StockEntries
import Mathlib.Data.List.Forall2

/-!
# What a call writes

A call that succeeds adds its rows under one document number and nothing else; a
call that fails leaves the rows as they were.  The one failure that is let
through is a reversal of rows whose period is not found, before it adds a row.
-/

namespace McpAssistant.Billing.StockEntries

open Foundations.Procedures
open Foundations.Transactions List

variable {database : Database} {session : Session} {ledger : Ledger}

/-- The number a successful call reports. -/
def Response.documentNo : Response → Option String
  | .posted documentNo _ _ _ => some documentNo
  | .reversed reversalDocumentNo _ => some reversalDocumentNo
  | .failed _ _ => none

structure Posted (database : Database) (session : Session) (posting : Posting)
    (journal : List Journal) (documentNo : String) (rows : List Journal) : Prop where
  wrote : ∃ user period amount debitId creditId, session.user = some user ∧
    session.findPeriod posting.periodId = some period ∧
    documentNo = posting.suppliedNo.getD (generateDocumentNumber database session
      user.entityId period posting.type journal) ∧
    rows = [stockRow posting user.entityId documentNo posting.debitAccountId amount 0 debitId,
      stockRow posting user.entityId documentNo posting.creditAccountId 0 amount creditId]

theorem appends_orThrow_bind {Value Result : Type} {message : String}
    {value : Option Value} {next : Value → Procedure Throwable Ledger Result}
    {wrote : Result → List Journal → Prop} {failing : Throwable → List Journal → Prop}
    (found : ∀ content, value = some content → Appends (next content) ledger wrote failing)
    (missing : failing (.exception message) []) :
    Appends (orThrow message value >>= next) ledger wrote failing := by
  cases value with
  | some content => exact found content rfl
  | none => exact appends_throw missing

theorem appends_storedAmount_bind {Result : Type} {amount : Except String Int}
    {next : Int → Procedure Throwable Ledger Result}
    {wrote : Result → List Journal → Prop} {failing : Throwable → List Journal → Prop}
    (stored : ∀ value, Appends (next value) ledger wrote failing)
    (refused : ∀ message, failing (.exception message) []) :
    Appends (storedAmount amount >>= next) ledger wrote failing := by
  cases amount with
  | ok value => exact stored value
  | error message => exact appends_throw (refused message)

theorem appends_create {fill : Nat → Journal} {failing : Throwable → List Journal → Prop}
    (refused : ∀ message, failing (.exception message) []) :
    Appends (create database fill) ledger
      (fun row rows => ∃ id, row = fill id ∧ rows = [fill id]) failing := by
  apply appends_insertRow
  · exact fun id => ⟨id, rfl, rfl⟩
  · intro row failure answer
    rcases Option.map_eq_some_iff.mp answer with ⟨message, _, rfl⟩
    exact refused message

theorem appends_handleBody (posting : Posting) :
    Appends (handleBody database session posting) ledger
      (fun response rows => ∃ documentNo, response.documentNo = some documentNo ∧
        Posted database session posting ledger.rows documentNo rows)
      (fun failure _ => ∃ message, failure = .exception message) := by
  unfold handleBody
  apply appends_orThrow_bind _ ⟨_, rfl⟩
  intro user isUser
  apply appends_orThrow_bind _ ⟨_, rfl⟩
  intro period isPeriod
  apply appends_get_bind
  apply appends_orThrow_bind _ ⟨_, rfl⟩
  intro debitAccount _
  apply appends_orThrow_bind _ ⟨_, rfl⟩
  intro creditAccount _
  split
  · exact appends_throw ⟨_, rfl⟩
  · apply appends_storedAmount_bind _ fun _ => ⟨_, rfl⟩
    intro amount
    apply Appends.bind (appends_create fun _ => ⟨_, rfl⟩)
    rintro _ _ _ _ ⟨debitId, rfl, rfl⟩
    apply Appends.bind (appends_create fun _ => ⟨_, rfl⟩)
    rintro _ _ _ _ ⟨creditId, rfl, rfl⟩
    exact appends_pure ⟨_, rfl, ⟨user, period, amount, debitId, creditId, isUser,
      isPeriod, rfl, rfl⟩⟩

structure Reversed (database : Database) (session : Session) (documentNo : String)
    (entityId : Int) (reason : String) (journal : List Journal) (reversalNo : String)
    (rows : List Journal) : Prop where
  wrote : ∃ first period,
    (originalEntries database session documentNo entityId journal).head? = some first ∧
    session.findPeriod first.periodId = some period ∧
    reversalNo = generateDocumentNumber database session entityId period stockReversal journal ∧
    List.Forall₂ (fun entry row => ∃ id,
        row = reversalRow session documentNo reversalNo reason entry id)
      (originalEntries database session documentNo entityId journal) rows

theorem appends_create_ignored {fill : Nat → Journal} {failing : Throwable → List Journal → Prop}
    (refused : ∀ message, failing (.exception message) []) :
    Appends (do let _ ← create database fill) ledger
      (fun _ rows => ∃ id, rows = [fill id]) failing := by
  apply Appends.bind (appends_create refused)
  rintro _ _ _ _ ⟨id, rfl, rfl⟩
  exact appends_pure ⟨id, rfl⟩

theorem appends_createReversals (documentNo reversalNo reason : String) (entries : List Journal) :
    Appends (createReversals database session documentNo reversalNo reason entries) ledger
      (fun _ rows => List.Forall₂ (fun entry row => ∃ id,
          row = reversalRow session documentNo reversalNo reason entry id)
        entries rows)
      (fun failure _ => ∃ message, failure = .exception message) := by
  induction entries generalizing ledger with
  | nil => exact appends_pure List.Forall₂.nil
  | cons entry entries ih =>
    show Appends ((do let _ ← create database _) >>=
      fun _ => createReversals _ _ _ _ _ entries) _ _ _
    apply Appends.bind (appends_create_ignored fun _ => ⟨_, rfl⟩)
    rintro _ _ after _ ⟨id, rfl⟩
    apply Leads.mono ih
    · rintro _ later ⟨more, grown, same, matched⟩
      exact ⟨more, grown, same, List.Forall₂.cons ⟨id, rfl⟩ matched⟩
    · exact fun _ _ failed => failed

def LacksPeriod (database : Database) (session : Session) (documentNo : String)
    (entityId : Int) (journal : List Journal) : Prop :=
  ∃ first, (originalEntries database session documentNo entityId journal).head? =
    some first ∧ session.findPeriod first.periodId = none

theorem appends_reverseBody (documentNo : String) (entityId : Int) (reason : String) :
    Appends (reverseBody database session documentNo entityId reason) ledger
      (fun response rows => ∃ reversalNo, response.documentNo = some reversalNo ∧
        Reversed database session documentNo entityId reason ledger.rows reversalNo rows)
      (fun failure rows => (∃ message, failure = .exception message) ∨
        failure = .typeError ∧ rows = [] ∧
          LacksPeriod database session documentNo entityId ledger.rows) := by
  unfold reverseBody
  apply appends_get_bind
  apply appends_orThrow_bind _ (Or.inl ⟨_, rfl⟩)
  intro first isFirst
  cases found : session.findPeriod first.periodId with
  | none => exact appends_throw (Or.inr ⟨rfl, rfl, first, isFirst, found⟩)
  | some period =>
    show Appends (createReversals _ _ _ _ _ _ >>= fun _ => pure _) _ _ _
    apply Appends.bind
    · apply Leads.mono (appends_createReversals _ _ _ _)
      · exact fun _ _ wrote => wrote
      · rintro _ _ ⟨rows, grown, same, failed⟩
        exact ⟨rows, grown, same, Or.inl failed⟩
    · intro _ rows _ _ matched
      apply appends_pure
      rw [append_nil]
      exact ⟨_, rfl, ⟨first, period, isFirst, found, rfl, matched⟩⟩

/-- What a successful call adds to a journal, under the number it reports. -/
def Writes (database : Database) (call : Call) (journal : List Journal)
    (documentNo : String) (rows : List Journal) : Prop :=
  match call with
  | .handle session posting => Posted database session posting journal documentNo rows
  | .reverse session original entityId reason =>
    Reversed database session original entityId reason journal documentNo rows

def Call.LacksPeriod (database : Database) (call : Call) (journal : List Journal) : Prop :=
  match call with
  | .handle _ _ => False
  | .reverse session documentNo entityId _ =>
    StockEntries.LacksPeriod database session documentNo entityId journal

/-- What a call returns and leaves behind. -/
def Answered (database : Database) (call : Call) (before : Ledger)
    (response : Response) (after : Ledger) : Prop :=
  after.savepoints = before.savepoints ∧
    match response.documentNo with
    | some documentNo => ∃ rows, Writes database call before.rows documentNo rows ∧
        after.rows = before.rows ++ rows
    | none => after.rows = before.rows

theorem leads_serve (call : Call) :
    Leads (serve database call) ledger (Answered database call ledger)
      (fun failure after => failure = .typeError ∧ after.rows = ledger.rows ∧
        after.savepoints = ledger.rows :: ledger.savepoints ∧
        call.LacksPeriod database ledger.rows) := by
  cases call with
  | handle session posting =>
    apply Appends.transaction (appends_handleBody posting)
    · rintro response rows after ⟨documentNo, reports, posted⟩ grown same
      refine ⟨same, ?_⟩
      rw [reports]
      exact ⟨rows, posted, grown⟩
    · rintro _ response rows after ⟨message, rfl⟩ answered same opens
      cases answered
      exact ⟨opens, same⟩
    · rintro _ rows after ⟨message, rfl⟩ unanswered
      cases unanswered
  | reverse session documentNo entityId reason =>
    apply Appends.transaction (appends_reverseBody documentNo entityId reason)
    · rintro response rows after ⟨reversalNo, reports, reversed⟩ grown same
      refine ⟨same, ?_⟩
      rw [reports]
      exact ⟨rows, reversed, grown⟩
    · rintro _ response rows after (⟨message, rfl⟩ | ⟨rfl, _⟩) answered same opens
      · cases answered
        exact ⟨opens, same⟩
      · cases answered
    · rintro _ rows after (⟨message, rfl⟩ | ⟨rfl, rfl, lacks⟩) unanswered grown opens
      · cases unanswered
      · refine ⟨rfl, ?_, opens, lacks⟩
        rw [grown, append_nil]

/-- Unless a period is missing, a call leaves the transactions as they were; it
adds the rows of one document or none. -/
theorem stateAfter_serve (call : Call) (found : ¬ call.LacksPeriod database ledger.rows) :
    (stateAfter (serve database call) ledger).savepoints = ledger.savepoints ∧
      ((∃ documentNo rows, Writes database call ledger.rows documentNo rows ∧
        (stateAfter (serve database call) ledger).rows = ledger.rows ++ rows) ∨
      (stateAfter (serve database call) ledger).rows = ledger.rows) := by
  have leads := @leads_serve database ledger call
  unfold Leads at leads
  unfold stateAfter
  cases served : serve database call ledger with
  | error failure after =>
    rw [served] at leads
    exact absurd leads.2.2.2 found
  | ok response after =>
    rw [served] at leads
    refine ⟨leads.1, ?_⟩
    have answered := leads.2
    cases reports : response.documentNo with
    | none =>
      rw [reports] at answered
      exact Or.inr answered
    | some documentNo =>
      rw [reports] at answered
      rcases answered with ⟨rows, writes, grown⟩
      exact Or.inl ⟨documentNo, rows, writes, grown⟩

def callSession : Call → Session
  | .handle session _ => session
  | .reverse session _ _ _ => session

/-- The entity whose documents a call writes; a call of nobody writes none. -/
def callEntity : Call → Int
  | .handle session _ => (session.user.map User.entityId).getD 0
  | .reverse _ _ entityId _ => entityId

section Writing

variable {call : Call} {journal rows : List Journal} {documentNo : String}

theorem forall₂_mem {Left Right : Type} {fits : Left → Right → Prop}
    {left : List Left} {right : List Right} (matched : List.Forall₂ fits left right) :
    ∀ item ∈ right, ∃ other ∈ left, fits other item := by
  induction matched with
  | nil =>
    intro item member
    cases member
  | cons fit _ ih =>
    intro item member
    rcases List.mem_cons.mp member with rfl | inRest
    · exact ⟨_, mem_cons_self, fit⟩
    · rcases ih item inRest with ⟨other, isOther, fits⟩
      exact ⟨other, mem_cons_of_mem _ isOther, fits⟩

theorem writes_rows (writes : Writes database call journal documentNo rows) :
    rows ≠ [] ∧ ∀ row ∈ rows, row.entityId = callEntity call ∧ row.documentNo = documentNo := by
  cases call with
  | handle session posting =>
    rcases writes with ⟨user, period, amount, debitId, creditId, isUser, _, _, rfl⟩
    constructor
    · exact cons_ne_nil _ _
    · intro row member
      rw [callEntity, isUser]
      simp only [mem_cons, not_mem_nil, or_false] at member
      rcases member with rfl | rfl
      · exact ⟨rfl, rfl⟩
      · exact ⟨rfl, rfl⟩
  | reverse session original entityId reason =>
    rcases writes with ⟨first, period, isFirst, _, _, matched⟩
    constructor
    · rintro rfl
      rw [List.forall₂_nil_right_iff.mp matched] at isFirst
      cases isFirst
    · intro row member
      rcases forall₂_mem matched row member with ⟨entry, found, id, rfl⟩
      rw [originalEntries, mem_filter, Bool.and_eq_true, beq_iff_eq] at found
      exact ⟨found.2.2, rfl⟩

theorem writes_cash (writes : Writes database call journal documentNo rows)
    (noCash : ∀ row ∈ journal, row.cash = false) : ∀ row ∈ rows, row.cash = false := by
  cases call with
  | handle session posting =>
    rcases writes with ⟨user, period, amount, debitId, creditId, _, _, _, rfl⟩
    intro row member
    simp only [mem_cons, not_mem_nil, or_false] at member
    rcases member with rfl | rfl
    · rfl
    · rfl
  | reverse session original entityId reason =>
    rcases writes with ⟨first, period, _, _, _, matched⟩
    intro row member
    rcases forall₂_mem matched row member with ⟨entry, found, id, rfl⟩
    exact noCash entry (List.mem_filter.mp found).1

end Writing

end McpAssistant.Billing.StockEntries
