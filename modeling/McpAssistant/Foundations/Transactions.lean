import McpAssistant.Foundations.Procedures

/-!
# Tables under nested transactions

A connection holds the rows of a table and, for every transaction it has open,
the rows to go back to.  `transaction` runs a body in a transaction of its own:
it commits what the body returns, rolls back the failures it knows how to answer
and lets every other failure through with the transaction still open.
-/

namespace McpAssistant.Foundations.Transactions

open Foundations.Procedures

/-- The rows of a table, the next row's number and the open transactions, the
innermost first. -/
structure Store (Row : Type) where
  rows : List Row := []
  nextId : Nat := 1
  savepoints : List (List Row) := []

variable {Row Failure Value Result : Type}

namespace Store

def opened (store : Store Row) : Store Row :=
  { store with savepoints := store.rows :: store.savepoints }

def committed (store : Store Row) : Store Row :=
  { store with savepoints := store.savepoints.tail }

def rolledBack (store : Store Row) : Store Row :=
  match store.savepoints with
  | [] => store
  | rows :: savepoints => { store with rows := rows, savepoints := savepoints }

/-- One more row, under the next number. -/
def inserted (store : Store Row) (row : Row) : Store Row :=
  { store with rows := store.rows ++ [row], nextId := store.nextId + 1 }

end Store

/-- Inserts the row made of the next number unless the table refuses it. -/
def insertRow (refuses : Row → Option Failure) (fill : Nat → Row) :
    Procedure Failure (Store Row) Row := do
  let store ← get
  let row := fill store.nextId
  match refuses row with
  | some failure => throw failure
  | none =>
    set (store.inserted row)
    pure row

def transaction (answer : Failure → Option Value) (body : Procedure Failure (Store Row) Value) :
    Procedure Failure (Store Row) Value := do
  modify Store.opened
  tryCatch (do
      let value ← body
      modify Store.committed
      pure value)
    (fun failure =>
      match answer failure with
      | some value => do
          modify Store.rolledBack
          pure value
      | none => throw failure)

variable {store : Store Row} {failed : Failure → Store Row → Prop}

theorem leads_insertRow {refuses : Row → Option Failure} {fill : Nat → Row}
    {returned : Row → Store Row → Prop}
    :
    Leads (insertRow refuses fill) store returned failed ↔
      match refuses (fill store.nextId) with
      | some failure => failed failure store
      | none => returned (fill store.nextId) (store.inserted (fill store.nextId)) := by
  unfold insertRow
  apply leads_bind.trans
  show Leads (match refuses (fill store.nextId) with
    | some failure => throw failure
    | none => do
        set (store.inserted (fill store.nextId))
        pure (fill store.nextId)) store returned failed ↔ _
  cases refuses (fill store.nextId) with
  | some failure => exact Iff.rfl
  | none => exact Iff.rfl

theorem leads_transaction {answer : Failure → Option Value}
    {body : Procedure Failure (Store Row) Value}
    {returned : Value → Store Row → Prop} :
    Leads (transaction answer body) store returned failed ↔ Leads body store.opened
        (fun value after => returned value after.committed)
        (fun failure after =>
          match answer failure with
          | some value => returned value after.rolledBack
          | none => failed failure after) := by
  unfold transaction
  apply leads_bind.trans
  show Leads (tryCatch _ _) store.opened returned failed ↔ _
  apply leads_tryCatch.trans
  apply leads_bind.trans
  constructor
  · intro leads
    apply leads.mono
    · exact fun _ _ held => held
    · intro failure after held
      cases answered : answer failure with
      | some value =>
        rw [answered] at held
        exact held
      | none =>
        rw [answered] at held
        exact held
  · intro leads
    apply leads.mono
    · exact fun _ _ held => held
    · intro failure after held
      cases answered : answer failure with
      | some value =>
        rw [answered] at held
        exact held
      | none =>
        rw [answered] at held
        exact held

/-- Run at a store, the procedure adds rows and leaves the transactions as they
are, and what it returns fits the rows it added. -/
def Appends (body : Procedure Failure (Store Row) Value) (store : Store Row)
    (wrote : Value → List Row → Prop) (failing : Failure → List Row → Prop) : Prop :=
  Leads body store (fun value after => ∃ rows, after.rows = store.rows ++ rows ∧
      after.savepoints = store.savepoints ∧ wrote value rows)
    (fun failure after => ∃ rows, after.rows = store.rows ++ rows ∧
      after.savepoints = store.savepoints ∧ failing failure rows)

section Appending

variable {wrote wrote' : Value → List Row → Prop}
  {failing failing' : Failure → List Row → Prop} {store : Store Row}

theorem appends_pure {value : Value} (fits : wrote value []) :
    Appends (pure value : Procedure Failure (Store Row) Value) store wrote failing :=
  ⟨[], (List.append_nil _).symm, rfl, fits⟩

theorem appends_throw {failure : Failure} (fits : failing failure []) :
    Appends (throw failure : Procedure Failure (Store Row) Value) store wrote failing :=
  ⟨[], (List.append_nil _).symm, rfl, fits⟩

theorem appends_get_bind {next : Store Row → Procedure Failure (Store Row) Value}
    (appends : Appends (next store) store wrote failing) :
    Appends (get >>= next) store wrote failing :=
  appends

theorem Appends.bind {program : Procedure Failure (Store Row) Result}
    {next : Result → Procedure Failure (Store Row) Value}
    {first : Result → List Row → Prop}
    (appends : Appends program store first failing)
    (continues : ∀ result rows after, after.rows = store.rows ++ rows →
      first result rows →
      Appends (next result) after (fun value more => wrote value (rows ++ more))
        (fun failure more => failing failure (rows ++ more))) :
    Appends (program >>= next) store wrote failing := by
  apply leads_bind.mpr
  apply Leads.mono appends
  · rintro result middle ⟨rows, grown, same, fits⟩
    apply Leads.mono (continues result rows middle grown fits)
    · rintro value after ⟨more, grown', same', fits'⟩
      refine ⟨rows ++ more, ?_, same'.trans same, fits'⟩
      rw [grown', grown, List.append_assoc]
    · rintro failure after ⟨more, grown', same', fits'⟩
      refine ⟨rows ++ more, ?_, same'.trans same, fits'⟩
      rw [grown', grown, List.append_assoc]
  · exact fun _ _ failed => failed

theorem appends_insertRow {refuses : Row → Option Failure} {fill : Nat → Row}
    {wrote : Row → List Row → Prop}
    (accepted : ∀ id, wrote (fill id) [fill id])
    (refused : ∀ row failure, refuses row = some failure → failing failure []) :
    Appends (insertRow refuses fill) store wrote failing := by
  apply leads_insertRow.mpr
  cases answer : refuses (fill store.nextId) with
  | some failure =>
    exact ⟨[], (List.append_nil _).symm, rfl, refused _ _ answer⟩
  | none => exact ⟨[fill store.nextId], rfl, rfl, accepted _⟩

theorem Appends.transaction {answer : Failure → Option Value}
    {body : Procedure Failure (Store Row) Value}
    (appends : Appends body store.opened wrote failing)
    {returned : Value → Store Row → Prop} {failed : Failure → Store Row → Prop}
    (succeeds : ∀ value rows after, wrote value rows →
      after.rows = store.rows ++ rows → after.savepoints = store.savepoints →
      returned value after)
    (answers : ∀ failure value rows after, failing failure rows →
      answer failure = some value → after.rows = store.rows →
      after.savepoints = store.savepoints → returned value after)
    (raises : ∀ failure rows after, failing failure rows → answer failure = none →
      after.rows = store.rows ++ rows →
      after.savepoints = store.rows :: store.savepoints → failed failure after) :
    Leads (transaction answer body) store returned failed := by
  apply leads_transaction.mpr
  apply Leads.mono appends
  · rintro value after ⟨rows, grown, same, fits⟩
    exact succeeds value rows _ fits grown (congrArg List.tail same)
  · rintro failure after ⟨rows, grown, same, fits⟩
    have opens : after.savepoints = store.rows :: store.savepoints := same
    cases answered : answer failure with
    | some value =>
      refine answers failure value rows _ fits answered ?_ ?_
      · unfold Store.rolledBack
        rw [opens]
      · unfold Store.rolledBack
        rw [opens]
    | none => exact raises failure rows after fits answered grown opens

end Appending

end McpAssistant.Foundations.Transactions
