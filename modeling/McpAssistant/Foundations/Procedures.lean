import Mathlib.Logic.Relation

/-!
# Procedures that move a state

A procedure reads and changes a state and returns a value or fails; a failure
keeps the changes made before it.  `Leads` is its weakest precondition.
`Follows` says that whatever a procedure does to the state is a chain of moves
of a given kind, and `Finishes` that it succeeds only by taking one last step
of another kind, so that a procedure which failed may still be finished.
-/

namespace McpAssistant.Foundations.Procedures

open Relation

/-- A computation over a state that may fail and then keeps its changes. -/
abbrev Procedure (Failure State Value : Type) := EStateM Failure State Value

variable {Failure State Value Result Item : Type}

/-- The state a run leaves, whether it returned or failed. -/
def stateAfter (program : Procedure Failure State Value) (state : State) : State :=
  match program state with
  | .ok _ after => after
  | .error _ after => after

/-- Run at a state, the procedure returns with the first postcondition or fails
with the second. -/
def Leads (program : Procedure Failure State Value) (state : State)
    (returned : Value → State → Prop) (failed : Failure → State → Prop) : Prop :=
  match program state with
  | .ok value after => returned value after
  | .error failure after => failed failure after

variable {program : Procedure Failure State Value} {state : State}
  {returned : Value → State → Prop} {failed : Failure → State → Prop}

theorem Leads.mono {returned' : Value → State → Prop} {failed' : Failure → State → Prop}
    (leads : Leads program state returned failed)
    (onReturn : ∀ value after, returned value after → returned' value after)
    (onFailure : ∀ failure after, failed failure after → failed' failure after) :
    Leads program state returned' failed' := by
  unfold Leads at leads ⊢
  cases ran : program state with
  | ok value after =>
    rw [ran] at leads
    exact onReturn value after leads
  | error failure after =>
    rw [ran] at leads
    exact onFailure failure after leads

/-- A sequence ends as its second half does, run where the first half left the
state, or fails as its first half does. -/
theorem leads_bind {next : Value → Procedure Failure State Result}
    {returned : Result → State → Prop} :
    Leads (program >>= next) state returned failed ↔ Leads program state
        (fun value after => Leads (next value) after returned failed) failed := by
  show (match EStateM.bind program next state with
    | .ok result after => returned result after
    | .error failure after => failed failure after) ↔
    (match program state with
    | .ok value after => Leads (next value) after returned failed
    | .error failure after => failed failure after)
  unfold EStateM.bind
  cases program state with
  | ok value after => exact Iff.rfl
  | error failure after => exact Iff.rfl

theorem leads_tryCatch {handler : Failure → Procedure Failure State Value} :
    Leads (tryCatch program handler) state returned failed ↔ Leads program state returned
        (fun failure after => Leads (handler failure) after returned failed) := by
  show (match EStateM.tryCatch program handler state with
    | .ok value after => returned value after
    | .error failure after => failed failure after) ↔
    (match program state with
    | .ok value after => returned value after
    | .error failure after => Leads (handler failure) after returned failed)
  unfold EStateM.tryCatch
  cases program state with
  | ok value after => exact Iff.rfl
  | error failure after => exact Iff.rfl

section Moves

variable {move move' last : State → State → Prop} {fails fails' : Failure → Prop} {state : State}

/-- Run at a state, the procedure changes it by moves alone and fails only as
allowed. -/
def Follows (move : State → State → Prop) (fails : Failure → Prop)
    (program : Procedure Failure State Value) (state : State) : Prop :=
  Leads program state (fun _ after => ReflTransGen move state after)
    (fun failure after => fails failure ∧ ReflTransGen move state after)

/-- Run at a state, the procedure returns by moves and one last step, and a
failure leaves it after moves alone. -/
def Finishes (move last : State → State → Prop) (fails : Failure → Prop)
    (program : Procedure Failure State Value) (state : State) : Prop :=
  Leads program state (fun _ after => ∃ before, ReflTransGen move state before ∧ last before after)
    (fun failure after => fails failure ∧ ReflTransGen move state after)

theorem follows_pure (value : Value) : Follows move fails (pure value) state := ReflTransGen.refl

theorem follows_throw {failure : Failure} (allowed : fails failure) :
    Follows move fails (throw failure : Procedure Failure State Value) state :=
  ⟨allowed, ReflTransGen.refl⟩

theorem follows_modify {change : State → State} (moved : ReflTransGen move state (change state)) :
    Follows move fails (modify change) state :=
  moved

theorem follows_set {after : State} (moved : ReflTransGen move state after) :
    Follows move fails (set after) state :=
  moved

variable {next : State → Procedure Failure State Value}

theorem follows_get_bind (follows : Follows move fails (next state) state) :
    Follows move fails (get >>= next) state :=
  follows

theorem finishes_get_bind (finishes : Finishes move last fails (next state) state) :
    Finishes move last fails (get >>= next) state :=
  finishes

variable {program : Procedure Failure State Value} {next : Value → Procedure Failure State Result}

theorem Follows.bind (first : Follows move fails program state)
    (second : ∀ value after, ReflTransGen move state after →
      Follows move fails (next value) after) :
    Follows move fails (program >>= next) state := by
  apply leads_bind.mpr
  apply Leads.mono first
  · intro value after moved
    apply Leads.mono (second value after moved)
    · exact fun _ _ later => moved.trans later
    · exact fun _ _ later => ⟨later.1, moved.trans later.2⟩
  · exact fun _ _ failed => failed

theorem Follows.bind_finishes (first : Follows move fails program state)
    (second : ∀ value after, ReflTransGen move state after →
      Finishes move last fails (next value) after) :
    Finishes move last fails (program >>= next) state := by
  apply leads_bind.mpr
  apply Leads.mono first
  · intro value after moved
    apply Leads.mono (second value after moved)
    · rintro _ _ ⟨before, later, finished⟩
      exact ⟨before, moved.trans later, finished⟩
    · exact fun _ _ later => ⟨later.1, moved.trans later.2⟩
  · exact fun _ _ failed => failed

theorem Follows.forM {run : Item → Procedure Failure State PUnit} {items : List Item}
    (each : ∀ item ∈ items, ∀ after, ReflTransGen move state after →
      Follows move fails (run item) after) :
    Follows move fails (items.forM run) state := by
  induction items generalizing state with
  | nil => exact follows_pure _
  | cons item items ih =>
    show Follows move fails (run item >>= fun _ => items.forM run) state
    apply Follows.bind (each item List.mem_cons_self state ReflTransGen.refl)
    intro _ after moved
    apply ih
    intro other member later moved'
    exact each other (List.mem_cons_of_mem _ member) later (moved.trans moved')

theorem Follows.moved (follows : Follows move fails program state) :
    ReflTransGen move state (stateAfter program state) := by
  unfold Follows Leads at follows
  unfold stateAfter
  cases ran : program state with
  | ok value after =>
    rw [ran] at follows
    exact follows
  | error failure after =>
    rw [ran] at follows
    exact follows.2

variable {handler : Failure → Procedure Failure State Value}

theorem Follows.tryCatch (first : Follows move fails program state)
    (handled : ∀ failure after, fails failure → ReflTransGen move state after →
      Follows move fails' (handler failure) after) :
    Follows move fails' (tryCatch program handler) state := by
  apply leads_tryCatch.mpr
  apply Leads.mono first
  · exact fun _ _ moved => moved
  · rintro failure after ⟨allowed, moved⟩
    apply Leads.mono (handled failure after allowed moved)
    · exact fun _ _ later => moved.trans later
    · exact fun _ _ later => ⟨later.1, moved.trans later.2⟩

theorem Finishes.tryCatch (first : Finishes move last fails program state)
    (handled : ∀ failure after, fails failure → ReflTransGen move state after →
      Finishes move last fails' (handler failure) after) :
    Finishes move last fails' (tryCatch program handler) state := by
  apply leads_tryCatch.mpr
  apply Leads.mono first
  · exact fun _ _ finished => finished
  · rintro failure after ⟨allowed, moved⟩
    apply Leads.mono (handled failure after allowed moved)
    · rintro _ _ ⟨before, later, finished⟩
      exact ⟨before, moved.trans later, finished⟩
    · exact fun _ _ later => ⟨later.1, moved.trans later.2⟩

theorem Follows.mono (follows : Follows move fails program state)
    (moves : ∀ before after, move before after → move' before after)
    (failing : ∀ failure, fails failure → fails' failure) :
    Follows move' fails' program state := by
  apply Leads.mono follows
  · exact fun _ _ moved => ReflTransGen.mono moves _ _ moved
  · exact fun _ _ failed =>
      ⟨failing _ failed.1, ReflTransGen.mono moves _ _ failed.2⟩

end Moves

theorem keeps_of_moves {move : State → State → Prop} {holds : State → Prop}
    {before after : State} (moved : ReflTransGen move before after)
    (keeps : ∀ state next, move state next → holds state → holds next)
    (initially : holds before) : holds after := by
  induction moved with
  | refl => exact initially
  | tail _ step ih => exact keeps _ _ step ih

end McpAssistant.Foundations.Procedures
