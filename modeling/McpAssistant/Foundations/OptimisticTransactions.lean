import McpAssistant.Foundations.Interleaving
import Mathlib.Data.List.Nodup
import Mathlib.Data.List.Induction

/-!
# Optimistic transactions

Clients share a store of versioned keys.  A transaction watches its key, reads it, and
commits what it decided on only if the key has not been written since; if it has, the
transaction has lost its race, and starts over or gives up.  Where none gives up, what
the clients are answered is what they would be in some serial order.
-/

namespace McpAssistant.Foundations.OptimisticTransactions

open Interleaving List

variable {Key : Type} {Value : Key → Type} {Reading Answer Failure Client : Type}

structure Operation (Key : Type) (Value : Key → Type) (Reading Answer Failure : Type) where
  key : Key
  decide : Reading → Option (Value key) → Answer × Option (Value key)
  /-- Without a watch an operation is a single command. -/
  watched : Bool
  attempts : Nat
  /-- What an attempt that lost its race raises.  If nothing, the next one begins. -/
  lost : Nat → Option Failure
  /-- What becomes of an operation that has no attempt left. -/
  spent : Failure

inductive Position (Stored Answer Failure : Type) where
  | starts (losses : Nat)
  | reads (losses version : Nat)
  | commits (losses version : Nat) (next : Stored) (answer : Answer)
  | ended (outcome : Except Failure Answer)

namespace Position

variable {Stored : Type}

def outcome : Position Stored Answer Failure → Option (Except Failure Answer)
  | ended outcome => some outcome
  | _ => none

end Position

/-- The next command of a client, by the version and the value of its key.  It may store
a value. -/
def advance (operation : Operation Key Value Reading Answer Failure)
    (reading : Reading) (version : Nat) (current : Option (Value operation.key)) :
    Position (Value operation.key) Answer Failure →
      Position (Value operation.key) Answer Failure × Option (Value operation.key)
  | .starts losses =>
    if operation.watched then
      if losses < operation.attempts then (.reads losses version, none)
      else (.ended (.error operation.spent), none)
    else
      (.ended (.ok (operation.decide reading current).1), (operation.decide reading current).2)
  | .reads losses watched =>
    match operation.decide reading current with
    | (answer, none) => (.ended (.ok answer), none)
    | (answer, some next) => (.commits losses watched next answer, none)
  | .commits losses watched next answer =>
    if version = watched then (.ended (.ok answer), some next)
    else
      match operation.lost losses with
      | some failure => (.ended (.error failure), none)
      | none => (.starts (losses + 1), none)
  | .ended outcome => (.ended outcome, none)

def Fails (operation : Operation Key Value Reading Answer Failure) (version : Nat) :
    Position (Value operation.key) Answer Failure → Prop
  | .starts losses => operation.watched = true ∧ operation.attempts ≤ losses
  | .commits losses watched _ _ =>
    version ≠ watched ∧ (operation.lost losses).isSome = true
  | _ => False

def Fits (operation : Operation Key Value Reading Answer Failure) (version : Nat)
    (current : Option (Value operation.key)) :
    Position (Value operation.key) Answer Failure → Prop
  | .reads _ watched => watched ≤ version
  | .commits _ watched next answer =>
    watched ≤ version ∧ (version = watched →
        ∃ reading, operation.decide reading current = (answer, some next))
  | _ => True

section Commands

variable {operation : Operation Key Value Reading Answer Failure} {version : Nat}
  {current : Option (Value operation.key)}
  {position : Position (Value operation.key) Answer Failure}

/-- Another value under the key takes the commit away from whoever watched. -/
theorem Fits.written (fits : Fits operation version current position)
    (other : Option (Value operation.key)) :
    Fits operation (version + 1) other position := by
  cases position with
  | starts losses => trivial
  | reads losses watched => exact Nat.le_succ_of_le fits
  | commits losses watched next answer =>
    constructor
    · exact Nat.le_succ_of_le fits.1
    · intro isWatched
      have before : watched ≤ version := fits.1
      omega
  | ended outcome => trivial

/-- What a client's next command comes to: nothing yet, the operation done as by a single
command, or a failure. -/
theorem advance_cases (reading : Reading) (fits : Fits operation version current position) :
    (¬Fails operation version position ∧
        (advance operation reading version current position).2 = none ∧
        (advance operation reading version current position).1.outcome = position.outcome) ∨
      (¬Fails operation version position ∧ position.outcome = none ∧ ∃ answer decided,
          operation.decide decided current =
            (answer, (advance operation reading version current position).2) ∧
          (advance operation reading version current position).1 = .ended (.ok answer)) ∨
      (Fails operation version position ∧
        ∃ failure, advance operation reading version current position =
          (.ended (.error failure), none)) := by
  cases position with
  | starts losses =>
    simp only [advance]
    split_ifs with watched remaining
    · apply Or.inl
      exact ⟨fun fails => Nat.not_le_of_lt remaining fails.2, rfl, rfl⟩
    · apply Or.inr
      apply Or.inr
      exact ⟨⟨watched, Nat.le_of_not_lt remaining⟩, _, rfl⟩
    · apply Or.inr
      apply Or.inl
      exact ⟨fun fails => watched fails.1, rfl, _, reading, rfl, rfl⟩
  | reads losses watched =>
    simp only [advance]
    rcases decided : operation.decide reading current with ⟨answer, _ | next⟩
    · apply Or.inr
      apply Or.inl
      exact ⟨id, rfl, answer, reading, decided, rfl⟩
    · apply Or.inl
      exact ⟨id, rfl, rfl⟩
  | commits losses watched next answer =>
    simp only [advance]
    split_ifs with unwritten
    · apply Or.inr
      apply Or.inl
      obtain ⟨decided, isDecided⟩ := fits.2 unwritten
      exact ⟨fun fails => fails.1 unwritten, rfl, answer, decided, isDecided, rfl⟩
    · cases isLost : operation.lost losses with
      | none =>
        apply Or.inl
        refine ⟨?_, rfl, rfl⟩
        rintro ⟨_, raises⟩
        rw [isLost] at raises
        cases raises
      | some failure =>
        apply Or.inr
        apply Or.inr
        refine ⟨⟨unwritten, ?_⟩, failure, rfl⟩
        rw [isLost]
        rfl
  | ended outcome =>
    apply Or.inl
    exact ⟨id, rfl, rfl⟩

/-- The client knows its key as well after a command that stores nothing. -/
theorem Fits.advance (fits : Fits operation version current position) (reading : Reading) :
    Fits operation version current
      (OptimisticTransactions.advance operation reading version current position).1 := by
  cases position with
  | starts losses =>
    simp only [OptimisticTransactions.advance]
    split_ifs
    · exact Nat.le_refl version
    · trivial
    · trivial
  | reads losses watched =>
    simp only [OptimisticTransactions.advance]
    rcases decided : operation.decide reading current with ⟨answer, _ | next⟩
    · trivial
    · constructor
      · exact fits
      · intro _
        exact ⟨reading, decided⟩
  | commits losses watched next answer =>
    simp only [OptimisticTransactions.advance]
    split_ifs
    · trivial
    · cases operation.lost losses with
      | none => trivial
      | some failure => trivial
  | ended outcome => trivial

end Commands

variable (Value Reading Client) in
/-- A client's next command, or a change of a key by anyone else. -/
inductive Choice where
  | takes (client : Client) (reading : Reading)
  | changes (key : Key) (value : Option (Value key))

/-- The values under the keys after an operation stored one, if it did. -/
def writing [DecidableEq Key] (values : (key : Key) → Option (Value key)) (key : Key)
    (next : Option (Value key)) : (key : Key) → Option (Value key) :=
  match next with
  | none => values
  | some next => Function.update values key (some next)

section Systems

variable [DecidableEq Key] [DecidableEq Client]
  (operations : Client → Operation Key Value Reading Answer Failure)

structure System where
  values : (key : Key) → Option (Value key)
  versions : Key → Nat
  positions : (client : Client) → Position (Value (operations client).key) Answer Failure

variable {operations}

/-- Every client before its first command. -/
def newSystem (values : (key : Key) → Option (Value key)) : System operations where
  values := values
  versions := fun _ => 0
  positions := fun _ => .starts 0

namespace System

variable (system : System operations)

def change (key : Key) (value : Option (Value key)) : System operations :=
  { system with
    values := Function.update system.values key value
    versions := Function.update system.versions key (system.versions key + 1) }

def write (key : Key) (next : Option (Value key)) : System operations :=
  match next with
  | none => system
  | some next => system.change key (some next)

def advanced (client : Client) (reading : Reading) :
    Position (Value (operations client).key) Answer Failure ×
      Option (Value (operations client).key) :=
  advance (operations client) reading (system.versions (operations client).key)
    (system.values (operations client).key) (system.positions client)

end System

def step (choice : Choice Value Reading Client) (system : System operations) : System operations :=
  match choice with
  | .takes client reading =>
    { system.write (operations client).key (system.advanced client reading).2 with
      positions := Function.update system.positions client (system.advanced client reading).1 }
  | .changes key value => system.change key value

variable (Value Answer Client) in
/-- The store, and what the clients that had their turn were answered. -/
structure Serial where
  values : (key : Key) → Option (Value key)
  answers : Client → Option Answer

variable (operations) in
/-- One operation after the other, each by itself. -/
def inTurn (choice : Choice Value Reading Client) (serial : Serial Value Answer Client) :
    Serial Value Answer Client :=
  match choice with
  | .takes client reading =>
    let decided := (operations client).decide reading (serial.values (operations client).key)
    { values := writing serial.values (operations client).key decided.2
      answers := Function.update serial.answers client (some decided.1) }
  | .changes key value =>
    { serial with values := Function.update serial.values key value }

def Choice.client? : Choice Value Reading Client → Option Client
  | takes client _ => some client
  | changes _ _ => none

variable (operations) in
def serially (start : (key : Key) → Option (Value key))
    (order : List (Choice Value Reading Client)) : Serial Value Answer Client :=
  runFrom (inTurn operations) { values := start, answers := fun _ => none } order

/-- In some order of the operations, each by itself and once, the clients are answered
what they were, and the store holds what it does. -/
def Serializable (start : (key : Key) → Option (Value key)) (system : System operations) : Prop :=
  ∃ order : List (Choice Value Reading Client), (order.filterMap Choice.client?).Nodup ∧
      (serially operations start order).values = system.values ∧
      ∀ client, (system.positions client).outcome =
        ((serially operations start order).answers client).map Except.ok

/-- Every client knows its key as far as it says. -/
def Coherent (system : System operations) : Prop :=
  ∀ client, Fits (operations client) (system.versions (operations client).key)
    (system.values (operations client).key) (system.positions client)

def GivesUp (system : System operations) : Choice Value Reading Client → Prop
  | .takes client _ =>
    Fails (operations client) (system.versions (operations client).key) (system.positions client)
  | .changes _ _ => False

/-- A client that loses its race starts over. -/
def Retries (system : System operations) (choice : Choice Value Reading Client) : Prop :=
  ∀ client reading, choice = .takes client reading → ∀ losses version next answer,
      system.positions client = .commits losses version next answer →
      system.versions (operations client).key ≠ version →
      (step choice system).positions client = .starts (losses + 1)

omit [DecidableEq Key] [DecidableEq Client] in
theorem coherent_newSystem (values : (key : Key) → Option (Value key)) :
    Coherent (newSystem values : System operations) :=
  fun _ => trivial

section Steps

variable {system : System operations}

omit [DecidableEq Client] in
theorem Coherent.change (coherent : Coherent system) (key : Key)
    (value : Option (Value key)) : Coherent (system.change key value) := by
  intro client
  by_cases same : key = (operations client).key
  · subst same
    have fits := (coherent client).written value
    simpa [System.change] using fits
  · have fits := coherent client
    have other : (operations client).key ≠ key := Ne.symm same
    simpa [System.change, other] using fits

omit [DecidableEq Client] in
theorem Coherent.write (coherent : Coherent system) (key : Key)
    (next : Option (Value key)) : Coherent (system.write key next) := by
  cases next with
  | none => exact coherent
  | some next => exact coherent.change key (some next)

omit [DecidableEq Key] in
theorem Coherent.move (coherent : Coherent system) {client : Client}
    {position : Position (Value (operations client).key) Answer Failure}
    (fits : Fits (operations client) (system.versions (operations client).key)
      (system.values (operations client).key) position) :
    Coherent { system with
      positions := Function.update system.positions client position } := by
  intro other
  by_cases same : other = client
  · subst same
    simpa using fits
  · simpa [same] using coherent other

omit [DecidableEq Client] in
theorem values_write (key : Key) (next : Option (Value key)) :
    (system.write key next).values = writing system.values key next := by
  cases next with
  | none => rfl
  | some next => rfl

omit [DecidableEq Client] in
theorem positions_write (key : Key) (next : Option (Value key)) :
    (system.write key next).positions = system.positions := by
  cases next with
  | none => rfl
  | some next => rfl

theorem Coherent.step (coherent : Coherent system) (choice : Choice Value Reading Client) :
    Coherent (OptimisticTransactions.step choice system) := by
  cases choice with
  | changes key value => exact coherent.change key value
  | takes client reading =>
    have fits := coherent client
    have written := coherent.write (operations client).key (system.advanced client reading).2
    have moved := @Coherent.move _ _ _ _ _ _ _ _ _ written client (system.advanced client reading).1
    rw [positions_write] at moved
    apply moved
    unfold System.advanced
    rcases advance_cases reading fits with ⟨_, stores, _⟩ | ⟨_, _, _, _, _, ended⟩ | ⟨_, _, failed⟩
    · rw [stores]
      exact fits.advance reading
    · rw [ended]
      trivial
    · rw [failed]
      trivial

theorem serially_concat (start : (key : Key) → Option (Value key))
    (order : List (Choice Value Reading Client)) (choice : Choice Value Reading Client) :
    serially operations start (order ++ [choice]) =
      inTurn operations choice (serially operations start order) := by
  unfold serially runFrom
  rw [foldl_append]
  rfl

/-- Whoever has had a turn has an answer. -/
theorem not_mem_of_unanswered {start : (key : Key) → Option (Value key)}
    {order : List (Choice Value Reading Client)} {client : Client}
    (unanswered : (serially operations start order).answers client = none) :
    client ∉ order.filterMap Choice.client? := by
  induction order using List.reverseRecOn with
  | nil => exact not_mem_nil
  | append_singleton order choice ih =>
    rw [serially_concat] at unanswered
    rw [filterMap_append, mem_append]
    cases choice with
    | changes key value =>
      rintro (earlier | last)
      · exact ih unanswered earlier
      · cases last
    | takes other reading =>
      have isUpdate : (Function.update (serially operations start order).answers
        other _) client = none := unanswered
      by_cases same : client = other
      · subst same
        rw [Function.update_self] at isUpdate
        cases isUpdate
      · rw [Function.update_of_ne same] at isUpdate
        rintro (earlier | last)
        · exact ih isUpdate earlier
        · exact same (List.mem_singleton.mp last)

theorem Serializable.change {start : (key : Key) → Option (Value key)}
    (serializable : Serializable start system) (key : Key) (value : Option (Value key)) :
    Serializable start (system.change key value) := by
  obtain ⟨order, once, values, answers⟩ := serializable
  refine ⟨order ++ [.changes key value], ?_, ?_, ?_⟩
  · rw [filterMap_append]
    exact (append_nil _).symm ▸ once
  · rw [serially_concat]
    show Function.update (serially operations start order).values key value = _
    rw [values]
    rfl
  · intro client
    rw [serially_concat]
    exact answers client

theorem Serializable.turn {start : (key : Key) → Option (Value key)}
    (serializable : Serializable start system) {client : Client} {reading : Reading}
    {answer : Answer} {next : Option (Value (operations client).key)}
    (unanswered : (system.positions client).outcome = none)
    (decided : (operations client).decide reading
      (system.values (operations client).key) = (answer, next)) :
    Serializable start
      { system.write (operations client).key next with
        positions := Function.update system.positions client (.ended (.ok answer)) } := by
  obtain ⟨order, once, values, answers⟩ := serializable
  have noTurn : (serially operations start order).answers client = none := by
    have none := answers client
    rw [unanswered] at none
    exact Option.map_eq_none_iff.mp none.symm
  refine ⟨order ++ [.takes client reading], ?_, ?_, ?_⟩
  · rw [filterMap_append]
    apply once.append (nodup_singleton client)
    apply List.disjoint_singleton.mpr
    exact not_mem_of_unanswered noTurn
  · rw [serially_concat]
    show writing (serially operations start order).values _ _ =
      (system.write (operations client).key next).values
    rw [values, decided, values_write]
  · intro other
    rw [serially_concat]
    show (Function.update system.positions client (.ended (.ok answer)) other).outcome =
      (Function.update (serially operations start order).answers client
        (some _) other).map Except.ok
    by_cases same : other = client
    · subst same
      rw [Function.update_self, Function.update_self, values, decided]
      rfl
    · rw [Function.update_of_ne same, Function.update_of_ne same]
      exact answers other

/-- A command that changes neither the store nor the outcome changes no order. -/
theorem Serializable.move {start : (key : Key) → Option (Value key)}
    (serializable : Serializable start system) {client : Client}
    {position : Position (Value (operations client).key) Answer Failure}
    (quiet : position.outcome = (system.positions client).outcome) :
    Serializable start
      { system with positions := Function.update system.positions client position } := by
  obtain ⟨order, once, values, answers⟩ := serializable
  refine ⟨order, once, values, ?_⟩
  intro other
  show (Function.update system.positions client position other).outcome = _
  by_cases same : other = client
  · subst same
    rw [Function.update_self, quiet]
    exact answers other
  · rw [Function.update_of_ne same]
    exact answers other

theorem not_serializable_of_failed {start : (key : Key) → Option (Value key)}
    {client : Client} {failure : Failure}
    (failed : system.positions client = .ended (.error failure)) :
    ¬Serializable start system := by
  rintro ⟨order, _, _, answers⟩
  have answer := answers client
  rw [failed] at answer
  cases given : (serially operations start order).answers client with
  | none =>
    rw [given] at answer
    cases answer
  | some given' =>
    rw [given] at answer
    cases answer

theorem serializable_step_iff {start : (key : Key) → Option (Value key)}
    (coherent : Coherent system) (serializable : Serializable start system)
    (choice : Choice Value Reading Client) :
    Serializable start (step choice system) ↔ ¬GivesUp system choice := by
  cases choice with
  | changes key value => exact iff_of_true (serializable.change key value) id
  | takes client reading =>
    have cases := advance_cases reading (coherent client)
    unfold step
    simp only [System.advanced]
    rcases cases with
      ⟨continues, stores, quiet⟩ | ⟨continues, unanswered, answer, decided, isDecided, ended⟩ |
        ⟨fails, failure, failed⟩
    · rw [stores]
      exact iff_of_true (serializable.move quiet) continues
    · rw [ended]
      exact iff_of_true (serializable.turn unanswered isDecided) continues
    · apply iff_of_false
      · apply not_serializable_of_failed 
        rw [failed]
        exact Function.update_self client _ _
      · exact not_not_intro fails

theorem retries_of_not_givesUp {choice : Choice Value Reading Client}
    (continues : ¬GivesUp system choice) : Retries system choice := by
  rintro client reading rfl losses version next answer isCommit lost
  show Function.update system.positions client (system.advanced client reading).1 client = _
  rw [Function.update_self]
  unfold System.advanced
  rw [isCommit]
  simp only [advance]
  rw [if_neg lost]
  cases isLost : (operations client).lost losses with
  | none => rfl
  | some failure =>
    have fails : GivesUp system (.takes client reading : Choice Value Reading Client) := by
      show Fails _ _ (system.positions client)
      rw [isCommit]
      exact ⟨lost, by rw [isLost]; rfl⟩
    exact absurd fails continues

end Steps

theorem serializable_iff (start : (key : Key) → Option (Value key))
    (choices : List (Choice Value Reading Client)) :
    (Throughout step (Serializable start) (newSystem start : System operations) choices ∧
        OrderlyRun step Retries (newSystem start : System operations) choices) ↔
      OrderlyRun step (fun system choice => ¬GivesUp system choice)
        (newSystem start : System operations) choices := by
  have initially : Serializable start (newSystem start : System operations) :=
    ⟨([] : List (Choice Value Reading Client)), nodup_nil, rfl, fun _ => rfl⟩
  have serial : Throughout step (Serializable start) (newSystem start : System operations) choices ↔
        OrderlyRun step (fun system choice => ¬GivesUp system choice)
          (newSystem start : System operations) choices := by
    apply @throughout_iff_of_invariant _ _ _ _ Coherent
    · intro system choice coherent
      exact coherent.step choice
    · intro system choice coherent serializable
      exact serializable_step_iff coherent serializable choice
    · exact coherent_newSystem start
    · exact initially
  rw [serial]
  constructor
  · exact And.left
  · intro continues
    exact ⟨continues, OrderlyRun.imp (fun _ _ => retries_of_not_givesUp) continues⟩

end Systems

end McpAssistant.Foundations.OptimisticTransactions
