import Mathlib.Tactic.Common

/-!
# Keyed logs

A keyed log keeps the first entry inserted under each key.  Nothing is removed
or replaced, so what a log holds under a key it holds for good.
-/

namespace McpAssistant.Foundations.KeyedLog

variable {Entry Key : Type} [DecidableEq Key] (key : Entry → Key)

def lookup (log : List Entry) (name : Key) : Option Entry :=
  log.find? fun entry => key entry = name

/-- Inserts an entry unless its key is taken: the first writer wins. -/
def insert (log : List Entry) (entry : Entry) : List Entry :=
  match lookup key log (key entry) with
  | some _ => log
  | none => log ++ [entry]

/-- Everything the first log holds, the second holds too. -/
def Extends (first second : List Entry) : Prop :=
  ∀ name entry, lookup key first name = some entry → lookup key second name = some entry

variable {key}

theorem Extends.refl (log : List Entry) : Extends key log log := fun _ _ found => found

theorem Extends.trans {first second third : List Entry}
    (left : Extends key first second) (right : Extends key second third) :
    Extends key first third :=
  fun name entry found => right name entry (left name entry found)

theorem extends_append (log : List Entry) (entry : Entry) : Extends key log (log ++ [entry]) := by
  intro name found held
  rw [lookup, List.find?_append]
  rw [lookup] at held
  rw [held]
  rfl

theorem extends_insert (log : List Entry) (entry : Entry) :
    Extends key log (insert key log entry) := by
  rw [insert]
  split
  · exact Extends.refl log
  · exact extends_append log entry

/-- Under its own key, an inserted entry is found unless another came first. -/
theorem lookup_insert (log : List Entry) (entry : Entry) :
    lookup key (insert key log entry) (key entry) =
      some ((lookup key log (key entry)).getD entry) := by
  rw [insert]
  cases held : lookup key log (key entry) with
  | some found => exact held
  | none =>
    show lookup key (log ++ [entry]) (key entry) = some entry
    rw [lookup, List.find?_append]
    rw [lookup] at held
    rw [held]
    simp

end McpAssistant.Foundations.KeyedLog
