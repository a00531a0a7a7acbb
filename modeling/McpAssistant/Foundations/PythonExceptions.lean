import McpAssistant.Foundations.JsonReading

/-!
# Python's exceptions

The accesses of Python to dictionaries, lists and sets that may raise an exception, and
the calls that run out of stack.
-/

namespace McpAssistant.Foundations.PythonExceptions

open JsonReading

inductive PyException where
  | keyError
  | indexError
  | attributeError
  | typeError
  | valueError
  | recursionError
  | overflowError
deriving DecidableEq

abbrev Raising (Value : Type) := Except PyException Value

/-- A call takes one of the frames the interpreter still allows. -/
def call {Value : Type} (frames : Nat) (body : Nat → Raising Value) : Raising Value :=
  match frames with
  | 0 => .error .recursionError
  | left + 1 => body left

section Calls

variable {Value : Type} {frames : Nat} {body : Nat → Raising Value}

@[simp] theorem call_succ : call (frames + 1) body = body frames := rfl

end Calls

section Accesses

variable (key : String) (entries : Entries)

def subscript : Raising Json :=
  match entries.lookup key with
  | some value => .ok value
  | none => .error .keyError

def pop : Raising (Json × Entries) :=
  match entries.lookup key with
  | some value => .ok (value, eraseKey entries key)
  | none => .error .keyError

def delete : Raising Entries :=
  if hasKey entries key then .ok (eraseKey entries key) else .error .keyError

def elementAt (items : List Json) (index : Nat) : Raising Json :=
  match items[index]? with
  | some item => .ok item
  | none => .error .indexError

def isIn (names : List String) : Json → Raising Bool
  | .text name => .ok (names.contains name)
  | json => if json.hashable then .ok false else .error .typeError

def subscriptName (names : List (String × String)) : Json → Raising String
  | .text name =>
    match names.lookup name with
    | some value => .ok value
    | none => .error .keyError
  | json => .error (if json.hashable then .keyError else .typeError)

variable {key entries} {value : Json} (found : entries.lookup key = some value)
include found

theorem subscript_of_lookup : subscript key entries = .ok value := by
  rw [subscript, found]

theorem pop_of_lookup : pop key entries = .ok (value, eraseKey entries key) := by
  rw [pop, found]

theorem delete_of_lookup : delete key entries = .ok (eraseKey entries key) := by
  rw [delete, hasKey, found]
  rfl

omit found

theorem contains_keys (names : List (String × String)) (name : String) :
    (names.map Prod.fst).contains name = (names.lookup name).isSome := by
  induction names with
  | nil => rfl
  | cons entry names ih =>
    rw [List.map_cons, List.contains_cons, List.lookup_cons, ih]
    cases name == entry.1 with
    | true => rfl
    | false => rfl

end Accesses

end McpAssistant.Foundations.PythonExceptions
