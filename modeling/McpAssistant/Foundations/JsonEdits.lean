import McpAssistant.Foundations.JsonReading

/-!
# Edits of JSON values

A pointer leads through dictionaries by their keys and through lists by an index to the
place of an edit.  An edit is determined by its pointer, and the entries that the pointer
does not lead to stay as they were.
-/

namespace McpAssistant.Foundations.JsonEdits

open JsonReading

inductive Edit where
  | add (value : Json)
  | remove
  | replace (value : Json)

/-- The edit at the end of a pointer, where its last segment names a place. -/
inductive EditsHere (index : String → Option Nat) : Edit → String → Json → Json → Prop
  | addEntry (key : String) (value : Json) (entries : Entries) :
      EditsHere index (.add value) key (.dict entries) (.dict (putKey key value entries))
  | append (value : Json) (items : List Json) :
      EditsHere index (.add value) "-" (.list items) (.list (items ++ [value]))
  | insert {segment : String} {place : Nat} (value : Json) (items : List Json)
      (isItem : segment ≠ "-") (isPlace : index segment = some place)
      (within : place ≤ items.length) :
      EditsHere index (.add value) segment (.list items) (.list (items.insertIdx place value))
  | removeEntry {key : String} {entries : Entries} (held : hasKey entries key = true) :
      EditsHere index .remove key (.dict entries) (.dict (eraseKey entries key))
  | removeItem {segment : String} {place : Nat} {items : List Json}
      (isPlace : index segment = some place) (within : place < items.length) :
      EditsHere index .remove segment (.list items) (.list (items.eraseIdx place))
  | replaceEntry {key : String} {entries : Entries} (value : Json)
      (held : hasKey entries key = true) :
      EditsHere index (.replace value) key (.dict entries) (.dict (putKey key value entries))
  | replaceItem {segment : String} {place : Nat} {items : List Json} (value : Json)
      (isPlace : index segment = some place) (within : place < items.length) :
      EditsHere index (.replace value) segment (.list items) (.list (items.set place value))

/-- The edit behind the first segments of a pointer. -/
inductive Edits (index : String → Option Nat) (edit : Edit) (last : String) :
    List String → Json → Json → Prop
  | here {before after : Json} (edits : EditsHere index edit last before after) :
      Edits index edit last [] before after
  | entry {key : String} {front : List String} {entries : Entries} {before after : Json}
      (held : entries.lookup key = some before)
      (edits : Edits index edit last front before after) :
      Edits index edit last (key :: front) (.dict entries) (.dict (putKey key after entries))
  | item {segment : String} {front : List String} {place : Nat} {items : List Json}
      {before after : Json} (isPlace : index segment = some place)
      (held : items[place]? = some before)
      (edits : Edits index edit last front before after) :
      Edits index edit last (segment :: front) (.list items) (.list (items.set place after))

section Laws

variable {index : String → Option Nat} {edit : Edit} {last : String}

theorem EditsHere.unique {before after other : Json} (one : EditsHere index edit last before after)
    (two : EditsHere index edit last before other) : after = other := by
  cases one with
  | append value items =>
    cases two with
    | append => rfl
    | insert _ _ isItem => exact absurd rfl isItem
  | insert value items isItem isPlace within =>
    cases two with
    | append => exact absurd rfl isItem
    | insert _ _ _ samePlace _ =>
      cases isPlace.symm.trans samePlace
      rfl
  | removeItem isPlace within =>
    cases two with
    | removeItem samePlace _ =>
      cases isPlace.symm.trans samePlace
      rfl
  | replaceItem value isPlace within =>
    cases two with
    | replaceItem _ samePlace _ =>
      cases isPlace.symm.trans samePlace
      rfl
  | _ =>
    cases two
    rfl

variable {front : List String}

/-- A pointer and an edit determine what a value becomes. -/
theorem Edits.unique {before after other : Json} (one : Edits index edit last front before after)
    (two : Edits index edit last front before other) : after = other := by
  induction one generalizing other with
  | here edits =>
    cases two with
    | here others => exact edits.unique others
  | entry held edits ih =>
    cases two with
    | entry again others =>
      cases held.symm.trans again
      rw [ih others]
  | item isPlace held edits ih =>
    cases two with
    | item samePlace again others =>
      cases isPlace.symm.trans samePlace
      cases held.symm.trans again
      rw [ih others]

theorem Edits.elsewhere {entries : Entries} {after : Json}
    (edits : Edits index edit last front (.dict entries) after) {key : String}
    (other : (front ++ [last]).head? ≠ some key) :
    ∃ changed : Entries, after = .dict changed ∧ changed.lookup key = entries.lookup key := by
  cases edits with
  | here edits =>
    have apart : key ≠ last := fun same => other (congrArg some same.symm)
    cases edits with
    | addEntry => exact ⟨_, rfl, lookup_putKey_of_ne apart⟩
    | removeEntry => exact ⟨_, rfl, lookup_eraseKey_of_ne apart⟩
    | replaceEntry => exact ⟨_, rfl, lookup_putKey_of_ne apart⟩
  | entry held edits =>
    have apart := fun same => other (congrArg some (Eq.symm same))
    exact ⟨_, rfl, lookup_putKey_of_ne apart⟩

end Laws

end McpAssistant.Foundations.JsonEdits
