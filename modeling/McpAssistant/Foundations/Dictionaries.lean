import Mathlib.Tactic.Common
import Mathlib.Data.List.Nodup

/-!
# Dictionaries

A dictionary is a list of entries with distinct keys, in the order in which the
keys were first assigned.
-/

namespace McpAssistant.Foundations.Dictionaries

open List

variable {Key Value : Type} [DecidableEq Key]

def assign (entries : List (Key × Value)) (key : Key) (value : Value) : List (Key × Value) :=
  if key ∈ entries.map Prod.fst then
    entries.map fun entry => if entry.1 = key then (key, value) else entry
  else entries ++ [(key, value)]

/-- The dictionary of some pairs, assigned first to last. -/
def ofPairs (pairs : List (Key × Value)) : List (Key × Value) :=
  pairs.foldl (fun entries pair => assign entries pair.1 pair.2) []

def lookup (entries : List (Key × Value)) (key : Key) : Option Value :=
  (entries.find? fun entry => entry.1 = key).map Prod.snd

theorem keys_assign (entries : List (Key × Value)) (key : Key) (value : Value) :
    (assign entries key value).map Prod.fst =
      if key ∈ entries.map Prod.fst then entries.map Prod.fst
      else entries.map Prod.fst ++ [key] := by
  unfold assign
  split
  · rw [map_map]
    apply map_congr_left
    intro entry _
    show (if entry.1 = key then (key, value) else entry).1 = entry.1
    split
    · next same => exact same.symm
    · rfl
  · exact map_append

variable {entries : List (Key × Value)}

theorem nodup_keys_assign (key : Key) (value : Value) (nodup : (entries.map Prod.fst).Nodup) :
    ((assign entries key value).map Prod.fst).Nodup := by
  rw [keys_assign]
  split
  · exact nodup
  · next absent =>
      exact List.nodup_append.mpr ⟨nodup, nodup_singleton key, by
        intro other inside last isLast same
        rw [List.mem_singleton.mp isLast] at same
        exact absent (same ▸ inside)⟩

variable {entry : Key × Value}

theorem mem_assign {key : Key} {value : Value} (member : entry ∈ assign entries key value) :
    entry = (key, value) ∨ entry ∈ entries := by
  unfold assign at member
  split at member
  · rcases List.mem_map.mp member with ⟨old, isOld, same⟩
    split at same
    · exact .inl same.symm
    · exact .inr (same ▸ isOld)
  · rcases List.mem_append.mp member with old | new
    · exact .inr old
    · exact .inl (List.mem_singleton.mp new)

variable {pairs : List (Key × Value)}

theorem nodup_keys_foldl (nodup : (entries.map Prod.fst).Nodup) :
    ((pairs.foldl (fun entries pair => assign entries pair.1 pair.2) entries).map
      Prod.fst).Nodup := by
  induction pairs generalizing entries with
  | nil => exact nodup
  | cons pair pairs ih => exact ih (nodup_keys_assign pair.1 pair.2 nodup)

theorem nodup_keys_ofPairs (pairs : List (Key × Value)) : ((ofPairs pairs).map Prod.fst).Nodup :=
  nodup_keys_foldl nodup_nil

theorem mem_foldl (member : entry ∈
      pairs.foldl (fun entries pair => assign entries pair.1 pair.2) entries) :
    entry ∈ entries ∨ entry ∈ pairs := by
  induction pairs generalizing entries with
  | nil => exact .inl member
  | cons pair pairs ih =>
    rcases ih member with assigned | later
    · rcases mem_assign assigned with isPair | old
      · exact .inr (isPair ▸ mem_cons_self)
      · exact .inl old
    · exact .inr (mem_cons_of_mem _ later)

/-- Every entry of a dictionary was assigned. -/
theorem mem_of_mem_ofPairs (member : entry ∈ ofPairs pairs) : entry ∈ pairs :=
  (mem_foldl member).resolve_left not_mem_nil

theorem mem_of_lookup {key : Key} {value : Value}
    (found : lookup entries key = some value) : (key, value) ∈ entries := by
  rcases Option.map_eq_some_iff.mp found with ⟨entry, isEntry, isValue⟩
  have isKey : entry.1 = key := by
    simpa using List.find?_some isEntry
  rw [← isKey, ← isValue]
  exact mem_of_find?_eq_some isEntry

end McpAssistant.Foundations.Dictionaries
