import Mathlib.Data.List.Basic

/-!
# Blocks of a stream

A stream is cut into blocks at each stop letter that is doubled.  It arrives in chunks, and
what is done with the blocks does not depend on where the chunks begin and end.
-/

namespace McpAssistant.Foundations.EventBlocks

open List

variable {Letter State : Type} [DecidableEq Letter] (stop : Letter)

/-- The letters up to the first doubled stop, and those behind it. -/
def nextBlock : List Letter → Option (List Letter × List Letter)
  | first :: second :: rest =>
    if first = stop ∧ second = stop then some ([], rest)
    else (nextBlock (second :: rest)).map fun found => (first :: found.1, found.2)
  | _ => none

variable {stop} {text block rest : List Letter}

theorem nextBlock_append (found : nextBlock stop text = some (block, rest))
    (more : List Letter) : nextBlock stop (text ++ more) = some (block, rest ++ more) := by
  induction text generalizing block with
  | nil => cases found
  | cons first text later =>
    cases text with
    | nil => cases found
    | cons second text =>
      simp only [cons_append, nextBlock] at found later ⊢
      split at found
      case isTrue doubled =>
        cases found
        exact if_pos doubled
      case isFalse single =>
        rcases Option.map_eq_some_iff.mp found with ⟨inner, isInner, same⟩
        cases same
        rw [if_neg single, later isInner]
        rfl

theorem nextBlock_shorter (found : nextBlock stop text = some (block, rest)) :
    rest.length < text.length := by
  induction text generalizing block with
  | nil => cases found
  | cons first text later =>
    cases text with
    | nil => cases found
    | cons second text =>
      rw [nextBlock] at found
      split at found
      case isTrue =>
        cases found
        exact Nat.lt_succ_of_lt (Nat.lt_succ_self _)
      case isFalse =>
        rcases Option.map_eq_some_iff.mp found with ⟨inner, isInner, same⟩
        cases same
        exact Nat.lt_succ_of_lt (later isInner)

variable (stop) (step : State → List Letter → State)

/-- Every whole block is handed on; what is left waits. -/
def drain (state : State) (text : List Letter) : State × List Letter :=
  match _found : nextBlock stop text with
  | some (block, rest) => drain (step state block) rest
  | none => (state, text)
termination_by text.length
decreasing_by exact nextBlock_shorter _found

def feed (state : State × List Letter) (chunk : List Letter) : State × List Letter :=
  drain stop step state.1 (state.2 ++ chunk)

variable {stop step} {state : State}

theorem drain_found (found : nextBlock stop text = some (block, rest)) :
    drain stop step state text = drain stop step (step state block) rest := by
  rw [drain]
  split
  · rename_i same
    rw [found] at same
    cases same
    rfl
  · rename_i none
    rw [found] at none
    cases none

theorem drain_none (none : nextBlock stop text = none) :
    drain stop step state text = (state, text) := by
  rw [drain]
  split
  · rename_i found
    rw [none] at found
    cases found
  · rfl

theorem drain_append (more : List Letter) : drain stop step state (text ++ more) =
      drain stop step (drain stop step state text).1 ((drain stop step state text).2 ++ more) := by
  induction size : text.length using Nat.strongRecOn generalizing text state with
  | ind size shorter =>
    cases found : nextBlock stop text with
    | none => rw [drain_none found]
    | some split =>
      rw [drain_found found, drain_found (nextBlock_append found more)]
      exact shorter _ (size ▸ nextBlock_shorter found) rfl

theorem feed_chunks (chunks : List (List Letter)) : chunks.foldl (feed stop step)
      (drain stop step state text) = drain stop step state (text ++ chunks.flatten) := by
  induction chunks generalizing text with
  | nil => rw [flatten_nil, append_nil, foldl_nil]
  | cons chunk chunks later =>
    rw [foldl_cons, feed, ← drain_append, later, flatten_cons, append_assoc]

/-- A block ends where its stop is doubled, whatever follows. -/
def IsBlock (stop : Letter) (block : List Letter) : Prop :=
  ∀ rest, nextBlock stop (block ++ stop :: stop :: rest) = some (block, rest)

theorem drain_blocks {blocks : List (List Letter)} (each : ∀ block ∈ blocks, IsBlock stop block) :
    drain stop step state (blocks.flatMap (· ++ [stop, stop])) = (blocks.foldl step state, []) := by
  induction blocks generalizing state with
  | nil => exact drain_none rfl
  | cons block blocks later =>
    rcases forall_mem_cons.mp each with ⟨here, others⟩
    rw [flatMap_cons, append_assoc, cons_append, cons_append, nil_append, drain_found (here _),
      later others, foldl_cons]

theorem nextBlock_cons {first : Letter} (other : first ≠ stop) : nextBlock stop (first :: text) =
      (nextBlock stop text).map fun found => (first :: found.1, found.2) := by
  cases text with
  | nil => rfl
  | cons second text => exact if_neg fun both => other both.1

theorem nextBlock_plain (plain : stop ∉ block) : nextBlock stop (block ++ text) =
      (nextBlock stop text).map fun found => (block ++ found.1, found.2) := by
  induction block with
  | nil => exact Option.map_id'.symm
  | cons first block later =>
    rcases not_or.mp (mem_cons.not.mp plain) with ⟨other, others⟩
    rw [cons_append, nextBlock_cons (Ne.symm other), later others, Option.map_map]
    rfl

theorem isBlock_lines {first second : List Letter} (plain : stop ∉ first)
    (clear : stop ∉ second) (nonempty : second ≠ []) :
    IsBlock stop (first ++ stop :: second) := by
  intro rest
  rcases exists_cons_of_ne_nil nonempty with ⟨letter, letters, rfl⟩
  have other : letter ≠ stop := fun same => clear (same ▸ mem_cons_self)
  have behind := @nextBlock_plain _ _ stop (stop :: stop :: rest) _ clear
  rw [append_assoc, nextBlock_plain plain, cons_append, cons_append, nextBlock,
    if_neg (fun both => other both.2), ← cons_append, behind, nextBlock, if_pos ⟨rfl, rfl⟩]
  simp

end McpAssistant.Foundations.EventBlocks
