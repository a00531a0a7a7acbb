import Mathlib.Data.List.Forall2
import Mathlib.Data.List.Infix

/-!
# Patterns of LIKE

`%` stands for any text, `_` for any letter, and a letter behind the escape
letter for itself.  Letters are compared one by one under the column's
collation.  A word in which the escape letter and the two wildcards are escaped
matches only itself, so between two `%` it matches the texts it occurs in.
-/

namespace McpAssistant.Foundations.LikePatterns

open List

structure Escape where
  letter : Char
  notAny : letter ≠ '%' := by decide
  notOne : letter ≠ '_' := by decide

def replaceLetter (letter : Char) (replacement text : List Char) : List Char :=
  text.flatMap fun other => if other = letter then replacement else [other]

/-- The escape letter first, then the wildcards. -/
def escapeLike (escape : Escape) (word : List Char) : List Char :=
  replaceLetter '_' [escape.letter, '_'] (replaceLetter '%' [escape.letter, '%']
      (replaceLetter escape.letter [escape.letter, escape.letter] word))

section Matching

variable (same : Char → Char → Bool) (escape : Escape)

def matchesFrom : Bool → List Char → List Char → Bool
  | _, [], text => text.isEmpty
  | true, letter :: pattern, text =>
      match text with
      | other :: text => same letter other && matchesFrom false pattern text
      | [] => false
  | false, letter :: pattern, text =>
      if letter = escape.letter then matchesFrom true pattern text
      else if letter = '%' then text.tails.any (matchesFrom false pattern)
      else
        match text with
        | other :: text =>
            (letter = '_' || same letter other) && matchesFrom false pattern text
        | [] => false

def likeMatches (pattern text : List Char) : Bool :=
  matchesFrom same escape false pattern text

def Occurs (word text : List Char) : Prop :=
  ∃ part, part <:+: text ∧ List.Forall₂ (fun letter other => same letter other = true) word part

end Matching

section Escaping

variable {escape : Escape}

theorem replaceLetter_cons (letter : Char) (replacement : List Char) (first : Char)
    (text : List Char) :
    replaceLetter letter replacement (first :: text) =
      (if first = letter then replacement else [first]) ++ replaceLetter letter replacement text :=
  rfl

/-- One letter after the other: it is escaped or stands for itself. -/
theorem escapeLike_cons (first : Char) (word : List Char) : escapeLike escape (first :: word) =
      (if first = escape.letter ∨ first = '%' ∨ first = '_' then [escape.letter, first]
        else [first]) ++ escapeLike escape word := by
  have notAny := escape.notAny
  have notOne := escape.notOne
  unfold escapeLike
  by_cases isEscape : first = escape.letter
  · subst isEscape
    simp [replaceLetter_cons, notAny, notOne]
  · by_cases isAny : first = '%'
    · subst isAny
      simp [replaceLetter_cons, isEscape, notOne]
    · by_cases isOne : first = '_'
      · subst isOne
        simp [replaceLetter_cons, isEscape]
      · simp [replaceLetter_cons, isEscape, isAny, isOne]

end Escaping

section Literal

variable {same : Char → Char → Bool} {escape : Escape}

theorem likeMatches_any (pattern text : List Char) : likeMatches same escape ('%' :: pattern) text =
      text.tails.any (likeMatches same escape pattern) := by
  show (if '%' = escape.letter then _ else if '%' = '%' then _ else _) = _
  rw [if_neg (Ne.symm escape.notAny), if_pos rfl]
  rfl

theorem likeMatches_end (text : List Char) : likeMatches same escape ['%'] text = true := by
  rw [likeMatches_any, any_eq_true]
  exact ⟨[], (mem_tails _ _).mpr (nil_suffix), rfl⟩

theorem likeMatches_escape (letter : Char) (pattern text : List Char) :
    likeMatches same escape (escape.letter :: letter :: pattern) text =
      match text with
      | other :: text => same letter other && likeMatches same escape pattern text
      | [] => false := by
  show (if escape.letter = escape.letter then _ else _) = _
  rw [if_pos rfl]
  rfl

theorem likeMatches_letter {letter : Char}
    (plain : ¬ (letter = escape.letter ∨ letter = '%' ∨ letter = '_'))
    (pattern text : List Char) :
    likeMatches same escape (letter :: pattern) text =
      match text with
      | other :: text => same letter other && likeMatches same escape pattern text
      | [] => false := by
  have notOne : decide (letter = '_') = false :=
    decide_eq_false fun isOne => plain (.inr (.inr isOne))
  show (if letter = escape.letter then _ else if letter = '%' then _ else _) = _
  rw [if_neg (fun isEscape => plain (.inl isEscape)),
    if_neg (fun isAny => plain (.inr (.inl isAny))), notOne]
  rfl

theorem likeMatches_escaped {word rest text : List Char} :
    likeMatches same escape (escapeLike escape word ++ rest) text = true ↔
      ∃ part tail, text = part ++ tail ∧
        List.Forall₂ (fun letter other => same letter other = true) word part ∧
          likeMatches same escape rest tail = true := by
  induction word generalizing text with
  | nil =>
      constructor
      · intro found
        exact ⟨[], text, rfl, List.Forall₂.nil, found⟩
      · rintro ⟨part, tail, rfl, reads, found⟩
        rw [List.forall₂_nil_left_iff.mp reads]
        exact found
  | cons first word step =>
      have reads : likeMatches same escape (escapeLike escape (first :: word) ++ rest) text =
          match text with
          | other :: text =>
              same first other && likeMatches same escape (escapeLike escape word ++ rest) text
          | [] => false := by
        rw [escapeLike_cons]
        split
        · exact likeMatches_escape first (escapeLike escape word ++ rest) text
        · next plain => exact likeMatches_letter plain (escapeLike escape word ++ rest) text
      rw [reads]
      rcases text with _ | ⟨other, text⟩
      · constructor
        · intro found
          cases found
        · rintro ⟨part, tail, isText, spelled, _⟩
          rcases List.forall₂_cons_left_iff.mp spelled with ⟨letter, more, _, _, rfl⟩
          cases isText
      · dsimp only
        rw [Bool.and_eq_true, step]
        constructor
        · rintro ⟨here, part, tail, rfl, spelled, found⟩
          exact ⟨other :: part, tail, rfl, List.Forall₂.cons here spelled, found⟩
        · rintro ⟨part, tail, isText, spelled, found⟩
          rcases List.forall₂_cons_left_iff.mp spelled with ⟨letter, more, here, rests, rfl⟩
          rcases List.cons.inj isText with ⟨rfl, rfl⟩
          exact ⟨here, more, tail, rfl, rests, found⟩

theorem likeMatches_occurs (word text : List Char) :
    likeMatches same escape ('%' :: (escapeLike escape word ++ ['%'])) text = true ↔
      Occurs same word text := by
  rw [likeMatches_any, any_eq_true]
  constructor
  · rintro ⟨back, isBack, found⟩
    rcases likeMatches_escaped.mp found with ⟨part, tail, rfl, spelled, _⟩
    refine ⟨part, ?_, spelled⟩
    exact (prefix_append part tail).isInfix.trans ((mem_tails _ _).mp isBack).isInfix
  · rintro ⟨part, ⟨front, tail, rfl⟩, spelled⟩
    refine ⟨part ++ tail, (mem_tails _ _).mpr ⟨front, (append_assoc ..).symm⟩, ?_⟩
    apply likeMatches_escaped.mpr
    exact ⟨part, tail, rfl, spelled, likeMatches_end tail⟩

end Literal

end McpAssistant.Foundations.LikePatterns
