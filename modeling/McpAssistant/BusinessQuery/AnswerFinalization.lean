import McpAssistant.Foundations.PrintedValues

/-!
# The text of an answer

The sentence that says which sets an answer was restricted to comes first.  What is left of
the room takes the answer itself, cut between two words.
-/

namespace McpAssistant.BusinessQuery.AnswerFinalization

open Foundations.PrintedValues (isSpace)
open List

abbrev Text := List Char

def isBoundary (letter : Char) : Bool :=
  [' ', '\n', '\t'].contains letter

def truncateAtWordBoundary (text : Text) (limit : Nat) : Text :=
  if text.length ≤ limit then text
  else if limit = 0 then []
  else
    let truncated := text.take limit
    -- The letters before the last boundary, the last of them first.
    match (truncated.reverse.dropWhile fun letter => !isBoundary letter).tail with
    | [] => truncated
    | before => (before.dropWhile isSpace).reverse

def blankLine : Text := ['\n', '\n']

/-- A text without the context it starts with. -/
def bodyOf (context text : Text) : Text :=
  if (context ++ blankLine).isPrefixOf text then text.drop (context.length + 2)
  else if text = context then []
  else text

def attached (context body : Text) : Text :=
  if body = [] then context else context ++ blankLine ++ body

def boundedText (context text : Text) (maxAnswerChars : Nat) : Text :=
  if context ≠ [] then
    let available := maxAnswerChars - (context.length + 2)
    attached context (if available = 0 then [] else
      truncateAtWordBoundary (bodyOf context text) available)
  else truncateAtWordBoundary text maxAnswerChars

structure Presented (Facts Shown : Type) where
  facts : Facts
  presentation : Option Shown

structure Answered (Facts Shown : Type) extends Presented Facts Shown where
  answerText : Text
  companionAnswered : List (Presented Facts Shown)

section Finalizing

-- The receipt that is built, unless that fails.
variable {Facts Shown : Type} (build : Facts → Option Text → Option Shown)

def presentResult (scope : Option Text) (presented : Presented Facts Shown) :
    Presented Facts Shown :=
  { presented with presentation := (build presented.facts scope).or presented.presentation }

def presentCompanion (companion : Presented Facts Shown) : Presented Facts Shown :=
  if companion.presentation.isSome then companion else presentResult build none companion

/-- The context is the one of the answer's plan. -/
def finalizeAnswerText (context : Text) (answered : Answered Facts Shown) (text : Text)
    (maxAnswerChars : Nat) : Answered Facts Shown where
  toPresented := presentResult build (if context = [] then none else some context)
    answered.toPresented
  answerText := boundedText context text maxAnswerChars
  companionAnswered := answered.companionAnswered.map (presentCompanion build)

end Finalizing

variable {context text body : Text} {limit : Nat}

theorem truncate_of_fits (fits : text.length ≤ limit) : truncateAtWordBoundary text limit = text :=
  if_pos fits

theorem length_truncate_le (text : Text) (limit : Nat) :
    (truncateAtWordBoundary text limit).length ≤ limit := by
  unfold truncateAtWordBoundary
  split
  case isTrue fits => exact fits
  case isFalse =>
    split
    case isTrue => exact Nat.zero_le limit
    case isFalse =>
      have short : (text.take limit).length ≤ limit := length_take_le limit text
      dsimp only
      split
      case h_1 => exact short
      case h_2 =>
        rw [length_reverse]
        refine (dropWhile_sublist _).length_le.trans ?_
        refine ((tail_sublist _).trans (dropWhile_sublist _)).length_le.trans ?_
        rw [length_reverse]
        exact short

theorem bodyOf_attached (context body : Text) : bodyOf context (attached context body) = body := by
  unfold attached bodyOf
  split
  case isTrue empty =>
    rw [if_neg, if_pos rfl, empty]
    intro starts
    have shorter : context ++ blankLine <+: context := isPrefixOf_iff_prefix.mp starts
    have longer := shorter.length_le
    rw [length_append] at longer
    exact absurd longer (Nat.not_le.mpr (Nat.lt_add_of_pos_right Nat.two_pos))
  case isFalse =>
    have starts : context ++ blankLine <+: context ++ blankLine ++ body := prefix_append _ _
    rw [if_pos <| isPrefixOf_iff_prefix.mpr starts]
    exact drop_left' length_append

/-- Behind a context stands a body that the room left by the context holds. -/
theorem boundedText_attached (nonempty : context ≠ []) (text : Text) (limit : Nat) :
    ∃ body : Text, boundedText context text limit = attached context body ∧
      body.length ≤ limit - (context.length + 2) := by
  rw [boundedText, if_pos nonempty]
  refine ⟨_, rfl, ?_⟩
  split
  · exact Nat.zero_le _
  · exact length_truncate_le _ _

theorem boundedText_of_fits (nonempty : context ≠ [])
    (fits : (bodyOf context text).length ≤ limit - (context.length + 2)) :
    boundedText context text limit = attached context (bodyOf context text) := by
  rw [boundedText, if_pos nonempty]
  dsimp only
  split
  case isTrue none =>
    rw [none] at fits
    rw [length_eq_zero_iff.mp (Nat.le_zero.mp fits)]
  case isFalse => rw [truncate_of_fits fits]

theorem boundedText_again (context text : Text) (limit : Nat) :
    boundedText context (boundedText context text limit) limit = boundedText context text limit := by
  rcases eq_or_ne context [] with rfl | nonempty
  · exact truncate_of_fits (length_truncate_le text limit)
  · rcases boundedText_attached nonempty text limit with ⟨body, same, fits⟩
    rw [same, boundedText_of_fits nonempty, bodyOf_attached]
    rwa [bodyOf_attached]

theorem length_boundedText_le (room : context.length ≤ limit) :
    (boundedText context text limit).length ≤ limit := by
  rcases eq_or_ne context [] with rfl | nonempty
  · exact length_truncate_le text limit
  · rcases boundedText_attached nonempty text limit with ⟨body, same, fits⟩
    rw [same, attached]
    split
    case isTrue => exact room
    case isFalse some =>
      have letters := length_pos_iff.mpr some
      rw [length_append, length_append]
      show context.length + 2 + body.length ≤ limit
      omega

theorem context_isPrefix (context text : Text) (limit : Nat) :
    context <+: boundedText context text limit := by
  rcases eq_or_ne context [] with rfl | nonempty
  · exact nil_prefix
  · rcases boundedText_attached nonempty text limit with ⟨body, same, _⟩
    rw [same, attached]
    split
    case isTrue => exact prefix_refl context
    case isFalse =>
      rw [append_assoc]
      exact prefix_append _ _

variable {Facts Shown : Type} {build : Facts → Option Text → Option Shown}

theorem presentResult_again (scope : Option Text) (presented : Presented Facts Shown) :
    presentResult build scope (presentResult build scope presented) =
      presentResult build scope presented := by
  unfold presentResult
  cases build presented.facts scope <;> rfl

theorem presentCompanion_again (companion : Presented Facts Shown) :
    presentCompanion build (presentCompanion build companion) =
      presentCompanion build companion := by
  by_cases shown : companion.presentation.isSome
  · have kept : presentCompanion build companion = companion := if_pos shown
    rw [kept, kept]
  · have made : presentCompanion build companion = presentResult build none companion :=
      if_neg shown
    rw [made]
    unfold presentCompanion
    split
    · rfl
    · exact presentResult_again none companion

/-- An answer is within the bound that holds its context, keeps the context and what fits with
it, and is not changed again. -/
theorem finalizeAnswerText_stable (build : Facts → Option Text → Option Shown)
    (context : Text) (answered : Answered Facts Shown) (text : Text) (maxAnswerChars : Nat) :
    let finalized := finalizeAnswerText build context answered text maxAnswerChars
    (context.length ≤ maxAnswerChars → finalized.answerText.length ≤ maxAnswerChars) ∧
    context <+: finalized.answerText ∧
    ((context = [] → text.length ≤ maxAnswerChars → finalized.answerText = text) ∧
      (context ≠ [] → (attached context (bodyOf context text)).length ≤ maxAnswerChars →
        finalized.answerText = attached context (bodyOf context text))) ∧
    finalizeAnswerText build context finalized finalized.answerText maxAnswerChars =
      finalized := by
  intro finalized
  refine ⟨length_boundedText_le, context_isPrefix context text _, ⟨?_, ?_⟩, ?_⟩
  · rintro rfl fits
    exact truncate_of_fits fits
  · intro nonempty fits
    show boundedText context text maxAnswerChars = _
    rcases eq_or_ne (bodyOf context text) [] with empty | some
    · apply boundedText_of_fits nonempty
      rw [empty]
      exact Nat.zero_le _
    · rw [attached, if_neg some, length_append, length_append] at fits
      have room : context.length + 2 + (bodyOf context text).length ≤ maxAnswerChars := fits
      exact boundedText_of_fits nonempty (by omega)
  · have companions : (answered.companionAnswered.map (presentCompanion build)).map
        (presentCompanion build) = answered.companionAnswered.map (presentCompanion build) := by
      rw [map_map]
      exact map_congr_left fun companion _ => presentCompanion_again companion
    dsimp only [finalized, finalizeAnswerText]
    rw [presentResult_again, boundedText_again, companions]

/-- A longer context is returned whole. -/
theorem longContext_exceeds : ¬(finalizeAnswerText (fun _ _ => (none : Option Unit)) "Own".toList
    ⟨⟨(), none⟩, [], []⟩ [] 2).answerText.length ≤ 2 := by
  decide

end McpAssistant.BusinessQuery.AnswerFinalization
