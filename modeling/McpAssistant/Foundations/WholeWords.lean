import McpAssistant.Foundations.Rewriting
import Mathlib.Data.List.Sort

/-!
# Replacing whole words

A list of words is replaced in a text wherever one of them stands with no word
letter before it and none behind it, the first candidate first.  Where a text is
cut, the pieces can be rewritten on their own as long as the cut is quiet: no
listed word lies across it, and none ends or starts at it next to a word letter
on the other side.
-/

namespace McpAssistant.Foundations.WholeWords

open Rewriting List

variable {Letter : Type}

/--
Words to look for, with the candidates at the start of a text in the order in
which they are tried.  What follows a text matters only to a candidate that goes
on into it.
-/
structure WordList (Letter : Type) where
  Listed : List Letter → Prop
  candidates : List Letter → List (Nat × List Letter)
  nonempty : ¬ Listed []
  spelled : ∀ text found, found ∈ candidates text →
    found.1 ≤ text.length ∧ Listed (text.take found.1)
  behind : ∀ text rest, (∀ more, more ≠ [] → more <+: rest → ¬ Listed (text ++ more)) →
      candidates (text ++ rest) = candidates text

section Words

variable (isWord : Letter → Bool) (words : WordList Letter)

/-- `(?<!\w)(?:...)(?!\w)`. -/
def wholeWord : Recognizer Letter (List Letter) :=
  fun before text =>
    if before.any isWord then none
    else
      ((words.candidates text).find? fun found => !(text[found.1]?).any isWord).map
        fun found => (found.1 - 1, found.2)

def replaceWords (text : List Letter) : List Letter :=
  textOf id (rewrite (wholeWord isWord words) none 0 text)

/-- A cut at which no listed word is missed, made or lost. -/
structure Quiet (left right : List Letter) : Prop where
  across : ∀ start tail, start ≠ [] → tail ≠ [] → start <:+ left → tail <+: right →
    ¬ words.Listed (start ++ tail)
  ending : right.head?.any isWord → ∀ word, word <:+ left → ¬ words.Listed word
  starting : left.getLast?.any isWord → ∀ word, word <+: right → ¬ words.Listed word

end Words

section Words

variable {isWord : Letter → Bool} {words : WordList Letter} {left right front more : List Letter}

theorem Quiet.of_left (quiet : Quiet isWord words (front ++ left) right) :
    Quiet isWord words left right := by
  have widen : ∀ word : List Letter, word <:+ left → word <:+ front ++ left := by
    intro word isSuffix
    exact isSuffix.trans (suffix_append front left)
  constructor
  · intro start tail hasStart hasTail isEnd
    exact quiet.across start tail hasStart hasTail (widen start isEnd)
  · intro next word isEnd
    exact quiet.ending next word (widen word isEnd)
  · intro last
    apply quiet.starting
    rw [List.getLast?_append]
    rcases found : left.getLast? with _ | letter
    · rw [found] at last
      cases last
    · rw [found] at last
      exact last

theorem Quiet.of_right (quiet : Quiet isWord words left (right ++ more)) :
    Quiet isWord words left right := by
  have widen : ∀ word : List Letter, word <+: right → word <+: right ++ more := by
    intro word isPrefix
    exact isPrefix.trans (prefix_append right more)
  constructor
  · intro start tail hasStart hasTail isEnd isStart
    exact quiet.across start tail hasStart hasTail isEnd (widen tail isStart)
  · intro next
    apply quiet.ending
    cases right with
    | nil => cases next
    | cons letter right => exact next
  · intro last word isStart
    exact quiet.starting last word (widen word isStart)

variable {letter : Letter}

theorem quiet_behind (notWord : isWord letter = false)
    (unlisted : ∀ word, words.Listed word → letter ∉ word) :
    Quiet isWord words (front ++ [letter]) right := by
  have holds : ∀ word : List Letter, word ≠ [] → word <:+ front ++ [letter] → letter ∈ word := by
    intro word nonempty isEnd
    rcases List.suffix_concat_iff.mp isEnd with rfl | ⟨rest, same, _⟩
    · exact absurd rfl nonempty
    · rw [same]
      exact mem_append_right _ mem_cons_self
  constructor
  · intro start tail hasStart _ isEnd _ listed
    exact unlisted _ listed (mem_append_left _ (holds start hasStart isEnd))
  · intro _ word isEnd listed
    by_cases empty : word = []
    · exact words.nonempty (empty ▸ listed)
    · exact unlisted word listed (holds word empty isEnd)
  · intro last
    rw [List.getLast?_concat] at last
    exact absurd (notWord.symm.trans last) Bool.false_ne_true

theorem find?_whole {text rest : List Letter} (keeps : ∀ found ∈ words.candidates text,
      found.1 = text.length → rest.head?.any isWord = false) :
    ((words.candidates text).find? fun found => !((text ++ rest)[found.1]?).any isWord) =
      (words.candidates text).find? fun found => !(text[found.1]?).any isWord := by
  rw [← List.head?_filter, ← List.head?_filter]
  apply congrArg
  apply filter_congr
  intro found member
  rcases (words.spelled text found member).1.lt_or_eq with shorter | whole
  · rw [List.getElem?_append_left shorter]
  · have next := keeps found member whole
    rw [whole, List.getElem?_append_right (Nat.le_refl _), Nat.sub_self,
      ← List.head?_eq_getElem?, next, List.getElem?_eq_none (Nat.le_refl _)]
    rfl

variable {before : Option Letter}

/-- A quiet cut leaves what is found before it as it is. -/
theorem wholeWord_append {back : List Letter}
    (quiet : Quiet isWord words left right) (isBack : back <:+ left)
    (nonempty : back ≠ []) :
    wholeWord isWord words before (back ++ right) = wholeWord isWord words before back := by
  unfold wholeWord
  split
  · rfl
  · rw [words.behind back right, find?_whole]
    · intro found member whole
      apply Bool.eq_false_iff.mpr
      intro next
      apply quiet.ending next back isBack
      have listed := (words.spelled back found member).2
      rw [whole, take_length] at listed
      exact listed
    · intro more hasMore isStart
      exact quiet.across back more nonempty hasMore isBack isStart

theorem wholeWord_lt {text : List Letter} {more : Nat} {token : List Letter}
    (found : wholeWord isWord words before text = some (more, token)) :
    more < text.length ∧ words.Listed (text.take (more + 1)) := by
  unfold wholeWord at found
  split at found
  · cases found
  · rcases Option.map_eq_some_iff.mp found with ⟨candidate, isFound, same⟩
    have spelled := words.spelled text candidate (mem_of_find?_eq_some isFound)
    have isMore := (Prod.mk.inj same).1
    rcases length : candidate.1 with _ | count
    · rw [length] at spelled
      exact absurd spelled.2 words.nonempty
    · rw [length] at spelled isMore
      rw [Nat.add_sub_cancel] at isMore
      subst isMore
      exact spelled

/-- The letter before a quiet cut does not keep anything behind it from being
found. -/
theorem wholeWord_before (quiet : Quiet isWord words left right) :
    wholeWord isWord words left.getLast? right = wholeWord isWord words none right := by
  rcases last : left.getLast?.any isWord with _ | _
  · unfold wholeWord
    rw [last]
    rfl
  · rcases found : wholeWord isWord words none right with _ | ⟨more, token⟩
    · unfold wholeWord
      rw [if_pos last]
    · exfalso
      apply quiet.starting last (right.take (more + 1)) (List.take_prefix _ _)
      exact (wholeWord_lt found).2

/-- Both sides of a quiet cut can be rewritten on their own. -/
theorem replaceWords_append (quiet : Quiet isWord words left right) :
    replaceWords isWord words (left ++ right) =
      replaceWords isWord words left ++ replaceWords isWord words right := by
  unfold replaceWords
  rw [rewrite_append (Nat.zero_le _), textOf_append]
  · rw [Option.or_none, rewrite_before (wholeWord_before quiet)]
  · intro front back split nonempty
    have isBack : back <:+ left := ⟨front, split.symm⟩
    refine ⟨wholeWord_append quiet isBack nonempty, ?_⟩
    intro more token found
    exact (wholeWord_lt found).1

theorem quiet_before (notWord : isWord letter = false)
    (unlisted : ∀ word, words.Listed word → letter ∉ word) :
    Quiet isWord words left (letter :: right) := by
  have holds : ∀ word : List Letter, word ≠ [] → word <+: letter :: right → letter ∈ word := by
    intro word nonempty isStart
    rcases List.prefix_cons_iff.mp isStart with rfl | ⟨rest, same, _⟩
    · exact absurd rfl nonempty
    · rw [same]
      exact mem_cons_self
  constructor
  · intro start tail _ hasTail _ isStart listed
    exact unlisted _ listed (mem_append_right _ (holds tail hasTail isStart))
  · intro next
    exact absurd (notWord.symm.trans next) Bool.false_ne_true
  · intro _ word isStart listed
    by_cases empty : word = []
    · exact words.nonempty (empty ▸ listed)
    · exact unlisted word listed (holds word empty isStart)

/-- Nothing stands before the start of a text. -/
theorem quiet_start : Quiet isWord words [] right := by
  constructor
  · intro start tail hasStart _ isEnd
    exact absurd (List.suffix_nil.mp isEnd) hasStart
  · intro _ word isEnd listed
    exact words.nonempty (List.suffix_nil.mp isEnd ▸ listed)
  · intro last
    cases last

theorem replaceWords_letter (unlisted : ∀ word, words.Listed word → letter ∉ word) :
    replaceWords isWord words [letter] = [letter] := by
  have nothing : wholeWord isWord words none [letter] = none := by
    by_contra found
    rcases Option.ne_none_iff_exists'.mp found with ⟨⟨more, token⟩, isFound⟩
    have listed := (wholeWord_lt isFound).2
    rw [take_succ_cons] at listed
    exact unlisted _ listed mem_cons_self
  unfold replaceWords
  rw [rewrite_kept nothing]
  rfl

end Words

section Pieces

/-- A stage of rewriting that treats the pieces of a text, and every run of them, on
their own. -/
def Additive (stage : List Letter → List Letter) (pieces : List (List Letter)) : Prop :=
  ∀ front first second back, pieces = front ++ (first ++ (second ++ back)) →
    stage (first.flatten ++ second.flatten) = stage first.flatten ++ stage second.flatten

variable {isWord : Letter → Bool} {words : WordList Letter}
  {stage : List Letter → List Letter} {pieces : List (List Letter)}
  (additive : Additive stage pieces)
include additive

theorem Additive.nil : stage [] = [] := by
  have twice := additive pieces [] [] [] (by simp)
  exact List.append_right_eq_self.mp twice.symm

theorem Additive.flatMap : stage pieces.flatten = pieces.flatMap stage := by
  suffices parts : ∀ front back, pieces = front ++ back →
      stage back.flatten = back.flatMap stage from parts [] pieces rfl
  intro front back split
  induction back generalizing front with
  | nil => exact additive.nil
  | cons piece back rest =>
    have first := additive front [piece] back [] (by simpa using split)
    rw [flatten_singleton] at first
    rw [flatten_cons, first, rest (front ++ [piece]) (by simpa using split), flatMap_cons]

theorem Additive.replaceWords
    (quiet : ∀ front back, pieces = front ++ back → front ≠ [] → back ≠ [] →
      Quiet isWord words (stage front.flatten) (stage back.flatten)) :
    Additive (fun text => replaceWords isWord words (stage text)) pieces := by
  intro front first second back split
  have empty : WholeWords.replaceWords isWord words (stage []) = [] := by
    rw [additive.nil]
    rfl
  by_cases noFirst : first = []
  · rw [noFirst, flatten_nil]
    dsimp only
    rw [empty]
    rfl
  · by_cases noSecond : second = []
    · rw [noSecond, flatten_nil, append_nil]
      dsimp only
      rw [empty, append_nil]
    · have whole := quiet (front ++ first) (second ++ back) (by simpa using split)
        (append_ne_nil_of_right_ne_nil _ noFirst)
        (append_ne_nil_of_left_ne_nil noSecond _)
      rw [flatten_append, flatten_append, additive [] front first (second ++ back) split,
        additive (front ++ first) second back [] (by simpa using split)] at whole
      dsimp only
      rw [additive front first second back split]
      exact replaceWords_append whole.of_left.of_right

end Pieces

section Tables

variable [DecidableEq Letter]

/-- A table read as an alternation of its words, the longest first. -/
def tableWords (table : List (List Letter × List Letter))
    (nonempty : ∀ entry ∈ table, entry.1 ≠ []) : WordList Letter where
  Listed word := word ∈ table.map Prod.fst
  candidates text :=
    ((table.insertionSort fun first second => second.1.length ≤ first.1.length).filter
      fun entry => entry.1.isPrefixOf text).map fun entry => (entry.1.length, entry.2)
  nonempty := by
    intro listed
    rcases List.mem_map.mp listed with ⟨entry, member, isEmpty⟩
    exact nonempty entry member isEmpty
  spelled := by
    intro text found member
    rcases List.mem_map.mp member with ⟨entry, isEntry, rfl⟩
    rcases List.mem_filter.mp isEntry with ⟨sorted, starts⟩
    rcases List.isPrefixOf_iff_prefix.mp starts with ⟨rest, rfl⟩
    constructor
    · rw [length_append]
      exact Nat.le_add_right _ _
    · rw [take_left]
      exact mem_map_of_mem ((mem_insertionSort _).mp sorted)
  behind := by
    intro text rest unlisted
    apply congrArg
    apply filter_congr
    intro entry sorted
    have member := (mem_insertionSort _).mp sorted
    apply Bool.eq_iff_iff.mpr
    rw [List.isPrefixOf_iff_prefix, List.isPrefixOf_iff_prefix]
    constructor
    · rintro ⟨tail, whole⟩
      rcases List.append_eq_append_iff.mp whole with ⟨more, isText, _⟩ | ⟨more, isWord, isRest⟩
      · exact ⟨more, isText.symm⟩
      · by_cases empty : more = []
        · rw [empty, append_nil] at isWord
          exact isWord ▸ prefix_refl _
        · exfalso
          apply unlisted more empty ⟨tail, isRest.symm⟩
          exact isWord ▸ mem_map_of_mem member
    · intro starts
      exact starts.trans (prefix_append text rest)

end Tables

end McpAssistant.Foundations.WholeWords
