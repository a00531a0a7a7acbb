import Mathlib.Data.List.Sort

/-!
# Joined texts

Words joined by a separator are read back from the joined text when a mark of
the separator occurs in none of them.  The last word may be any text when the
number of words is known.
-/

namespace McpAssistant.Foundations.JoinedText

open List

def joinWith (separator : String) : List String → String
  | [] => ""
  | [word] => word
  | word :: next :: words => word ++ separator ++ joinWith separator (next :: words)

/-- What stands before the first mark is determined, and so is what follows. -/
theorem append_mark_inj {mark : Char} {first second rest other : List Char}
    (same : first ++ mark :: rest = second ++ mark :: other)
    (clear : mark ∉ first) (clear' : mark ∉ second) :
    first = second ∧ rest = other := by
  induction first generalizing second with
  | nil =>
    cases second with
    | nil => exact ⟨rfl, (List.cons.inj same).2⟩
    | cons letter letters =>
      apply absurd mem_cons_self
      rwa [← (List.cons.inj same).1] at clear'
  | cons letter letters ih =>
    cases second with
    | nil =>
      apply absurd mem_cons_self
      rwa [(List.cons.inj same).1] at clear
    | cons head tail =>
      rcases List.cons.inj same with ⟨sameHead, sameTail⟩
      rcases ih sameTail (fun inside => clear (mem_cons_of_mem _ inside))
        (fun inside => clear' (mem_cons_of_mem _ inside)) with ⟨tails, rests⟩
      exact ⟨by rw [sameHead, tails], rests⟩

structure Marked (separator : String) (mark : Char) : Prop where
  split : ∃ before after, separator.toList = before ++ mark :: after ∧ mark ∉ before

def Clear (mark : Char) (word : String) : Prop :=
  mark ∉ word.toList

instance (mark : Char) (word : String) : Decidable (Clear mark word) :=
  inferInstanceAs (Decidable (mark ∉ word.toList))

section Separated

variable {separator : String} {mark : Char} {first : String} {second : String}

theorem word_append_inj (marked : Marked separator mark)
    {rest other : String} (clear : Clear mark first) (clear' : Clear mark second)
    (same : first ++ separator ++ rest = second ++ separator ++ other) :
    first = second ∧ rest = other := by
  rcases marked.split with ⟨before, after, letters, clean⟩
  have same := congrArg String.toList same
  simp only [String.toList_append, letters, append_assoc, cons_append] at same
  rw [← append_assoc, ← append_assoc second.toList] at same
  rcases append_mark_inj same (by simp [clean, show mark ∉ first.toList from clear])
    (by simp [clean, show mark ∉ second.toList from clear']) with ⟨heads, tails⟩
  exact ⟨String.toList_inj.mp (append_cancel_right heads),
    String.toList_inj.mp (append_cancel_left tails)⟩

theorem clear_ne_append (marked : Marked separator mark) {word rest : String}
    (clear : Clear mark word) : word ≠ first ++ separator ++ rest := by
  rcases marked.split with ⟨before, after, letters, -⟩
  rintro rfl
  apply clear
  simp [letters]

variable {words others : List String}

/-- Lists with a word, in none of which the mark occurs, join to different texts. -/
theorem joinWith_cons_inj (marked : Marked separator mark)
    (clear : ∀ word ∈ first :: words, Clear mark word)
    (clear' : ∀ word ∈ second :: others, Clear mark word)
    (same : joinWith separator (first :: words) = joinWith separator (second :: others)) :
    first :: words = second :: others := by
  induction words generalizing first second others with
  | nil =>
    cases others with
    | nil => rw [show first = second from same]
    | cons next others =>
      exact absurd same (clear_ne_append marked (clear _ mem_cons_self))
  | cons next words ih =>
    cases others with
    | nil =>
      exact absurd same.symm (clear_ne_append marked (clear' _ mem_cons_self))
    | cons after others =>
      rcases word_append_inj marked (clear _ mem_cons_self)
        (clear' _ mem_cons_self) same with ⟨heads, tails⟩
      rw [heads, ih (fun word inside => clear word (mem_cons_of_mem _ inside))
        (fun word inside => clear' word (mem_cons_of_mem _ inside)) tails]

theorem joinWith_ne_empty {word : String} (nonempty : word ≠ "") :
    joinWith separator (word :: words) ≠ "" := by
  cases words with
  | nil => exact nonempty
  | cons next words =>
    intro isEmpty
    apply nonempty
    have letters : (word ++ separator ++ joinWith separator (next :: words)).toList = [] :=
      congrArg String.toList isEmpty
    rw [String.toList_append, String.toList_append, append_eq_nil_iff, append_eq_nil_iff] at letters
    exact String.toList_inj.mp letters.1.1

/-- Lists of nonempty words in which the mark does not occur join to different
texts. -/
theorem joinWith_inj (marked : Marked separator mark)
    (clear : ∀ word ∈ words, word ≠ "" ∧ Clear mark word)
    (clear' : ∀ word ∈ others, word ≠ "" ∧ Clear mark word)
    (same : joinWith separator words = joinWith separator others) : words = others := by
  cases words with
  | nil =>
    cases others with
    | nil => rfl
    | cons word others =>
      exact absurd same.symm (joinWith_ne_empty (clear' _ mem_cons_self).1)
  | cons word words =>
    cases others with
    | nil => exact absurd same (joinWith_ne_empty (clear _ mem_cons_self).1)
    | cons other others =>
      exact joinWith_cons_inj marked (fun word inside => (clear word inside).2)
        (fun word inside => (clear' word inside).2) same

/-- The words before the last one are read back, whatever the last one is. -/
theorem joinWith_append_inj (marked : Marked separator mark)
    {last final : String} (long : words.length = others.length)
    (clear : ∀ word ∈ words, Clear mark word) (clear' : ∀ word ∈ others, Clear mark word)
    (same : joinWith separator (words ++ [last]) = joinWith separator (others ++ [final])) :
    words = others ∧ last = final := by
  have joined : ∀ (word : String) (words : List String) (last : String),
      joinWith separator (word :: words ++ [last]) =
        word ++ separator ++ joinWith separator (words ++ [last]) := by
    intro word words last
    cases words <;> rfl
  induction words generalizing others with
  | nil =>
    cases others with
    | nil => exact ⟨rfl, same⟩
    | cons => cases long
  | cons word words ih =>
    cases others with
    | nil => cases long
    | cons other others =>
      rw [joined, joined] at same
      rcases word_append_inj marked (clear _ mem_cons_self)
        (clear' _ mem_cons_self) same with ⟨heads, tails⟩
      rcases ih (Nat.succ.inj long) (fun word inside => clear word (mem_cons_of_mem _ inside))
        (fun word inside => clear' word (mem_cons_of_mem _ inside)) tails with
        ⟨bodies, lasts⟩
      exact ⟨by rw [heads, bodies], lasts⟩

theorem clear_append {other : Char} :
    Clear other (first ++ second) ↔ Clear other first ∧ Clear other second := by
  unfold Clear
  rw [String.toList_append, mem_append, not_or]

/-- A joined text has no mark that neither its words nor the separator have. -/
theorem clear_joinWith {other : Char}
    (between : Clear other separator) (clear : ∀ word ∈ words, Clear other word) :
    Clear other (joinWith separator words) := by
  induction words with
  | nil => exact not_mem_nil
  | cons word words ih =>
    rw [forall_mem_cons] at clear
    cases words with
    | nil => exact clear.1
    | cons next words =>
      exact clear_append.mpr ⟨clear_append.mpr ⟨clear.1, between⟩, ih clear.2⟩

end Separated

def sorted (words : List String) : List String :=
  words.insertionSort (· ≤ ·)

theorem mem_sorted {words : List String} {word : String} : word ∈ sorted words ↔ word ∈ words :=
  mem_insertionSort (· ≤ ·)

theorem perm_of_sorted_eq {words others : List String} (same : sorted words = sorted others) :
    words.Perm others := by
  have left : (sorted words).Perm words := perm_insertionSort (· ≤ ·) words
  have right : (sorted others).Perm others := perm_insertionSort (· ≤ ·) others
  rw [same] at left
  exact left.symm.trans right

end McpAssistant.Foundations.JoinedText
