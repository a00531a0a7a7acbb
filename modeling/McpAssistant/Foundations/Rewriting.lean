
/-!
# Rewriting a text in one pass

A recognizer looks at the letter before a place and at the text from that place
on.  What it finds is put in the place of the letters it covers, and the pass
goes on behind them: a letter is looked at once, and what was put in is not
looked at again.

Two questions are answered for any recognizer.  When is a text rewritten the
same in two pieces as in one?  And where can a word stand in the rewritten
text: inside one part of it, or across the places where parts meet.
-/

namespace McpAssistant.Foundations.Rewriting

open List

variable {Letter Token : Type}

/-- What a recognizer finds, with how many letters it covers past the first. -/
abbrev Recognizer (Letter Token : Type) :=
  Option Letter → List Letter → Option (Nat × Token)

/-- The pieces of a text: the letters kept and what was found between them. -/
abbrev Pieces (Letter Token : Type) := List (Letter ⊕ Token)

/-- One pass, `skip` letters short of its next look. -/
def rewrite (find : Recognizer Letter Token) :
    Option Letter → Nat → List Letter → Pieces Letter Token
  | _, _, [] => []
  | _, skip + 1, letter :: text => rewrite find (some letter) skip text
  | before, 0, letter :: text =>
    match find before (letter :: text) with
    | some (more, token) => .inr token :: rewrite find (some letter) more text
    | none => .inl letter :: rewrite find (some letter) 0 text

/-- The text of some pieces, each finding shown as `shown` says. -/
def textOf (shown : Token → List Letter) (pieces : Pieces Letter Token) : List Letter :=
  pieces.flatMap (Sum.elim (fun letter => [letter]) shown)

section Texts

variable {shown : Token → List Letter} {pieces others : Pieces Letter Token}

@[simp]
theorem textOf_letter (letter : Letter) :
    textOf shown (.inl letter :: pieces) = letter :: textOf shown pieces :=
  rfl

@[simp]
theorem textOf_token (token : Token) :
    textOf shown (.inr token :: pieces) = shown token ++ textOf shown pieces :=
  rfl

@[simp]
theorem textOf_append :
    textOf shown (pieces ++ others) = textOf shown pieces ++ textOf shown others := by
  simp [textOf]

theorem textOf_letters (text : List Letter) : textOf shown (text.map .inl) = text := by
  induction text with
  | nil => rfl
  | cons letter text rest => exact congrArg (letter :: ·) rest

end Texts

section Passes

variable {find : Recognizer Letter Token}

@[simp]
theorem rewrite_nil (before : Option Letter) (skip : Nat) : rewrite find before skip [] = [] := by
  cases skip <;> rfl

theorem rewrite_skip (before : Option Letter) (skip : Nat) (letter : Letter) (text : List Letter) :
    rewrite find before (skip + 1) (letter :: text) = rewrite find (some letter) skip text :=
  rfl

variable {before : Option Letter} {text : List Letter}

theorem rewrite_found {letter : Letter} {more : Nat} {token : Token}
    (found : find before (letter :: text) = some (more, token)) :
    rewrite find before 0 (letter :: text) =
      .inr token :: rewrite find (some letter) more text := by
  simp only [rewrite, found]

theorem rewrite_kept {letter : Letter} (nothing : find before (letter :: text) = none) :
    rewrite find before 0 (letter :: text) = .inl letter :: rewrite find (some letter) 0 text := by
  simp only [rewrite, nothing]

/-- A text in which nothing is found stands as it is. -/
theorem rewrite_of_nothing (nothing : ∀ (earlier : Option Letter) (rest : List Letter),
      rest <:+ text → find earlier rest = none) :
    rewrite find before 0 text = text.map .inl := by
  induction text generalizing before with
  | nil => rfl
  | cons letter text rest =>
    rw [rewrite_kept (nothing before _ (suffix_refl _))]
    apply congrArg
    apply rest
    intro earlier tail isTail
    exact nothing earlier tail (isTail.trans (suffix_cons letter text))

/--
The two halves of a text are rewritten on their own when the second changes
nothing that is found in the first, and nothing found in the first reaches into
the second.
-/
theorem rewrite_append {left right : List Letter} {skip : Nat} (fits : skip ≤ left.length)
    (apart : ∀ front back : List Letter, left = front ++ back → back ≠ [] →
      find (front.getLast?.or before) (back ++ right) = find (front.getLast?.or before) back ∧
        ∀ more token, find (front.getLast?.or before) back = some (more, token) →
          more < back.length) :
    rewrite find before skip (left ++ right) = rewrite find before skip left ++
        rewrite find (left.getLast?.or before) 0 right := by
  induction left generalizing before skip with
  | nil =>
    have isZero : skip = 0 := Nat.le_zero.mp fits
    subst isZero
    rfl
  | cons letter left rest =>
    have lastOf : ∀ tail : List Letter,
        (letter :: tail).getLast?.or before = tail.getLast?.or (some letter) := by
      intro tail
      rw [List.getLast?_cons]
      cases tail.getLast? <;> rfl
    have inner : ∀ front back : List Letter, left = front ++ back → back ≠ [] →
        find (front.getLast?.or (some letter)) (back ++ right) =
            find (front.getLast?.or (some letter)) back ∧
          ∀ more token, find (front.getLast?.or (some letter)) back = some (more, token) →
              more < back.length := by
      intro front back split nonempty
      have here := apart (letter :: front) back (congrArg (letter :: ·) split) nonempty
      rw [lastOf] at here
      exact here
    rw [lastOf]
    cases skip with
    | succ skip =>
      exact rest (Nat.le_of_succ_le_succ fits) inner
    | zero =>
      have first := apart [] (letter :: left) rfl (cons_ne_nil _ _)
      have same : find before (letter :: (left ++ right)) = find before (letter :: left) := first.1
      have within := first.2
      rcases found : find before (letter :: left) with _ | ⟨more, token⟩
      · rw [cons_append, rewrite_kept (same.trans found), rewrite_kept found]
        exact congrArg (.inl letter :: ·) (rest (Nat.zero_le _) inner)
      · have short := within more token found
        rw [cons_append, rewrite_found (same.trans found), rewrite_found found]
        exact congrArg (.inr token :: ·) (rest (Nat.le_of_lt_succ short) inner)

/-- The letter before a text matters only to what is found at its very start. -/
theorem rewrite_before {before other : Option Letter} {text : List Letter}
    (same : find before text = find other text) :
    rewrite find before 0 text = rewrite find other 0 text := by
  cases text with
  | nil => rfl
  | cons letter text =>
    rcases found : find other (letter :: text) with _ | ⟨more, token⟩
    · rw [rewrite_kept (same.trans found), rewrite_kept found]
    · rw [rewrite_found (same.trans found), rewrite_found found]

end Passes

/-- A rewritten text: its first run of kept letters, and each finding with the
run after it. -/
structure Runs (Letter Token : Type) where
  first : List Letter
  later : List (Token × List Letter)

def runs : Pieces Letter Token → Runs Letter Token
  | [] => { first := [], later := [] }
  | .inl letter :: pieces =>
    { runs pieces with first := letter :: (runs pieces).first }
  | .inr token :: pieces =>
    { first := [], later := (token, (runs pieces).first) :: (runs pieces).later }

/-- All runs of kept letters. -/
def Runs.kept (parts : Runs Letter Token) : List (List Letter) :=
  parts.first :: parts.later.map Prod.snd

def Runs.found (parts : Runs Letter Token) : List Token :=
  parts.later.map Prod.fst

/-- The runs and the findings as shown, in the order of the text. -/
def Runs.parts (shown : Token → List Letter) (parts : Runs Letter Token) : List (List Letter) :=
  parts.first :: parts.later.flatMap fun part => [shown part.1, part.2]

theorem flatten_parts (shown : Token → List Letter) (pieces : Pieces Letter Token) :
    ((runs pieces).parts shown).flatten = textOf shown pieces := by
  induction pieces with
  | nil => rfl
  | cons piece pieces rest =>
    cases piece with
    | inl letter => exact congrArg (letter :: ·) rest
    | inr token => exact congrArg (shown token ++ ·) rest

variable {shown : Token → List Letter}

theorem mem_parts {parts : Runs Letter Token}
    {part : List Letter} (member : part ∈ parts.parts shown) :
    part ∈ parts.kept ∨ ∃ token ∈ parts.found, part = shown token := by
  rcases List.mem_cons.mp member with isFirst | later
  · exact .inl (isFirst ▸ mem_cons_self)
  · rcases List.mem_flatMap.mp later with ⟨entry, isEntry, inside⟩
    rcases List.mem_cons.mp inside with isShown | isRun
    · exact .inr ⟨entry.1, mem_map_of_mem isEntry, isShown⟩
    · rw [List.mem_singleton.mp isRun]
      exact .inl (mem_cons_of_mem _ (mem_map_of_mem isEntry))

theorem shown_mem_parts {parts : Runs Letter Token} {token : Token} (member : token ∈ parts.found) :
    shown token ∈ parts.parts shown := by
  rcases List.mem_map.mp member with ⟨entry, isEntry, rfl⟩
  exact mem_cons_of_mem _ (List.mem_flatMap.mpr ⟨entry, isEntry, mem_cons_self⟩)

section KeptLetters

variable {find : Recognizer Letter Token}

theorem first_isPrefix (before : Option Letter) (text : List Letter) :
    (runs (rewrite find before 0 text)).first <+: text := by
  induction text generalizing before with
  | nil => exact prefix_refl _
  | cons letter text rest =>
    rcases found : find before (letter :: text) with _ | ⟨more, token⟩
    · rw [rewrite_kept found]
      exact prefix_cons_inj letter |>.mpr (rest _)
    · rw [rewrite_found found]
      exact List.nil_prefix

theorem nothing_in_kept {before : Option Letter} {skip : Nat} {text run back : List Letter}
    (member : run ∈ (runs (rewrite find before skip text)).kept)
    (isBack : back <:+ run) (nonempty : back ≠ []) :
    ∃ (earlier : Option Letter) (rest : List Letter),
      back <+: rest ∧ rest <:+ text ∧ find earlier rest = none := by
  induction text generalizing before skip run with
  | nil =>
    rw [rewrite_nil] at member
    rw [List.mem_singleton.mp member] at isBack
    exact absurd (List.suffix_nil.mp isBack) nonempty
  | cons letter text rest =>
    have widen : (∃ (earlier : Option Letter) (tail : List Letter),
          back <+: tail ∧ tail <:+ text ∧ find earlier tail = none) →
        ∃ (earlier : Option Letter) (tail : List Letter),
          back <+: tail ∧ tail <:+ letter :: text ∧ find earlier tail = none := by
      rintro ⟨earlier, tail, isPrefix, isSuffix, nothing⟩
      exact ⟨earlier, tail, isPrefix, isSuffix.trans (suffix_cons letter text), nothing⟩
    cases skip with
    | succ skip =>
      rw [rewrite_skip] at member
      exact widen (rest member isBack)
    | zero =>
      rcases found : find before (letter :: text) with _ | ⟨more, token⟩
      · rw [rewrite_kept found] at member
        rcases List.mem_cons.mp member with isFirst | later
        · rw [isFirst] at isBack
          rcases List.suffix_cons_iff.mp isBack with whole | inner
          · refine ⟨before, letter :: text, ?_, suffix_refl _, found⟩
            rw [whole]
            exact (prefix_cons_inj letter).mpr (first_isPrefix _ _)
          · exact widen (rest mem_cons_self inner)
        · exact widen (rest (mem_cons_of_mem _ later) isBack)
      · rw [rewrite_found found] at member
        rcases List.mem_cons.mp member with isFirst | later
        · rw [isFirst] at isBack
          exact absurd (List.suffix_nil.mp isBack) nonempty
        · exact widen (rest later isBack)

end KeptLetters

/-- A word that begins in one part of a text and ends in a later one. -/
def Across (word : List Letter) (parts : List (List Letter)) : Prop :=
  ∃ before first between last after left right,
    parts = before ++ first :: (between ++ last :: after) ∧
      left ≠ [] ∧ right ≠ [] ∧ left <:+ first ∧ right <+: last ∧
      word = left ++ (between.flatten ++ right)

theorem Across.cons {word part : List Letter} {parts : List (List Letter)}
    (across : Across word parts) : Across word (part :: parts) := by
  rcases across with ⟨before, rest⟩
  rcases rest with ⟨first, between, last, after, left, right, split, rest⟩
  exact ⟨part :: before, first, between, last, after, left, right, congrArg (part :: ·) split, rest⟩

variable {word : List Letter}

/-- A beginning of a text ends in one of its parts. -/
theorem exists_of_prefix_flatten {parts : List (List Letter)}
    (nonempty : word ≠ []) (isPrefix : word <+: parts.flatten) :
    ∃ between last after right, parts = between ++ last :: after ∧
      right ≠ [] ∧ right <+: last ∧ word = between.flatten ++ right := by
  induction parts generalizing word with
  | nil => exact absurd (List.prefix_nil.mp isPrefix) nonempty
  | cons part parts rest =>
    rcases isPrefix with ⟨tail, whole⟩
    rw [flatten_cons] at whole
    rcases List.append_eq_append_iff.mp whole with ⟨left, isPart, _⟩ | ⟨left, isWord, isRest⟩
    · exact ⟨[], part, parts, word, rfl, nonempty, ⟨left, isPart.symm⟩, rfl⟩
    · by_cases empty : left = []
      · rw [empty, append_nil] at isWord
        exact ⟨[], part, parts, word, rfl, nonempty, isWord ▸ prefix_refl _, rfl⟩
      · rcases rest empty ⟨tail, isRest.symm⟩ with
          ⟨between, last, after, right, split, hasRight, within, spelled⟩
        refine ⟨part :: between, last, after, right, congrArg (part :: ·) split,
          hasRight, within, ?_⟩
        rw [isWord, spelled, flatten_cons, append_assoc]

theorem prefix_flatten (between after : List (List Letter)) {last right : List Letter}
    (within : right <+: last) :
    between.flatten ++ right <+: (between ++ last :: after).flatten := by
  rw [flatten_append, flatten_cons]
  exact (prefix_append_right_inj _).mpr (within.trans (prefix_append _ _))

theorem infix_flatten (nonempty : word ≠ []) {parts : List (List Letter)} :
    word <:+: parts.flatten ↔ (∃ part ∈ parts, word <:+: part) ∨ Across word parts := by
  constructor
  · intro inside
    induction parts with
    | nil => exact absurd (List.infix_nil.mp inside) nonempty
    | cons part parts rest =>
      rw [flatten_cons] at inside
      rcases List.infix_append_iff_ne_nil.mp inside with here | later | between
      · exact .inl ⟨part, mem_cons_self, here⟩
      · rcases rest later with ⟨other, member, within⟩ | across
        · exact .inl ⟨other, mem_cons_of_mem _ member, within⟩
        · exact .inr across.cons
      · rcases between with ⟨left, right, hasLeft, hasRight, spelled, isEnd, isStart⟩
        rcases exists_of_prefix_flatten hasRight isStart with
          ⟨mid, last, after, tail, split, hasTail, within, reads⟩
        refine .inr ⟨[], part, mid, last, after, left, tail, ?_, hasLeft, hasTail,
          isEnd, within, ?_⟩
        · rw [split, nil_append]
        · rw [spelled, reads]
  · rintro (⟨part, member, within⟩ | across)
    · exact within.trans (infix_of_mem_flatten member)
    · rcases across with ⟨before, first, between, last, after, left, right, split,
        _, _, isEnd, isStart, spelled⟩
      rw [split, spelled, flatten_append, flatten_cons]
      apply infix_append_of_infix_right
      rcases isEnd with ⟨front, isFirst⟩
      rcases prefix_flatten between after isStart with ⟨tail, isTail⟩
      refine ⟨front, tail, ?_⟩
      rw [← isFirst, ← isTail]
      simp only [append_assoc]

end McpAssistant.Foundations.Rewriting
