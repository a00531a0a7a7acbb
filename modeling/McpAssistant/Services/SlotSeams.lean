import McpAssistant.Services.PageSlots

/-!
# Resolving slots piece by piece

What a slot is read as depends on the text up to its closer, or up to the next
brace group, and on nothing behind it.  So a text can be resolved in two pieces
when it is cut before a brace group, or behind a whitespace all of whose earlier
braces are closed.
-/

namespace McpAssistant.Services.SlotSeams

open Foundations.Rewriting
open PageSlots List

def Stops (letter : Char) : Prop :=
  letter = '{' ∨ letter = '}'

section Stops

variable {letter : Char}

theorem Stops.not_blank (stops : Stops letter) : isBlank letter = false := by
  rcases stops with rfl | rfl <;> decide

theorem Stops.not_key (stops : Stops letter) :
    isKeyLetter letter = false ∧ isKeyMark letter = false := by
  rcases stops with rfl | rfl <;> decide

theorem Stops.not_page (stops : Stops letter) :
    letter ≠ ':' ∧ letter.toLower ∉ ['p', 'a', 'g', 'e'] := by
  rcases stops with rfl | rfl <;> decide

end Stops

section Runs

variable {keeps : Char → Bool} {text rest : Text} {letter : Char}

theorem takeWhile_stop (stops : keeps letter = false) :
    (text ++ letter :: rest).takeWhile keeps = text.takeWhile keeps := by
  rw [takeWhile_append]
  split
  · next whole =>
      rw [takeWhile_cons, stops, if_neg Bool.false_ne_true, append_nil]
      exact ((List.takeWhile_prefix keeps).eq_of_length whole).symm
  · rfl

theorem dropWhile_stop (stops : keeps letter = false) :
    (text ++ letter :: rest).dropWhile keeps = text.dropWhile keeps ++ letter :: rest := by
  rw [dropWhile_append]
  split
  · next empty =>
      rw [List.isEmpty_iff.mp empty, dropWhile_cons, stops]
      rfl
  · rfl

end Runs

section Readers

variable {text rest : Text} {letter : Char}

theorem pageHint_stop (stops : Stops letter) :
    pageHint (text ++ letter :: rest) = pageHint text := by
  apply Option.ext
  intro hint
  constructor
  · intro found
    rcases pageHint_eq_some.mp found with ⟨word, gap, tail, whole, isWord, blank, isHint⟩
    have regroup : text ++ letter :: rest = (word ++ (gap ++ [':'])) ++ tail := by
      rw [whole]
      simp only [append_assoc, cons_append, nil_append]
    rcases List.append_eq_append_iff.mp regroup with ⟨past, isOpening, isRest⟩ | ⟨past, isText, _⟩
    · have outside : letter ∉ word ++ (gap ++ [':']) := by
        intro member
        rcases List.mem_append.mp member with inWord | later
        · have lower : letter.toLower ∈ word.map Char.toLower := mem_map_of_mem inWord
          rw [isWord] at lower
          exact stops.not_page.2 lower
        · rcases List.mem_append.mp later with inGap | isColon
          · exact absurd (stops.not_blank.symm.trans (blank letter inGap)) Bool.false_ne_true
          · exact stops.not_page.1 (List.mem_singleton.mp isColon)
      rcases past with _ | ⟨first, past⟩
      · rw [append_nil] at isOpening
        apply pageHint_eq_some.mpr
        refine ⟨word, gap, [], ?_, isWord, blank, isHint⟩
        exact isOpening.symm
      · exfalso
        apply outside
        rw [isOpening, (List.cons.inj isRest).1]
        exact mem_append_right _ mem_cons_self
    · apply pageHint_eq_some.mpr
      refine ⟨word, gap, past, ?_, isWord, blank, isHint⟩
      rw [isText]
      simp only [append_assoc, cons_append, nil_append]
  · intro found
    exact pageHint_append _ found

theorem openerBehind_stop {braces : Nat} (stops : Stops letter) :
    openerBehind braces (text ++ letter :: rest) = openerBehind braces text := by
  unfold openerBehind
  dsimp only
  rw [dropWhile_stop stops.not_blank, pageHint_stop stops]
  apply Option.map_congr
  intro hint found
  unfold blanks
  rw [takeWhile_stop stops.not_blank, drop_append_of_le_length (pageHint_le found),
    takeWhile_stop stops.not_blank]

theorem slotOpen_other {first : Char} (other : first ≠ '{') : slotOpen (first :: text) = none := by
  by_contra opens
  rcases Option.ne_none_iff_exists'.mp opens with ⟨opener, found⟩
  rcases (exists_of_slotOpen found).1 with ⟨tail, same⟩
  exact other (List.cons.inj same).1

/-- What stops an opener, unless a brace joins the one before it. -/
theorem slotOpen_stop (stops : Stops letter) (nonempty : text ≠ [])
    (apart : letter = '{' → text.getLast? ≠ some '{') :
    slotOpen (text ++ letter :: rest) = slotOpen text := by
  rcases text with _ | ⟨first, text⟩
  · exact absurd rfl nonempty
  · by_cases brace : first = '{'
    · subst brace
      rw [cons_append, slotOpen_cons, slotOpen_cons]
      rcases text with _ | ⟨second, text⟩
      · have closer : letter ≠ '{' := by
          intro isBrace
          exact apart isBrace rfl
        rw [nil_append, if_neg (by simpa using closer), if_neg (by simp)]
        exact @openerBehind_stop [] rest letter 1 stops
      · have sameHead : ((second :: text) ++ letter :: rest).head? = (second :: text).head? := rfl
        by_cases double : (second :: text).head? = some '{'
        · rw [if_pos double, if_pos (sameHead.trans double)]
          exact @openerBehind_stop text rest letter 2 stops
        · rw [if_neg double, if_neg (sameHead ▸ double)]
          exact @openerBehind_stop (second :: text) rest letter 1 stops
    · rw [cons_append, slotOpen_other brace, slotOpen_other brace]

theorem keyTail_stop (stops : Stops letter) : keyTail (text ++ letter :: rest) = keyTail text := by
  have notKey := stops.not_key.1
  have notMark := stops.not_key.2
  have alone : keyTail (letter :: rest) = 0 := by
    rcases rest with _ | ⟨second, rest⟩
    · simp [keyTail, notKey]
    · simp [keyTail, notKey, notMark]
  fun_induction keyTail text with
  | case1 first second text isKey rest' =>
    rw [← rest']
    simp [keyTail, isKey]
  | case2 first second text notFirst isMark rest' =>
    rw [← rest']
    simp [keyTail, notFirst, isMark]
  | case3 first second text notFirst notPair => simp [keyTail, notFirst, notPair]
  | case4 last isKey => simp [keyTail, isKey, alone]
  | case5 last notLast => simp [keyTail, notLast, notKey]
  | case6 => exact alone

theorem keyLength_stop (stops : Stops letter) :
    keyLength (text ++ letter :: rest) = keyLength text := by
  rcases text with _ | ⟨first, text⟩
  · simp [keyLength, stops.not_key.1]
  · rw [cons_append, keyLength, keyLength, keyTail_stop stops]

end Readers

section Closers

variable {text rest : Text}

theorem beforeCloser_closed {before behind : Text} (open_ : '}' ∉ before) :
    beforeCloser (before ++ '}' :: behind) =
      if before.contains '\n' || before.contains '{' then none else some before := by
  have run : (before ++ '}' :: behind).takeWhile (· != '}') = before := by
    apply takeWhile_run
    · intro other member
      apply bne_iff_ne.mpr
      rintro rfl
      exact open_ member
    · rfl
  have shorter : (before.length == (before ++ '}' :: behind).length) = false := by
    apply beq_eq_false_iff_ne.mpr
    rw [length_append, length_cons]
    omega
  unfold beforeCloser
  dsimp only
  rw [run, shorter, Bool.false_or]

theorem closerEnd_closed {before behind : Text} : closerEnd (before ++ '}' :: behind) before =
      before.length + 1 + if behind.head? == some '}' then 1 else 0 := by
  unfold closerEnd
  rw [List.getElem?_append_right (Nat.le_succ _)]
  show before.length + 1 + (if ('}' :: behind)[before.length + 1 - before.length]? ==
    some '}' then 1 else 0) = _
  rw [Nat.add_sub_cancel_left]
  rw [List.head?_eq_getElem?]
  rfl

/-- The closer a text holds is the same whatever follows, but for a second closer
right behind the end. -/
theorem closer_of_mem (closed : '}' ∈ text) (next : rest.head? ≠ some '}') :
    beforeCloser (text ++ rest) = beforeCloser text ∧ ∀ between, beforeCloser text = some between →
        closerEnd (text ++ rest) between = closerEnd text between := by
  rcases eq_append_cons_of_mem closed with ⟨before, behind, rfl, open_⟩
  rw [append_assoc, cons_append, beforeCloser_closed open_, beforeCloser_closed open_]
  refine ⟨rfl, ?_⟩
  intro between found
  split at found
  · cases found
  · rw [← Option.some.inj found, closerEnd_closed, closerEnd_closed]
    rcases behind with _ | ⟨first, behind⟩
    · rw [nil_append, beq_eq_false_iff_ne.mpr next]
      rfl
    · rfl

/-- Without a closer a brace group ends the search as the end of the text does. -/
theorem closer_of_not_mem (open_ : '}' ∉ text) :
    beforeCloser (text ++ '{' :: rest) = none ∧ beforeCloser text = none := by
  have run : ∀ letter ∈ text, (letter != '}') = true := by
    intro letter member
    apply bne_iff_ne.mpr
    rintro rfl
    exact open_ member
  unfold beforeCloser
  dsimp only
  constructor
  · rw [if_pos]
    apply Bool.or_eq_true_iff.mpr
    right
    rw [takeWhile_append_of_pos run]
    apply List.contains_iff_mem.mpr
    apply mem_append_right
    rw [takeWhile_cons, if_pos (by decide)]
    exact mem_cons_self
  · rw [if_pos]
    rw [List.takeWhile_eq_self_iff.mpr run, beq_self_eq_true]
    rfl

/-- What a text is followed by without changing where a slot in it ends. -/
def Ends (text rest : Text) : Prop :=
  ('}' ∈ text ∧ rest.head? ≠ some '}') ∨ ('}' ∉ text ∧ rest.head? = some '{')

theorem Ends.closer (ends : Ends text rest) : beforeCloser (text ++ rest) = beforeCloser text ∧
      ∀ between, beforeCloser text = some between →
        closerEnd (text ++ rest) between = closerEnd text between := by
  rcases ends with ⟨closed, next⟩ | ⟨open_, next⟩
  · exact closer_of_mem closed next
  · rcases List.head?_eq_some_iff.mp next with ⟨behind, rfl⟩
    have none := @closer_of_not_mem _ behind open_
    rw [none.1, none.2]
    refine ⟨rfl, ?_⟩
    intro between found
    cases found

theorem Ends.read {Reading : Type} {read : Text → Reading}
    (stop : ∀ before letter behind, Stops letter → read (before ++ letter :: behind) = read before)
    (ends : Ends text rest) : read (text ++ rest) = read text := by
  rcases ends with ⟨closed, _⟩ | ⟨_, next⟩
  · rcases append_of_mem closed with ⟨before, behind, rfl⟩
    rw [append_assoc, cons_append, stop before '}' _ (.inr rfl), stop before '}' behind (.inr rfl)]
  · rcases List.head?_eq_some_iff.mp next with ⟨behind, rfl⟩
    exact stop text '{' behind (.inl rfl)

theorem Ends.drop {count : Nat} (ends : Ends text rest)
    (within : ∀ before behind, text = before ++ '}' :: behind → count ≤ before.length) :
    Ends (text.drop count) rest := by
  rcases ends with ⟨closed, next⟩ | ⟨open_, next⟩
  · left
    refine ⟨?_, next⟩
    rcases append_of_mem closed with ⟨before, behind, split⟩
    rw [split, drop_append_of_le_length (within before behind split)]
    exact mem_append_right _ mem_cons_self
  · right
    exact ⟨fun member => open_ (mem_of_mem_drop member), next⟩

theorem Ends.keyLength (ends : Ends text rest) : keyLength (text ++ rest) = keyLength text :=
  ends.read fun _ _ _ stops => keyLength_stop stops

theorem Ends.slotEnds (ends : Ends text rest) : knownSlotEnd (text ++ rest) = knownSlotEnd text ∧
      ∀ keyEnd, malformedSlotEnd (text ++ rest) keyEnd = malformedSlotEnd text keyEnd := by
  have closer := ends.closer
  unfold knownSlotEnd malformedSlotEnd
  rw [closer.1]
  rcases found : beforeCloser text with _ | between
  · exact ⟨rfl, fun _ => rfl⟩
  · dsimp only
    rw [closer.2 between found]
    exact ⟨rfl, fun _ => rfl⟩

theorem Ends.hasCloser (ends : Ends text rest) :
    hasCloserAfterKey (text ++ rest) = hasCloserAfterKey text := by
  unfold hasCloserAfterKey
  rcases ends with ⟨closed, _⟩ | ⟨_, next⟩
  · rcases append_of_mem closed with ⟨before, behind, rfl⟩
    rw [append_assoc, cons_append, dropWhile_stop (by decide), dropWhile_stop (by decide)]
    rcases before.dropWhile isBlank with _ | ⟨first, tail⟩ <;> rfl
  · rcases List.head?_eq_some_iff.mp next with ⟨behind, rfl⟩
    rw [dropWhile_stop (by decide)]
    rcases text.dropWhile isBlank with _ | ⟨first, tail⟩ <;> rfl

section Slots

variable {offered : List UiDestination} {labels : List (String × String)}

theorem Ends.readSlot (ends : Ends text rest) :
    readSlot offered labels (text ++ rest) = readSlot offered labels text := by
  have within := (keyLength_inside text).1
  have behind : Ends (text.drop (PageSlots.keyLength text)) rest := by
    apply ends.drop
    intro before after split
    rw [split, keyLength_stop (.inr rfl)]
    exact (keyLength_inside before).1
  unfold PageSlots.readSlot
  dsimp only
  rw [ends.keyLength, drop_append_of_le_length within,
    take_append_of_le_length within, behind.slotEnds.1, behind.hasCloser]
  simp only [ends.slotEnds.2]

theorem slotAt_append {before : Option Char} (nonempty : text ≠ []) (ends : Ends text rest)
    (apart : '}' ∉ text → text.getLast? ≠ some '{') :
    slotAt offered labels before (text ++ rest) = slotAt offered labels before text := by
  have opens : slotOpen (text ++ rest) = slotOpen text := by
    rcases ends with ⟨closed, _⟩ | ⟨open_, next⟩
    · rcases append_of_mem closed with ⟨front, behind, rfl⟩
      rw [append_assoc, cons_append]
      rcases front with _ | ⟨first, front⟩
      · rw [nil_append, nil_append, slotOpen_other (by decide), slotOpen_other (by decide)]
      · have stop : ∀ tail, slotOpen (first :: front ++ '}' :: tail) =
            slotOpen (first :: front) := by
          intro tail
          apply slotOpen_stop (.inr rfl) (cons_ne_nil _ _)
          intro isBrace
          cases isBrace
        rw [stop, stop]
    · rcases List.head?_eq_some_iff.mp next with ⟨behind, rfl⟩
      exact slotOpen_stop (.inl rfl) nonempty fun _ => apart open_
  unfold slotAt
  rw [opens]
  apply Option.map_congr
  intro opener found
  have within := (exists_of_slotOpen found).2.2
  have behind : Ends (text.drop opener) rest := by
    apply ends.drop
    intro front after split
    rcases front with _ | ⟨first, front⟩
    · rw [split, nil_append, slotOpen_other (by decide)] at found
      cases found
    · rw [split, slotOpen_stop (.inr rfl) (cons_ne_nil _ _)] at found
      · exact (exists_of_slotOpen found).2.2
      · intro isBrace
        cases isBrace
  rw [drop_append_of_le_length within, behind.readSlot]

theorem slotAt_lt {before : Option Char} {more : Nat} {slot : Slot}
    (found : slotAt offered labels before text = some (more, slot)) :
    more < text.length := by
  rcases slotAt_eq_some found with ⟨opener, opens, _, isMore⟩
  have bounds := (exists_of_slotOpen opens).2
  have within := (@readSlot_inside offered labels (text.drop opener)).1
  rw [length_drop] at within
  omega

def resolvedText (offered : List UiDestination) (labels : List (String × String))
    (text : Text) : Text :=
  (resolvePageSlots offered labels text).text

@[simp]
theorem resolvedText_nil : resolvedText offered labels [] = [] := rfl

/-- A cut at which every slot that is opened before it ends, or is ended by the
brace behind it. -/
def Seam (left right : Text) : Prop :=
  ∀ back, back <:+ left → back.head? = some '{' →
    Ends back right ∧ ('}' ∉ back → back.getLast? ≠ some '{')

theorem resolvedText_append {left right : Text} (seam : Seam left right) :
    resolvedText offered labels (left ++ right) =
      resolvedText offered labels left ++ resolvedText offered labels right := by
  unfold resolvedText
  rw [textOf_slots, textOf_slots, textOf_slots, rewrite_append (Nat.zero_le _), textOf_append]
  · rw [@rewrite_before _ _ _ (left.getLast?.or none) none right rfl]
  · intro front back split nonempty
    refine ⟨?_, fun more slot found => slotAt_lt found⟩
    rcases back with _ | ⟨first, back⟩
    · exact absurd rfl nonempty
    · by_cases brace : first = '{'
      · subst brace
        have here := seam _ ⟨front, split.symm⟩ rfl
        exact slotAt_append nonempty here.1 here.2
      · rw [slotAt_eq_none.mpr (slotOpen_other brace)]
        exact slotAt_eq_none.mpr (slotOpen_other brace)

theorem seam_before_brace {left right : Text} (next : right.head? = some '{')
    (apart : left.getLast? ≠ some '{') : Seam left right := by
  intro back isBack starts
  constructor
  · by_cases closed : '}' ∈ back
    · left
      refine ⟨closed, ?_⟩
      rw [next]
      decide
    · exact .inr ⟨closed, next⟩
  · intro _
    rcases isBack with ⟨front, rfl⟩
    rw [List.getLast?_append] at apart
    rcases last : back.getLast? with _ | letter
    · intro same
      cases same
    · rw [last] at apart
      exact apart

theorem resolvedText_cons {letter : Char} (other : letter ≠ '{') :
    resolvedText offered labels (letter :: text) = letter :: resolvedText offered labels text := by
  unfold resolvedText
  rw [textOf_slots, textOf_slots, rewrite_kept (slotAt_eq_none.mpr (slotOpen_other other)),
    textOf_letter]
  rw [@rewrite_before _ _ _ (some letter) none text rfl]

def BracesClosed (text : Text) : Prop :=
  ∀ back, back <:+ text → back.head? = some '{' → '}' ∈ back

theorem resolvedText_behind {left right : Text} {letter : Char}
    (closed : BracesClosed left) (notOpener : letter ≠ '{') (notCloser : letter ≠ '}') :
    resolvedText offered labels (left ++ letter :: right) =
      resolvedText offered labels left ++ letter :: resolvedText offered labels right := by
  rw [← resolvedText_cons notOpener]
  apply resolvedText_append
  intro back isBack starts
  have holds := closed back isBack starts
  refine ⟨.inl ⟨holds, ?_⟩, fun open_ => absurd holds open_⟩
  intro same
  exact notCloser (Option.some.inj same)

end Slots

end Closers

end McpAssistant.Services.SlotSeams
