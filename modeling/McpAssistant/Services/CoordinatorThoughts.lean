import McpAssistant.BusinessQuery.PlanBinding
import McpAssistant.Foundations.WholeWords
import McpAssistant.Services.SlotSeams

/-!
# Streamed thoughts

The coordinator's thoughts reach the panel as the provider cuts them.  Slots are
resolved, and listed words and action ids are put into the words a person reads,
so a chunk's last token is held back until what follows it is known.

A brace that may open a slot is held back too, but not the token before it: when
the slot turns out to vanish, the token goes on behind it and has already been
sent.  Where no listed word and no action id meets a brace group, the thoughts
are the same in every cutting.
-/

namespace McpAssistant.Services.CoordinatorThoughts

open BusinessQuery.PlanBinding (isPySpace)
open Foundations
open Foundations.Rewriting
open Foundations.WholeWords
open PageSlots
open SlotSeams List

/-! ## Words -/

/-- What `\w` and `\d` match, which for letters beyond ASCII is read from the
Unicode tables. -/
structure Alphabet where
  isWord : Char → Bool
  isDigit : Char → Bool
  ascii_word : ∀ letter : Char, letter.toNat < 128 →
    isWord letter = (letter.isAlphanum || letter == '_')
  ascii_digit : ∀ letter : Char, letter.toNat < 128 → isDigit letter = letter.isDigit
  digit_word : ∀ letter, isDigit letter → isWord letter
  space_apart : ∀ letter, isPySpace letter → isWord letter = false

def plainWords : List (String × String) :=
  [("query_business", "the business data"),
   ("QueryBusiness", "the business data"),
   ("search_documents", "the company documents"),
   ("SearchDocuments", "the company documents"),
   ("explain_sources", "explain the result"),
   ("ExplainSources", "explain the result"),
   ("finish_answer", "the answer"),
   ("FinishAnswer", "the answer"),
   ("Clarify", "clarification")]

def schemaWords : List (String × String) :=
  [("claim_type", "claim type"),
   ("evidence_ids", "evidence ids"),
   ("note_to_person", "note"),
   ("out_of_scope_part", "part outside what I can help with"),
   ("source_positions", "source positions"),
   ("unanswered_part", "part not answered"),
   ("value_refs", "value references")]

def promptWords : List (String × String) :=
  [("anchor_count", "record count"),
   ("anchors_without_children", "records with nothing linked"),
   ("requested_anchor_count", "records asked for"),
   ("row_count", "row count"),
   ("row_identity", "record counts")]

/-- The viewer's own words: each card member key with the words the panel shows. -/
structure MemberWords where
  entries : List (String × String)
  nonempty : ∀ entry ∈ entries, entry.1 ≠ ""

def table (words : MemberWords) : List (String × String) :=
  Dictionaries.ofPairs (plainWords ++ schemaWords ++ promptWords ++ words.entries)

def letters (entry : String × String) : Text × Text :=
  (entry.1.toList, entry.2.toList)

theorem table_nonempty (words : MemberWords) :
    ∀ entry ∈ (table words).map letters, entry.1 ≠ [] := by
  intro entry member
  rcases List.mem_map.mp member with ⟨pair, isPair, rfl⟩
  have named : pair.1 ≠ "" := by
    rcases List.mem_append.mp (Dictionaries.mem_of_mem_ofPairs isPair) with fixed | own
    · have allNamed : (plainWords ++ schemaWords ++ promptWords).all
          fun listed => listed.1 != "" := by decide
      exact bne_iff_ne.mp (List.all_eq_true.mp allNamed pair fixed)
    · exact words.nonempty pair own
  intro empty
  exact named (String.toList_eq_nil_iff.mp empty)

def listedWords (words : MemberWords) : WordList Char :=
  tableWords ((table words).map letters) (table_nonempty words)

def actionMark : Text :=
  "act-".toList

section ActionIds

variable (alphabet : Alphabet)

def IsActionId (word : Text) : Prop :=
  ∃ digits : Text, digits ≠ [] ∧ (∀ digit ∈ digits, alphabet.isDigit digit) ∧
    word = actionMark ++ digits

/-- An action id goes on for as many digits as there are. -/
def actionCandidates (text : Text) : List (Nat × Text) :=
  if actionMark.isPrefixOf text then
    let digits := (text.drop actionMark.length).takeWhile alphabet.isDigit
    if digits = [] then []
    else [(actionMark.length + digits.length, "step ".toList ++ digits)]
  else []

theorem actionCandidates_mark (rest : Text) : actionCandidates alphabet (actionMark ++ rest) =
      if rest.takeWhile alphabet.isDigit = [] then []
      else [(actionMark.length + (rest.takeWhile alphabet.isDigit).length,
        "step ".toList ++ rest.takeWhile alphabet.isDigit)] := by
  unfold actionCandidates
  rw [if_pos (List.isPrefixOf_iff_prefix.mpr (prefix_append _ _)), drop_left]

theorem actionCandidates_other {text : Text} (other : ¬ actionMark <+: text) :
    actionCandidates alphabet text = [] := by
  unfold actionCandidates
  rw [if_neg]
  intro starts
  exact other (List.isPrefixOf_iff_prefix.mp starts)

theorem digits_isActionId {rest : Text} (some : rest.takeWhile alphabet.isDigit ≠ []) :
    IsActionId alphabet (actionMark ++ rest.takeWhile alphabet.isDigit) := by
  refine ⟨_, some, ?_, rfl⟩
  intro digit member
  exact mem_takeWhile_imp member

theorem actionCandidates_spelled (text : Text) (found : Nat × Text)
    (member : found ∈ actionCandidates alphabet text) :
    found.1 ≤ text.length ∧ IsActionId alphabet (text.take found.1) := by
  by_cases starts : actionMark <+: text
  · rcases starts with ⟨rest, rfl⟩
    rw [actionCandidates_mark] at member
    split at member
    · cases member
    · next some =>
        rw [List.mem_singleton.mp member]
        have within := List.takeWhile_prefix alphabet.isDigit (l := rest)
        constructor
        · rw [length_append]
          exact Nat.add_le_add_left within.length_le _
        · rw [take_length_add_append, ← List.prefix_iff_eq_take.mp within]
          exact digits_isActionId alphabet some
  · rw [actionCandidates_other alphabet starts] at member
    cases member

theorem actionCandidates_behind (text rest : Text)
    (unlisted : ∀ more, more ≠ [] → more <+: rest → ¬ IsActionId alphabet (text ++ more)) :
    actionCandidates alphabet (text ++ rest) = actionCandidates alphabet text := by
  by_cases starts : actionMark <+: text
  · rcases starts with ⟨body, rfl⟩
    have same : (body ++ rest).takeWhile alphabet.isDigit = body.takeWhile alphabet.isDigit := by
      rw [takeWhile_append]
      split
      · next whole =>
          have digits := (List.takeWhile_prefix alphabet.isDigit).eq_of_length whole
          by_cases further : rest.takeWhile alphabet.isDigit = []
          · rw [further, append_nil, digits]
          · exfalso
            apply unlisted _ further (List.takeWhile_prefix _)
            refine ⟨body ++ rest.takeWhile alphabet.isDigit, ?_, ?_, append_assoc ..⟩
            · exact append_ne_nil_of_right_ne_nil _ further
            · intro digit member
              rcases List.mem_append.mp member with first | later
              · rw [← digits] at first
                exact mem_takeWhile_imp first
              · exact mem_takeWhile_imp later
      · rfl
    rw [append_assoc, actionCandidates_mark, actionCandidates_mark, same]
  · rw [actionCandidates_other alphabet starts]
    by_cases reaches : actionMark <+: text ++ rest
    · rcases reaches with ⟨tail, whole⟩
      rcases List.append_eq_append_iff.mp whole with ⟨more, isText, _⟩ | ⟨more, isMark, isRest⟩
      · exact absurd ⟨more, isText.symm⟩ starts
      · rw [← whole, actionCandidates_mark]
        split
        · rfl
        · next some =>
            exfalso
            have listed := digits_isActionId alphabet some
            rw [isMark, append_assoc] at listed
            refine unlisted _ ?_ ?_ listed
            · exact append_ne_nil_of_right_ne_nil _ some
            · rw [isRest]
              exact (prefix_append_right_inj more).mpr (List.takeWhile_prefix _)
    · exact actionCandidates_other alphabet reaches

def actionIds : WordList Char where
  Listed := IsActionId alphabet
  candidates := actionCandidates alphabet
  nonempty := by
    rintro ⟨digits, _, _, empty⟩
    cases empty
  spelled := actionCandidates_spelled alphabet
  behind := actionCandidates_behind alphabet

end ActionIds

/-- The first brace that no closer follows: how far the text goes before it. -/
def unclosedBrace : Text → Option Nat
  | [] => none
  | letter :: text =>
    if letter = '{' && !text.contains '}' then some 0
    else (unclosedBrace text).map (· + 1)

/-- Behind the last space or line break. -/
def whitespaceCut (text : Text) : Nat :=
  (text.reverse.dropWhile fun letter => letter != ' ' && letter != '\n').length

/-- The text before the last brace with no closer behind it, read backwards; the
braces right before that one go with it. -/
def beforeOpenBrace : Text → Option Text
  | [] => none
  | letter :: earlier =>
    if letter = '{' then some (earlier.dropWhile (· == '{'))
    else if letter = '}' then none
    else beforeOpenBrace earlier

/-- A cut inside a brace group is moved before the group. -/
def cutBeforeOpenSlot (text : Text) (cut : Nat) : Nat :=
  match beforeOpenBrace (text.take cut).reverse with
  | none => cut
  | some earlier => earlier.length

/-- The text safe to rewrite now, and the tail to hold back. -/
def splitPending (text : Text) : Text × Text :=
  match unclosedBrace text with
  | some cut => (text.take cut, text.drop cut)
  | none =>
    if text.getLast?.all isPySpace then (text, [])
    else
      let cut := cutBeforeOpenSlot text (whitespaceCut text)
      (text.take cut, text.drop cut)

def cannedActionThoughts : List String :=
  ["Next: look up the figures in your business data.\n",
   "Next: search the company documents.\n",
   "Next: explain the result you already have.\n",
   "Ready to write the answer.\n",
   "One detail is missing before this can be answered.\n"]

def isCanned (chunk : Text) : Bool :=
  cannedActionThoughts.contains (String.ofList chunk)

/-- What the sink is told: text of a thought, a step of the turn, or the end. -/
inductive Told
  | thought (text : Text)
  | step
  | finished
deriving DecidableEq, Repr

/-- What a stream of thoughts is written with. -/
structure Copy where
  alphabet : Alphabet
  words : MemberWords
  slotLabels : List (String × String)

structure TurnThoughts where
  needsNewline : Bool := false
  pending : Text := []
  told : List Told := []

namespace Copy

variable (copy : Copy)

/-- The text with its slots resolved; a thought carries no links. -/
def resolved (text : Text) : Text :=
  resolvedText [] copy.slotLabels text

def withWords (text : Text) : Text :=
  replaceWords copy.alphabet.isWord (listedWords copy.words) (copy.resolved text)

def cleaned (text : Text) : Text :=
  replaceWords copy.alphabet.isWord (actionIds copy.alphabet) (copy.withWords text)

def send (thoughts : TurnThoughts) (text : Text) : TurnThoughts :=
  { thoughts with
    told := thoughts.told ++ [.thought (copy.cleaned text)]
    needsNewline := (copy.cleaned text).getLast? != some '\n' }

def flushPending (thoughts : TurnThoughts) : TurnThoughts :=
  if thoughts.pending = [] then thoughts
  else copy.send { thoughts with pending := [] } thoughts.pending

/-- `stage`, `emit` and `table`: what is held back is sent first. -/
def turnStep (thoughts : TurnThoughts) : TurnThoughts :=
  let flushed := copy.flushPending thoughts
  { flushed with told := flushed.told ++ [.step] }

def emitThoughtDelta (thoughts : TurnThoughts) (chunk : Text) : TurnThoughts :=
  if chunk = [] then thoughts
  else if isCanned chunk then
    let flushed := copy.flushPending thoughts
    let line := if flushed.needsNewline then [.thought ['\n']] else []
    { flushed with
      told := flushed.told ++ line ++ [.thought chunk]
      needsNewline := false }
  else
    let (ready, pending) := splitPending (thoughts.pending ++ chunk)
    if ready = [] then { thoughts with pending := pending }
    else copy.send { thoughts with pending := pending } ready

def finishThought (thoughts : TurnThoughts) : TurnThoughts :=
  let flushed := copy.flushPending thoughts
  { flushed with told := flushed.told ++ [.finished] }

def stream (chunks : List Text) : TurnThoughts :=
  copy.finishThought (chunks.foldl copy.emitThoughtDelta {})

end Copy

/-- The text of all deltas a sink was told. -/
def thoughtText (told : List Told) : Text :=
  told.flatMap fun item => match item with
    | .thought text => text
    | .step | .finished => []

/-- Behind a whitespace with every brace before it closed, or before a brace group. -/
def Cut (ready pending : Text) : Prop :=
  (∃ front space, ready = front ++ [space] ∧ isPySpace space ∧ BracesClosed front) ∨
    (pending.head? = some '{' ∧ ready.getLast? ≠ some '{')

theorem isPySpace_apart {letter : Char} (isSpace : isPySpace letter = true) :
    letter ≠ '{' ∧ letter ≠ '}' := by
  constructor
  · rintro rfl
    exact absurd isSpace (by decide)
  · rintro rfl
    exact absurd isSpace (by decide)

theorem bracesClosed_front {front : Text} {letter : Char}
    (closed : BracesClosed (front ++ [letter])) (notCloser : letter ≠ '}') :
    BracesClosed front := by
  intro back isBack starts
  have longer : back ++ [letter] <:+ front ++ [letter] := by
    rcases isBack with ⟨rest, rfl⟩
    exact ⟨rest, (append_assoc ..).symm⟩
  have sameHead : (back ++ [letter]).head? = some '{' := by
    rcases back with _ | ⟨first, back⟩
    · cases starts
    · exact starts
  rcases List.mem_append.mp (closed _ longer sameHead) with inside | last
  · exact inside
  · exact absurd (List.mem_singleton.mp last).symm notCloser

theorem unclosedBrace_eq_none {text : Text} (none : unclosedBrace text = none) :
    BracesClosed text := by
  induction text with
  | nil =>
    intro back isBack starts
    rw [List.suffix_nil.mp isBack] at starts
    cases starts
  | cons letter text rest =>
    unfold unclosedBrace at none
    split at none
    · cases none
    · next closed =>
        intro back isBack starts
        rcases List.suffix_cons_iff.mp isBack with whole | inner
        · rw [whole] at starts ⊢
          rw [Option.some.inj starts] at closed
          apply mem_cons_of_mem
          by_contra absent
          apply closed
          simpa using absent
        · exact rest (Option.map_eq_none_iff.mp none) back inner starts

theorem unclosedBrace_eq_some {text : Text} {cut : Nat} (found : unclosedBrace text = some cut) :
    (text.drop cut).head? = some '{' ∧ '}' ∉ text.drop cut ∧
      (text.take cut).getLast? ≠ some '{' := by
  induction text generalizing cut with
  | nil => cases found
  | cons letter text rest =>
    unfold unclosedBrace at found
    split at found
    · next isOpen =>
        rcases Bool.and_eq_true_iff.mp isOpen with ⟨brace, open_⟩
        rw [← Option.some.inj found]
        refine ⟨congrArg some (of_decide_eq_true brace), ?_, nofun⟩
        rw [of_decide_eq_true brace]
        intro member
        rcases List.mem_cons.mp member with same | inner
        · cases same
        · rw [List.contains_iff_mem.mpr inner] at open_
          cases open_
    · next notOpen =>
        rcases Option.map_eq_some_iff.mp found with ⟨count, isCount, rfl⟩
        rcases rest isCount with ⟨starts, open_, last⟩
        refine ⟨starts, open_, ?_⟩
        rw [take_succ_cons, List.getLast?_cons]
        rcases before : (text.take count).getLast? with _ | other
        · rw [Option.getD_none]
          intro same
          have isZero : text.take count = [] := List.getLast?_eq_none_iff.mp before
          have whole : text.drop count = text := by
            have parts := take_append_drop count text
            rw [isZero] at parts
            exact parts
          rw [whole] at open_
          apply notOpen
          rw [Option.some.inj same]
          simpa using open_
        · rw [before] at last
          exact last

theorem beforeOpenBrace_eq_none {text : Text} (none : beforeOpenBrace text = none) :
    BracesClosed text.reverse := by
  induction text with
  | nil =>
    intro back isBack starts
    rw [List.suffix_nil.mp isBack] at starts
    cases starts
  | cons letter earlier rest =>
    intro back isBack starts
    rw [reverse_cons] at isBack
    unfold beforeOpenBrace at none
    split at none
    · cases none
    · next notOpener =>
        rcases List.suffix_concat_iff.mp isBack with rfl | ⟨tail, rfl, inner⟩
        · cases starts
        · split at none
          · next isCloser =>
              rw [isCloser]
              exact mem_append_right _ mem_cons_self
          · apply mem_append_left
            apply rest none tail inner
            rcases tail with _ | ⟨first, tail⟩
            · exact absurd (Option.some.inj starts) notOpener
            · exact starts

theorem beforeOpenBrace_eq_some {text earlier : Text}
    (found : beforeOpenBrace text = some earlier) :
    (∃ group, text.reverse = earlier.reverse ++ group ∧ group.head? = some '{') ∧
      earlier.head? ≠ some '{' := by
  induction text with
  | nil => cases found
  | cons letter text rest =>
    unfold beforeOpenBrace at found
    split at found
    · next isOpener =>
        have isEarlier := Option.some.inj found
        constructor
        · refine ⟨(text.takeWhile (· == '{')).reverse ++ ['{'], ?_, ?_⟩
          · rw [← isEarlier, isOpener, reverse_cons, ← append_assoc,
              ← reverse_append, takeWhile_append_dropWhile]
          · rcases group : (text.takeWhile (· == '{')).reverse with _ | ⟨first, others⟩
            · rfl
            · have member : first ∈ text.takeWhile (· == '{') := by
                rw [← mem_reverse, group]
                exact mem_cons_self
              exact congrArg some (eq_of_beq (mem_takeWhile_imp (p := (· == '{')) member))
        · rw [← isEarlier]
          intro starts
          rcases List.head?_eq_some_iff.mp starts with ⟨others, split⟩
          have stops := head_dropWhile_not (· == '{') (l := text) (by simp [split])
          simp only [split, head_cons, beq_self_eq_true] at stops
          cases stops
    · split at found
      · cases found
      · rcases rest found with ⟨⟨group, split, starts⟩, last⟩
        refine ⟨⟨group ++ [letter], ?_, ?_⟩, last⟩
        · rw [reverse_cons, split, append_assoc]
        · rw [List.head?_append, starts]
          rfl

theorem cutBeforeOpenSlot_cut {text : Text} {cut : Nat} {space : Char} {front : Text}
    (isCut : text.take cut = front ++ [space]) (isSpace : isPySpace space) :
    Cut (text.take (cutBeforeOpenSlot text cut)) (text.drop (cutBeforeOpenSlot text cut)) := by
  unfold cutBeforeOpenSlot
  rcases found : beforeOpenBrace (text.take cut).reverse with _ | earlier
  · left
    refine ⟨front, space, isCut, isSpace, ?_⟩
    have closed := beforeOpenBrace_eq_none found
    rw [reverse_reverse, isCut] at closed
    exact bracesClosed_front closed (isPySpace_apart isSpace).2
  · rcases beforeOpenBrace_eq_some found with ⟨⟨group, split, starts⟩, last⟩
    rw [reverse_reverse] at split
    have whole : text = earlier.reverse ++ (group ++ text.drop cut) := by
      rw [← append_assoc, ← split, take_append_drop]
    right
    dsimp only
    constructor
    · rw [whole, drop_left' length_reverse, List.head?_append, starts]
      rfl
    · rw [whole, take_left' length_reverse, List.getLast?_reverse]
      exact last

theorem take_whitespaceCut (text : Text) : text.take (whitespaceCut text) =
      (text.reverse.dropWhile fun letter => letter != ' ' && letter != '\n').reverse := by
  have whole := congrArg List.reverse (takeWhile_append_dropWhile
    (p := fun letter => letter != ' ' && letter != '\n') (l := text.reverse))
  rw [reverse_append, reverse_reverse] at whole
  unfold whitespaceCut
  rw [← length_reverse]
  exact (List.prefix_iff_eq_take.mp ⟨_, whole⟩).symm

/-- What is sent and what is held back make the text, and what is sent ends at a cut. -/
theorem splitPending_spec (text : Text) : (splitPending text).1 ++ (splitPending text).2 = text ∧
      ((splitPending text).1 ≠ [] → Cut (splitPending text).1 (splitPending text).2) := by
  unfold splitPending
  rcases found : unclosedBrace text with _ | cut
  · dsimp only
    split
    · next isEnd =>
        refine ⟨append_nil text, ?_⟩
        intro nonempty
        left
        rcases eq_nil_or_concat text with empty | ⟨front, space, rfl⟩
        · exact absurd empty nonempty
        · rw [concat_eq_append, List.getLast?_concat] at isEnd
          refine ⟨front, space, concat_eq_append, isEnd, ?_⟩
          have closed := unclosedBrace_eq_none found
          rw [concat_eq_append] at closed
          exact bracesClosed_front closed (isPySpace_apart isEnd).2
    · refine ⟨take_append_drop _ text, ?_⟩
      intro nonempty
      rcases spaces : text.reverse.dropWhile
          (fun letter => letter != ' ' && letter != '\n') with _ | ⟨space, before⟩
      · exfalso
        apply nonempty
        have noCut : whitespaceCut text = 0 := by
          unfold whitespaceCut
          rw [spaces]
          rfl
        rw [noCut]
        rfl
      · have stops := head_dropWhile_not
          (fun letter => letter != ' ' && letter != '\n') (l := text.reverse)
          (by simp [spaces])
        simp only [spaces, head_cons] at stops
        have isSpace : isPySpace space = true := by
          rcases Bool.and_eq_false_iff.mp stops with isBlank | isBreak
          · rw [bne_eq_false_iff_eq.mp isBlank]
            decide
          · rw [bne_eq_false_iff_eq.mp isBreak]
            decide
        have isCut := take_whitespaceCut text
        rw [spaces, reverse_cons] at isCut
        exact cutBeforeOpenSlot_cut isCut isSpace
  · have place := unclosedBrace_eq_some found
    refine ⟨take_append_drop cut text, ?_⟩
    intro _
    exact .inr ⟨place.1, place.2.2⟩

theorem Cut.append {ready pending : Text} (more : Text) (isCut : Cut ready pending) :
    Cut ready (pending ++ more) := by
  rcases isCut with space | ⟨starts, last⟩
  · exact .inl space
  · right
    refine ⟨?_, last⟩
    rw [List.head?_append, starts]
    rfl

theorem Cut.of_append {ready pending more : Text} (nonempty : pending ≠ [])
    (isCut : Cut ready (pending ++ more)) : Cut ready pending := by
  rcases isCut with space | ⟨starts, last⟩
  · exact .inl space
  · right
    rw [List.head?_append_of_ne_nil _ nonempty] at starts
    exact ⟨starts, last⟩

/-- Texts sent one after the other: each but the last ends at a cut. -/
structure Pieced (pieces : List Text) : Prop where
  nonempty : ∀ piece ∈ pieces, piece ≠ []
  cut : ∀ front piece back, pieces = front ++ piece :: back → back ≠ [] → Cut piece back.flatten

theorem flatten_ne_nil {pieces : List Text} (nonempty : ∀ piece ∈ pieces, piece ≠ [])
    (some : pieces ≠ []) : pieces.flatten ≠ [] := by
  rcases pieces with _ | ⟨piece, pieces⟩
  · exact absurd rfl some
  · intro empty
    rw [flatten_cons] at empty
    exact nonempty piece mem_cons_self (List.append_eq_nil_iff.mp empty).1

theorem Pieced.segment {front middle back : List Text}
    (pieced : Pieced (front ++ (middle ++ back))) : Pieced middle := by
  have inner : ∀ piece ∈ middle, piece ≠ [] := by
    intro piece member
    apply pieced.nonempty
    exact mem_append_right _ (mem_append_left _ member)
  refine ⟨inner, ?_⟩
  intro before piece after split some
  have whole : front ++ (middle ++ back) = (front ++ before) ++ piece :: (after ++ back) := by
    rw [split]
    simp only [append_assoc, cons_append]
  have isCut := pieced.cut _ _ _ whole (append_ne_nil_of_left_ne_nil some back)
  rw [flatten_append] at isCut
  apply isCut.of_append
  apply flatten_ne_nil _ some
  intro other member
  apply inner
  rw [split]
  exact mem_append_right _ (mem_cons_of_mem _ member)

section Streams

variable {copy : Copy} {pieces : List Text}

theorem resolved_cut {ready pending : Text} (isCut : Cut ready pending) :
    copy.resolved (ready ++ pending) = copy.resolved ready ++ copy.resolved pending := by
  unfold Copy.resolved
  rcases isCut with ⟨front, space, rfl, isSpace, closed⟩ | ⟨starts, last⟩
  · have apart := isPySpace_apart isSpace
    rw [append_assoc, singleton_append, resolvedText_behind closed apart.1 apart.2,
      resolvedText_behind closed apart.1 apart.2, resolvedText_nil, append_assoc,
      singleton_append]
  · exact resolvedText_append (seam_before_brace starts last)

theorem resolved_flatten (pieced : Pieced pieces) :
    copy.resolved pieces.flatten = pieces.flatMap copy.resolved := by
  induction pieces with
  | nil => rfl
  | cons piece pieces rest =>
    rw [flatten_cons, flatMap_cons]
    by_cases some : pieces = []
    · rw [some, flatten_nil, append_nil, flatMap_nil, append_nil]
    · have tail : Pieced pieces := by
        apply @Pieced.segment [piece] pieces []
        rw [append_nil]
        exact pieced
      rw [resolved_cut (pieced.cut [] piece pieces rfl some), rest tail]

theorem resolved_additive (pieced : Pieced pieces) : Additive copy.resolved pieces := by
  intro front first second back split
  have both : Pieced (first ++ second) := by
    apply @Pieced.segment front (first ++ second) back
    rw [append_assoc, ← split]
    exact pieced
  have left : Pieced first := @Pieced.segment [] first second both
  have right : Pieced second := by
    apply @Pieced.segment first second []
    rw [append_nil]
    exact both
  rw [← flatten_append, resolved_flatten both, resolved_flatten left,
    resolved_flatten right, flatMap_append]

end Streams

/-- A text whose brace groups no listed word and no action id meets: where a brace
opens, none lies across in the text a person would read, and none ends or starts
there next to a word letter.  And no listed word holds a whitespace. -/
structure Streamable (copy : Copy) (text : Text) : Prop where
  spaceless : ∀ word, (listedWords copy.words).Listed word →
    ∀ letter ∈ word, isPySpace letter = false
  words : ∀ left right, text = left ++ right → right.head? = some '{' →
    left.getLast? ≠ some '{' → Quiet copy.alphabet.isWord (listedWords copy.words)
        (copy.resolved left) (copy.resolved right)
  actions : ∀ left right, text = left ++ right → right.head? = some '{' →
    left.getLast? ≠ some '{' → Quiet copy.alphabet.isWord (actionIds copy.alphabet)
        (copy.withWords left) (copy.withWords right)

section Streams

variable {copy : Copy} {pieces : List Text} {text : Text}

theorem unlisted_space (streamable : Streamable copy text) {space : Char}
    (isSpace : isPySpace space) (word : Text) (listed : (listedWords copy.words).Listed word) :
    space ∉ word := by
  intro member
  have apart := streamable.spaceless word listed space member
  exact absurd (apart.symm.trans isSpace) Bool.false_ne_true

theorem action_space {alphabet : Alphabet} {space : Char} (isSpace : isPySpace space)
    (word : Text) (listed : (actionIds alphabet).Listed word) : space ∉ word := by
  rcases listed with ⟨digits, _, all, rfl⟩
  intro member
  rcases List.mem_append.mp member with mark | digit
  · have none : actionMark.all fun letter => !isPySpace letter := by decide
    have apart := List.all_eq_true.mp none space mark
    rw [isSpace] at apart
    cases apart
  · have isWord := alphabet.digit_word space (all space digit)
    exact absurd ((alphabet.space_apart space isSpace).symm.trans isWord) Bool.false_ne_true

theorem withWords_space (streamable : Streamable copy text) {front : Text} {space : Char}
    (isSpace : isPySpace space) (closed : BracesClosed front) :
    copy.withWords (front ++ [space]) = copy.withWords front ++ [space] := by
  have apart := isPySpace_apart isSpace
  have unlisted := unlisted_space streamable isSpace
  unfold Copy.withWords Copy.resolved
  rw [resolvedText_behind closed apart.1 apart.2, resolvedText_nil,
    replaceWords_append (quiet_before (copy.alphabet.space_apart space isSpace) unlisted),
    replaceWords_letter unlisted]

theorem exists_last {front back : List Text} (pieced : Pieced (front ++ back))
    (someFront : front ≠ []) (someBack : back ≠ []) :
    ∃ earlier piece, front = earlier ++ [piece] ∧ piece ≠ [] ∧ Cut piece back.flatten := by
  rcases eq_nil_or_concat front with empty | ⟨earlier, piece, rfl⟩
  · exact absurd empty someFront
  · rw [concat_eq_append] at pieced ⊢
    refine ⟨earlier, piece, rfl, ?_, ?_⟩
    · apply pieced.nonempty
      exact mem_append_left _ (mem_append_right _ mem_cons_self)
    · exact pieced.cut earlier piece back (append_assoc ..) someBack

theorem getLast?_flatten {earlier : List Text} {piece : Text} (nonempty : piece ≠ []) :
    (earlier ++ [piece]).flatten.getLast? = piece.getLast? := by
  rw [flatten_append, flatten_singleton, List.getLast?_append_of_ne_nil _ nonempty]

theorem withWords_additive (streamable : Streamable copy pieces.flatten)
    (pieced : Pieced pieces) : Additive copy.withWords pieces := by
  have additive := @resolved_additive copy pieces pieced
  apply additive.replaceWords
  intro front back split someFront someBack
  rw [split] at pieced streamable
  rcases exists_last pieced someFront someBack with ⟨earlier, piece, rfl, nonempty, isCut⟩
  rw [flatten_append] at streamable
  rcases isCut with ⟨inner, space, rfl, isSpace, closed⟩ | ⟨starts, last⟩
  · have apart := isPySpace_apart isSpace
    have ends : copy.resolved (inner ++ [space]) = copy.resolved inner ++ [space] := by
      unfold Copy.resolved
      rw [resolvedText_behind closed apart.1 apart.2, resolvedText_nil]
    rw [flatten_append, additive [] earlier [inner ++ [space]] back (by simpa using split),
      flatten_singleton, ends, ← append_assoc]
    exact quiet_behind (copy.alphabet.space_apart space isSpace) (unlisted_space streamable isSpace)
  · apply streamable.words _ _ rfl starts
    rw [getLast?_flatten nonempty]
    exact last

theorem cleaned_additive (streamable : Streamable copy pieces.flatten)
    (pieced : Pieced pieces) : Additive copy.cleaned pieces := by
  have additive := withWords_additive streamable pieced
  apply additive.replaceWords
  intro front back split someFront someBack
  rw [split] at pieced streamable
  rcases exists_last pieced someFront someBack with ⟨earlier, piece, rfl, nonempty, isCut⟩
  rw [flatten_append] at streamable
  rcases isCut with ⟨inner, space, rfl, isSpace, closed⟩ | ⟨starts, last⟩
  · rw [flatten_append, additive [] earlier [inner ++ [space]] back (by simpa using split),
      flatten_singleton, withWords_space streamable isSpace closed, ← append_assoc]
    exact quiet_behind (copy.alphabet.space_apart space isSpace) (action_space isSpace)
  · apply streamable.actions _ _ rfl starts
    rw [getLast?_flatten nonempty]
    exact last

end Streams

/-- What is known after some text was fed: the pieces sent so far, each ending at a
cut of what is left. -/
structure Fed (copy : Copy) (fed : Text) (thoughts : TurnThoughts) (pieces : List Text) : Prop where
  told : thoughts.told = pieces.map fun piece => .thought (copy.cleaned piece)
  whole : pieces.flatten ++ thoughts.pending = fed
  nonempty : ∀ piece ∈ pieces, piece ≠ []
  cut : ∀ front piece back, pieces = front ++ piece :: back →
    Cut piece (back.flatten ++ thoughts.pending)

section Runs

variable {copy : Copy} {fed : Text} {thoughts : TurnThoughts} {pieces : List Text}

theorem Fed.start : Fed copy [] {} [] where
  told := rfl
  whole := rfl
  nonempty := forall_mem_nil _
  cut := by
    intro front piece back split
    exact absurd split.symm (append_ne_nil_of_right_ne_nil _ (cons_ne_nil _ _))

/-- One chunk sends what is safe, or nothing. -/
theorem Fed.emit (state : Fed copy fed thoughts pieces) {chunk : Text}
    (uncanned : isCanned chunk = false) :
    ∃ further, Fed copy (fed ++ chunk) (copy.emitThoughtDelta thoughts chunk) further := by
  unfold Copy.emitThoughtDelta
  by_cases empty : chunk = []
  · rw [if_pos empty, empty, append_nil]
    exact ⟨pieces, state⟩
  · rw [if_neg empty, uncanned, if_neg Bool.false_ne_true]
    have spec := splitPending_spec (thoughts.pending ++ chunk)
    rcases splits : splitPending (thoughts.pending ++ chunk) with ⟨ready, pending⟩
    rw [splits] at spec
    rcases spec with ⟨same, ends⟩
    dsimp only at same ends ⊢
    by_cases nothing : ready = []
    · rw [if_pos nothing]
      rw [nothing, nil_append] at same
      refine ⟨pieces, state.told, ?_, state.nonempty, ?_⟩
      · show pieces.flatten ++ pending = fed ++ chunk
        rw [same, ← append_assoc, state.whole]
      · intro front piece back split
        show Cut piece (back.flatten ++ pending)
        rw [same, ← append_assoc]
        exact (state.cut front piece back split).append chunk
    · rw [if_neg nothing]
      refine ⟨pieces ++ [ready], ?_, ?_, ?_, ?_⟩
      · show thoughts.told ++ _ = _
        rw [state.told, map_append]
        rfl
      · show (pieces ++ [ready]).flatten ++ pending = fed ++ chunk
        rw [flatten_append, flatten_singleton, append_assoc, same, ← append_assoc, state.whole]
      · intro piece member
        rcases List.mem_append.mp member with old | new
        · exact state.nonempty piece old
        · exact List.mem_singleton.mp new ▸ nothing
      · intro front piece back split
        show Cut piece (back.flatten ++ pending)
        rcases eq_nil_or_concat back with isLast | ⟨between, last, isBack⟩
        · rw [isLast] at split ⊢
          have parts := append_inj' split rfl
          rw [← (List.cons.inj parts.2).1]
          exact ends nothing
        · rw [concat_eq_append] at isBack
          rw [isBack, ← cons_append, ← append_assoc] at split
          have parts := append_inj' split rfl
          rw [isBack, ← (List.cons.inj parts.2).1, flatten_append,
            flatten_singleton, append_assoc, same, ← append_assoc]
          exact (state.cut front piece between parts.1).append chunk

theorem Fed.stream (chunks : List Text) (state : Fed copy fed thoughts pieces)
    (uncanned : ∀ chunk ∈ chunks, isCanned chunk = false) :
    ∃ further, Fed copy (fed ++ chunks.flatten)
      (chunks.foldl copy.emitThoughtDelta thoughts) further := by
  induction chunks generalizing fed thoughts pieces with
  | nil =>
    rw [flatten_nil, append_nil]
    exact ⟨pieces, state⟩
  | cons chunk chunks rest =>
    rcases state.emit (uncanned chunk mem_cons_self) with ⟨further, next⟩
    rw [flatten_cons, ← append_assoc]
    apply rest next
    intro later member
    exact uncanned later (mem_cons_of_mem _ member)

theorem thoughtText_pieces (pieces : List Text) :
    thoughtText (pieces.map fun piece => .thought (copy.cleaned piece)) =
      pieces.flatMap copy.cleaned := by
  unfold thoughtText
  rw [flatMap_map]

theorem thoughtText_append (first second : List Told) :
    thoughtText (first ++ second) = thoughtText first ++ thoughtText second :=
  flatMap_append

theorem Fed.finish (state : Fed copy fed thoughts pieces) :
    ∃ sent, Pieced sent ∧ sent.flatten = fed ∧
      thoughtText (copy.finishThought thoughts).told = sent.flatMap copy.cleaned := by
  unfold Copy.finishThought Copy.flushPending
  dsimp only
  by_cases empty : thoughts.pending = []
  · refine ⟨pieces, ⟨state.nonempty, ?_⟩, ?_, ?_⟩
    · intro front piece back split _
      have isCut := state.cut front piece back split
      rw [empty, append_nil] at isCut
      exact isCut
    · have whole := state.whole
      rw [empty, append_nil] at whole
      exact whole
    · rw [if_pos empty, thoughtText_append, state.told, thoughtText_pieces]
      exact append_nil _
  · refine ⟨pieces ++ [thoughts.pending], ⟨?_, ?_⟩, ?_, ?_⟩
    · intro piece member
      rcases List.mem_append.mp member with old | new
      · exact state.nonempty piece old
      · exact List.mem_singleton.mp new ▸ empty
    · intro front piece back split someBack
      rcases eq_nil_or_concat back with isLast | ⟨between, last, isBack⟩
      · exact absurd isLast someBack
      · rw [concat_eq_append] at isBack
        rw [isBack, ← cons_append, ← append_assoc] at split
        have parts := append_inj' split rfl
        rw [isBack, ← (List.cons.inj parts.2).1, flatten_append, flatten_singleton]
        exact state.cut front piece between parts.1
    · rw [flatten_append, flatten_singleton]
      exact state.whole
    · rw [if_neg empty]
      show thoughtText ((thoughts.told ++ [.thought (copy.cleaned thoughts.pending)]) ++
        [.finished]) = _
      rw [thoughtText_append, thoughtText_append, state.told, thoughtText_pieces, flatMap_append]
      exact append_nil _

theorem stream_eq_cleaned {text : Text} (streamable : Streamable copy text)
    {chunks : List Text} (whole : chunks.flatten = text)
    (uncanned : ∀ chunk ∈ chunks, isCanned chunk = false) :
    thoughtText (copy.stream chunks).told = copy.cleaned text := by
  rcases Fed.start.stream chunks uncanned with ⟨pieces, state⟩
  rcases state.finish with ⟨sent, pieced, same, told⟩
  rw [nil_append, whole] at same
  rw [← same] at streamable
  rw [← same, (cleaned_additive streamable pieced).flatMap]
  exact told

end Runs

/-- A text cut into chunks, none of them a canned line. -/
structure Cutting (text : Text) where
  chunks : List Text
  whole : chunks.flatten = text
  uncanned : ∀ chunk ∈ chunks, isCanned chunk = false

/--
The thoughts of a streamable text do not depend on how the provider cut it.
-/
theorem stream_cutting (copy : Copy) (text : Text) (single : isCanned text = false)
    (streamable : Streamable copy text) (cutting : Cutting text) :
    thoughtText (copy.stream cutting.chunks).told = thoughtText (copy.stream [text]).told := by
  rw [stream_eq_cleaned streamable cutting.whole cutting.uncanned]
  apply Eq.symm
  apply stream_eq_cleaned streamable
  · exact flatten_singleton
  · intro chunk member
    exact List.mem_singleton.mp member ▸ single

/-- A text is streamable when each of its brace groups stands behind a whitespace. -/
theorem streamable_of_spaced {copy : Copy} {text : Text}
    (spaceless : ∀ word, (listedWords copy.words).Listed word →
      ∀ letter ∈ word, isPySpace letter = false)
    (spaced : ∀ left right, text = left ++ right → right.head? = some '{' →
      left.getLast? ≠ some '{' → left = [] ∨
        ∃ front space, left = front ++ [space] ∧ isPySpace space ∧ BracesClosed front) :
    Streamable copy text := by
  have free : Streamable copy [] := by
    refine ⟨spaceless, ?_, ?_⟩
    · intro left right split starts
      rw [(List.append_eq_nil_iff.mp split.symm).2] at starts
      cases starts
    · intro left right split starts
      rw [(List.append_eq_nil_iff.mp split.symm).2] at starts
      cases starts
  refine ⟨spaceless, ?_, ?_⟩
  · intro left right split starts last
    rcases spaced left right split starts last with rfl | ⟨front, space, rfl, isSpace, closed⟩
    · exact quiet_start
    · have apart := isPySpace_apart isSpace
      have ends : copy.resolved (front ++ [space]) = copy.resolved front ++ [space] := by
        unfold Copy.resolved
        rw [resolvedText_behind closed apart.1 apart.2, resolvedText_nil]
      rw [ends]
      exact quiet_behind (copy.alphabet.space_apart space isSpace) (unlisted_space free isSpace)
  · intro left right split starts last
    rcases spaced left right split starts last with rfl | ⟨front, space, rfl, isSpace, closed⟩
    · exact quiet_start
    · rw [withWords_space free isSpace closed]
      exact quiet_behind (copy.alphabet.space_apart space isSpace) (action_space isSpace)

def isAsciiWord (letter : Char) : Bool :=
  letter.isAlphanum || letter == '_'

theorem asciiWord_code {letter : Char} (isWord : isAsciiWord letter = true) :
    48 ≤ letter.toNat ∧ letter.toNat ≤ 122 := by
  have between {low high : UInt32} (range : letter.val ≥ low ∧ letter.val ≤ high) :
      low.toNat ≤ letter.toNat ∧ letter.toNat ≤ high.toNat :=
    ⟨UInt32.le_iff_toNat_le.mp range.1, UInt32.le_iff_toNat_le.mp range.2⟩
  have decided {low high : UInt32} (range : (letter.val ≥ low && letter.val ≤ high) = true) :
      letter.val ≥ low ∧ letter.val ≤ high :=
    (Bool.and_eq_true_iff.mp range).imp of_decide_eq_true of_decide_eq_true
  rcases Bool.or_eq_true_iff.mp isWord with alphanumeric | underscore
  · rcases Bool.or_eq_true_iff.mp alphanumeric with alphabetic | digit
    · rcases Bool.or_eq_true_iff.mp alphabetic with upper | lower
      · have inside : 65 ≤ letter.toNat ∧ letter.toNat ≤ 90 := between (of_decide_eq_true upper)
        omega
      · have inside : 97 ≤ letter.toNat ∧ letter.toNat ≤ 122 := between (decided lower)
        omega
    · have inside : 48 ≤ letter.toNat ∧ letter.toNat ≤ 57 := between (decided digit)
      omega
  · rw [eq_of_beq underscore]
    decide

theorem pySpace_code {letter : Char} (isSpace : isPySpace letter = true) :
    letter.toNat < 48 ∨ 122 < letter.toNat := by
  unfold isPySpace at isSpace
  simp only [Bool.or_eq_true, decide_eq_true_eq, contains_iff_mem, mem_cons,
    not_mem_nil, or_false] at isSpace
  omega

def asciiAlphabet : Alphabet where
  isWord := isAsciiWord
  isDigit := Char.isDigit
  ascii_word := fun _ _ => rfl
  ascii_digit := fun _ _ => rfl
  digit_word := by
    intro letter isDigit
    show (letter.isAlpha || letter.isDigit || letter == '_') = true
    rw [isDigit, Bool.or_true]
    rfl
  space_apart := by
    intro letter isSpace
    apply Bool.eq_false_iff.mpr
    intro isWord
    have within := asciiWord_code isWord
    have outside := pySpace_code isSpace
    omega

/-- The words every viewer shares, and no page. -/
def sharedCopy : Copy where
  alphabet := asciiAlphabet
  words := { entries := [], nonempty := forall_mem_nil _ }
  slotLabels := []

theorem sharedCopy_spaceless (word : Text) (listed : (listedWords sharedCopy.words).Listed word) :
    ∀ letter ∈ word, isPySpace letter = false := by
  have none : ((table sharedCopy.words).map letters).all
      fun entry => entry.1.all fun letter => !isPySpace letter := by
    decide +kernel
  rcases List.mem_map.mp listed with ⟨entry, member, rfl⟩
  intro letter inside
  have apart := List.all_eq_true.mp (List.all_eq_true.mp none entry member) letter inside
  exact Bool.not_eq_true' _ |>.mp apart

def spacedText : Text :=
  "see \x7bx\x7d act-1".toList

def spacedCutting : Cutting spacedText where
  chunks := ["see \x7bx".toList, "\x7d act-".toList, "1".toList]
  whole := by decide
  uncanned := by decide

theorem spacedText_streamable : Streamable sharedCopy spacedText := by
  apply streamable_of_spaced sharedCopy_spaceless
  intro left right split starts _
  right
  have place : left.length = 4 := by
    have brace : spacedText[left.length]? = some '{' := by
      rw [split, List.getElem?_append_right (Nat.le_refl _), Nat.sub_self, ← List.head?_eq_getElem?]
      exact starts
    have within : left.length < spacedText.length := (List.getElem?_eq_some_iff.mp brace).1
    have only : ∀ n < spacedText.length, spacedText[n]? = some '{' → n = 4 := by
      decide
    exact only left.length within brace
  have isLeft : left = "see ".toList := by
    have front := congrArg (List.take 4) split
    rw [take_left' place] at front
    exact front.symm
  refine ⟨"see".toList, ' ', isLeft, by decide, ?_⟩
  intro back isBack brace
  have none : '{' ∉ "see".toList := by decide
  exact absurd (isBack.subset (mem_of_mem_head? brace)) none

theorem stream_cutting_spaced : thoughtText (sharedCopy.stream spacedCutting.chunks).told =
      thoughtText (sharedCopy.stream [spacedText]).told :=
  stream_cutting sharedCopy spacedText (by decide) spacedText_streamable spacedCutting

/-- A listed word that goes on behind a slot, cut inside the slot. -/
def parted : Text :=
  "claim\x7b\x7bpage:x\x7d\x7d_type ".toList

def partedCutting : Cutting parted where
  chunks := ["claim\x7b\x7bpage:x".toList, "\x7d\x7d_type ".toList]
  whole := by decide
  uncanned := by decide

theorem parted_depends_on_cut : isCanned parted = false ∧
      thoughtText (sharedCopy.stream partedCutting.chunks).told ≠
        thoughtText (sharedCopy.stream [parted]).told := by
  decide +kernel

end McpAssistant.Services.CoordinatorThoughts
