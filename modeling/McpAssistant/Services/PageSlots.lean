import McpAssistant.BusinessQuery.Visibility
import McpAssistant.Foundations.Dictionaries
import McpAssistant.Foundations.Rewriting
import Mathlib.Data.List.TakeWhile

/-!
# Page slots

The model writes a page as a slot, `{{page:invoices.index}}`.  Before a reader
sees the text, every slot becomes the label of its page, with a link when the
page is offered, and a slot that names no page is removed.  The text is read
once: what stands after a rewrite is not read again.

The text behind a slot is what it was, and a link leads only to a page the
viewer may open.  No slot is left in the text unless a label holds one or an
opener is spelled across a place where a slot was taken out.
-/

namespace McpAssistant.Services.PageSlots

open BusinessQuery.Visibility
open Foundations.Rewriting
open Foundations List

abbrev Text := List Char

inductive DestinationKind
  | page
  | action
deriving DecidableEq, Repr

inductive PermissionMode
  | any
  | all
deriving DecidableEq, Repr

structure UiDestination where
  key : String
  kind : DestinationKind
  label : String
  href : String
  linkPermissions : List String := []
  linkPermissionMode : PermissionMode := .any
deriving DecidableEq, Repr

structure UiLink where
  key : String
  kind : DestinationKind
  label : String
  href : String
deriving DecidableEq, Repr

/-- ASCII controls. -/
def isControl (letter : Char) : Bool :=
  letter.toNat ≤ 0x1f || letter.toNat == 0x7f

/-- Exactly one leading slash, no backslash, no control. -/
def isSafeSameOriginPath (url : String) : Bool :=
  match url.toList with
  | '/' :: rest =>
    rest.head? != some '/' && !rest.contains '\\' && !rest.any isControl
  | _ => false

/-- No grants at all fail closed. -/
def grantsSatisfied (grants : List String) (mode : PermissionMode) (principal : Principal) : Bool :=
  !grants.isEmpty &&
    match mode with
    | .all => grants.all principal.permissions.contains
    | .any => grants.any principal.permissions.contains

def permittedDestinations (destinations : List UiDestination)
    (principal : Principal) : List UiDestination :=
  destinations.filter fun page =>
    isSafeSameOriginPath page.href &&
      grantsSatisfied page.linkPermissions page.linkPermissionMode principal

/-- What slots are resolved against: the pages offered to a viewer, who may open
every one of them, and the label of each known page. -/
structure SlotContext (destinations : List UiDestination) (principal : Principal) where
  offered : List UiDestination
  labels : List (String × String)
  permitted : ∀ page ∈ offered, page ∈ permittedDestinations destinations principal

/-- The pages an observation of the turn named, and a label for every page. -/
def pageSlotContext (destinations : List UiDestination) (principal : Principal)
    (offeredKeys : List String) : SlotContext destinations principal where
  offered := (permittedDestinations destinations principal).filter fun page =>
    offeredKeys.contains page.key
  labels := Dictionaries.ofPairs (destinations.map fun page => (page.key, page.label))
  permitted := fun _ member => mem_of_mem_filter member

/-! ## Openers, keys and closers -/

def isBlank (letter : Char) : Bool :=
  letter == ' ' || letter == '\t'

/-- How many blanks a text starts with. -/
def blanks (text : Text) : Nat :=
  (text.takeWhile isBlank).length

/-- `page[ \t]*:` at the start of a text, in any case: how many letters it has. -/
def pageHint (text : Text) : Option Nat :=
  let behind := text.drop 4
  if (text.take 4).map Char.toLower = ['p', 'a', 'g', 'e'] &&
      (behind.dropWhile isBlank).head? == some ':'
  then some (4 + blanks behind + 1)
  else none

def openerBehind (braces : Nat) (text : Text) : Option Nat :=
  let word := text.dropWhile isBlank
  (pageHint word).map fun hint =>
    braces + blanks text + hint + blanks (word.drop hint)

/-- `\x7b\x7b?[ \t]*page[ \t]*:[ \t]*` at the start of a text. -/
def slotOpen : Text → Option Nat
  | '{' :: '{' :: text => openerBehind 2 text
  | '{' :: text => openerBehind 1 text
  | _ => none

def isKeyLetter (letter : Char) : Bool :=
  letter.isAlphanum

def isKeyMark (letter : Char) : Bool :=
  letter == '.' || letter == '_' || letter == '-'

/-- How far a key goes on behind one of its letters: a mark belongs to it only
with a letter after it. -/
def keyTail : Text → Nat
  | first :: second :: text =>
    if isKeyLetter first then 1 + keyTail (second :: text)
    else if isKeyMark first && isKeyLetter second then 2 + keyTail text
    else 0
  | [last] => if isKeyLetter last then 1 else 0
  | [] => 0

def keyLength : Text → Nat
  | first :: text => if isKeyLetter first then 1 + keyTail text else 0
  | [] => 0

/-- What stands before the first closing brace, when that is on the same line and
no brace group starts before it. -/
def beforeCloser (text : Text) : Option Text :=
  let between := text.takeWhile (· != '}')
  if between.length == text.length || between.contains '\n' || between.contains '{'
  then none
  else some between

/-- Behind the closer, and behind a second one right after it. -/
def closerEnd (text between : Text) : Nat :=
  between.length + 1 + if text[between.length + 1]? == some '}' then 1 else 0

/-- `strip(" \t")`. -/
def stripBlanks (text : Text) : Text :=
  ((text.dropWhile isBlank).reverse.dropWhile isBlank).reverse

def holdsPageHint (text : Text) : Bool :=
  text.tails.any fun tail => (pageHint tail).isSome

def knownSlotEnd (behindKey : Text) : Nat :=
  match beforeCloser behindKey with
  | none => 0
  | some between =>
    if (stripBlanks between).any isBlank && !holdsPageHint between then 0
    else closerEnd behindKey between

def hasCloserAfterKey (behindKey : Text) : Bool :=
  (behindKey.dropWhile isBlank).head? == some '}'

def malformedSlotEnd (behindOpener : Text) (keyEnd : Nat) : Nat :=
  match beforeCloser behindOpener with
  | none => keyEnd
  | some between => closerEnd behindOpener between

inductive Slot
  | linked (page : UiDestination)
  | labelOnly (label : String)
  | removed
  | guardStripped
deriving DecidableEq, Repr

def Slot.shown : Slot → Text
  | .linked page => page.label.toList
  | .labelOnly label => label.toList
  | .removed | .guardStripped => []

section Resolve

variable (offered : List UiDestination) (labels : List (String × String))

def byKey : List (String × UiDestination) :=
  Dictionaries.ofPairs (offered.map fun page => (page.key, page))

/-- The slot behind an opener, with how many letters belong to it. -/
def readSlot (behindOpener : Text) : Nat × Slot :=
  let keyEnd := keyLength behindOpener
  let key := String.ofList ((behindOpener.take keyEnd).map Char.toLower)
  let behindKey := behindOpener.drop keyEnd
  if keyEnd = 0 then
    (malformedSlotEnd behindOpener keyEnd, .guardStripped)
  else
    match Dictionaries.lookup (byKey offered) key, Dictionaries.lookup labels key with
    | some page, _ => (keyEnd + knownSlotEnd behindKey, .linked page)
    | none, some label => (keyEnd + knownSlotEnd behindKey, .labelOnly label)
    | none, none =>
      (malformedSlotEnd behindOpener keyEnd,
        if hasCloserAfterKey behindKey then .removed else .guardStripped)

/-- A letter is kept unless the cursor is ahead of it. -/
def keep (ahead : Nat) (letter : Char) (pieces : Pieces Char Slot) : Pieces Char Slot :=
  if ahead = 0 then .inl letter :: pieces else pieces

/--
The loop over the openers.  `opening` letters are left of the opener found last,
behind which the search goes on; the cursor is `ahead` letters ahead of it.  An
opener that starts before the cursor is passed over.
-/
def slotsFrom : Nat → Nat → Text → Pieces Char Slot
  | _, _, [] => []
  | opening + 1, ahead, letter :: text =>
    keep ahead letter (slotsFrom opening (ahead - 1) text)
  | 0, ahead, letter :: text =>
    match slotOpen (letter :: text) with
    | none => keep ahead letter (slotsFrom 0 (ahead - 1) text)
    | some opener =>
      if ahead = 0 then
        let (length, slot) := readSlot offered labels ((letter :: text).drop opener)
        .inr slot :: slotsFrom (opener - 1) (opener + length - 1) text
      else keep ahead letter (slotsFrom (opener - 1) (ahead - 1) text)

structure SlotResolution where
  text : Text
  links : List UiLink
  linked : Nat
  labelOnly : Nat
  removed : Nat
  guardStripped : Nat
deriving DecidableEq, Repr

/-- `links.setdefault`: the first link to a page stays. -/
def addLink (links : List UiLink) : Slot → List UiLink
  | .linked page =>
    if links.any (·.key == page.key) then links
    else links ++ [{ key := page.key, kind := page.kind, label := page.label,
                     href := page.href }]
  | _ => links

def resolvePageSlots (text : Text) : SlotResolution :=
  let pieces := slotsFrom offered labels 0 0 text
  let slots := pieces.filterMap Sum.getRight?
  { text := textOf Slot.shown pieces
    links := slots.foldl addLink []
    linked := slots.countP fun slot => match slot with | .linked _ => true | _ => false
    labelOnly :=
      slots.countP fun slot => match slot with | .labelOnly _ => true | _ => false
    removed := slots.countP (· == .removed)
    guardStripped := slots.countP (· == .guardStripped) }

end Resolve

section Runs

variable {keeps : Char → Bool} {run rest : Text} {letter : Char}

theorem takeWhile_run (within : ∀ other ∈ run, keeps other) (stops : keeps letter = false) :
    (run ++ letter :: rest).takeWhile keeps = run := by
  rw [takeWhile_append_of_pos within, takeWhile_cons, stops]
  exact append_nil run

theorem dropWhile_run (within : ∀ other ∈ run, keeps other) (stops : keeps letter = false) :
    (run ++ letter :: rest).dropWhile keeps = letter :: rest := by
  rw [dropWhile_append_of_pos within, dropWhile_cons, stops]
  rfl

end Runs

theorem blanks_le (text : Text) : blanks text ≤ text.length :=
  (List.takeWhile_prefix isBlank).length_le

variable {text : Text} {hint : Nat}

theorem pageHint_eq_some : pageHint text = some hint ↔
      ∃ word gap rest : Text, text = word ++ (gap ++ ':' :: rest) ∧
        word.map Char.toLower = ['p', 'a', 'g', 'e'] ∧
        (∀ letter ∈ gap, isBlank letter) ∧ hint = 4 + gap.length + 1 := by
  constructor
  · intro found
    unfold pageHint at found
    dsimp only at found
    split at found
    · next reads =>
        rcases Bool.and_eq_true_iff.mp reads with ⟨word, colon⟩
        rcases List.head?_eq_some_iff.mp (eq_of_beq colon) with ⟨rest, isRest⟩
        refine ⟨text.take 4, (text.drop 4).takeWhile isBlank, rest, ?_,
          of_decide_eq_true word, ?_, (Option.some.inj found).symm⟩
        · rw [← isRest, takeWhile_append_dropWhile, take_append_drop]
        · intro letter member
          exact mem_takeWhile_imp member
    · cases found
  · rintro ⟨word, gap, rest, rfl, isWord, blank, rfl⟩
    have four : word.length = 4 := by
      rw [← length_map Char.toLower, isWord]
      rfl
    have behind : (word ++ (gap ++ ':' :: rest)).drop 4 = gap ++ ':' :: rest := drop_left' four
    have front : (word ++ (gap ++ ':' :: rest)).take 4 = word := take_left' four
    unfold pageHint
    simp only [behind, front]
    rw [if_pos]
    · unfold blanks
      rw [takeWhile_run blank rfl]
    · rw [dropWhile_run blank rfl, decide_eq_true isWord]
      rfl

theorem pageHint_append (rest : Text)
    (found : pageHint text = some hint) : pageHint (text ++ rest) = some hint := by
  rcases pageHint_eq_some.mp found with ⟨word, gap, tail, rfl, isWord, blank, isHint⟩
  apply pageHint_eq_some.mpr
  refine ⟨word, gap, tail ++ rest, ?_, isWord, blank, isHint⟩
  simp only [append_assoc, cons_append]

theorem pageHint_le (found : pageHint text = some hint) : hint ≤ text.length := by
  rcases pageHint_eq_some.mp found with ⟨word, gap, rest, rfl, isWord, _, rfl⟩
  have four : word.length = 4 := by
    rw [← length_map Char.toLower, isWord]
    rfl
  simp only [length_append, length_cons, four]
  omega

/-- Blanks, `page`, blanks and a colon: what stands behind the braces. -/
def IsOpening (word : Text) : Prop :=
  ∃ gap page space : Text, word = gap ++ (page ++ (space ++ [':'])) ∧
    (∀ letter ∈ gap, isBlank letter) ∧ page.map Char.toLower = ['p', 'a', 'g', 'e'] ∧
    ∀ letter ∈ space, isBlank letter

/-- An opener in the shortest form: one brace or two, and what stands behind. -/
def IsOpener (word : Text) : Prop :=
  ∃ opening, IsOpening opening ∧ (word = '{' :: opening ∨ word = '{' :: '{' :: opening)

variable {letter : Char}

theorem not_blank_of_page (isPage : letter.toLower = 'p') : isBlank letter = false := by
  apply Bool.eq_false_iff.mpr
  intro blank
  rcases Bool.or_eq_true_iff.mp blank with isSpace | isTab
  · rw [eq_of_beq isSpace] at isPage
    exact absurd isPage (by decide)
  · rw [eq_of_beq isTab] at isPage
    exact absurd isPage (by decide)

theorem openerBehind_isSome {braces : Nat} : (openerBehind braces text).isSome ↔
      ∃ opening rest, IsOpening opening ∧ text = opening ++ rest := by
  unfold openerBehind
  rw [Option.isSome_map, Option.isSome_iff_exists]
  constructor
  · rintro ⟨hint, found⟩
    rcases pageHint_eq_some.mp found with ⟨page, space, rest, split, isPage, blank, _⟩
    refine ⟨text.takeWhile isBlank ++ (page ++ (space ++ [':'])), rest,
      ⟨_, page, space, rfl, ?_, isPage, blank⟩, ?_⟩
    · intro letter member
      exact mem_takeWhile_imp member
    · have whole : text.takeWhile isBlank ++ text.dropWhile isBlank = text :=
        takeWhile_append_dropWhile
      rw [split] at whole
      apply whole.symm.trans
      simp only [append_assoc, cons_append, nil_append]
  · rintro ⟨opening, rest, ⟨gap, page, space, rfl, blank, isPage, between⟩, rfl⟩
    rcases page with _ | ⟨first, page⟩
    · cases isPage
    · have stops := not_blank_of_page (List.cons.inj isPage).1
      refine ⟨_, pageHint_eq_some.mpr ⟨first :: page, space, rest, ?_, isPage, between, rfl⟩⟩
      simp only [append_assoc, cons_append, nil_append]
      exact dropWhile_run blank stops

theorem openerBehind_le {braces : Nat} {opener : Nat}
    (found : openerBehind braces text = some opener) :
    braces < opener ∧ opener ≤ braces + text.length := by
  rcases Option.map_eq_some_iff.mp found with ⟨hint, isHint, rfl⟩
  have within := pageHint_le isHint
  have rest := blanks_le ((text.dropWhile isBlank).drop hint)
  rcases pageHint_eq_some.mp isHint with ⟨_, _, _, _, _, _, positive⟩
  have parts := congrArg List.length (takeWhile_append_dropWhile (p := isBlank) (l := text))
  rw [length_append] at parts
  rw [length_drop] at rest
  unfold blanks at rest ⊢
  omega

theorem slotOpen_cons (text : Text) : slotOpen ('{' :: text) =
      if text.head? = some '{' then openerBehind 2 text.tail else openerBehind 1 text := by
  rcases text with _ | ⟨first, text⟩
  · rfl
  · by_cases second : first = '{'
    · subst second
      rfl
    · have other : (first :: text).head? ≠ some '{' := by
        intro same
        exact second (Option.some.inj same)
      rw [if_neg other]
      unfold slotOpen
      split
      · next same => exact absurd (List.cons.inj (List.cons.inj same).2).1 second
      · next same => rw [(List.cons.inj same).2]
      · next none => exact absurd rfl (none _)

theorem exists_of_slotOpen {opener : Nat} (found : slotOpen text = some opener) :
    (∃ rest, text = '{' :: rest) ∧ 0 < opener ∧ opener ≤ text.length := by
  rcases text with _ | ⟨first, text⟩
  · cases found
  · by_cases brace : first = '{'
    · subst brace
      rw [slotOpen_cons] at found
      refine ⟨⟨text, rfl⟩, ?_⟩
      split at found
      · next second =>
          rcases List.head?_eq_some_iff.mp second with ⟨rest, rfl⟩
          have bounds := openerBehind_le found
          simp only [tail_cons, length_cons] at bounds ⊢
          omega
      · have bounds := openerBehind_le found
        rw [length_cons]
        omega
    · unfold slotOpen at found
      split at found
      · next same => exact absurd (List.cons.inj same).1 brace
      · next same => exact absurd (List.cons.inj same).1 brace
      · cases found

theorem isOpening_head {opening : Text} (isOpening : IsOpening opening) :
    opening.head? ≠ some '{' := by
  rcases isOpening with ⟨gap, page, space, rfl, blank, isPage, _⟩
  rcases gap with _ | ⟨first, gap⟩
  · rcases page with _ | ⟨first, page⟩
    · cases isPage
    · intro isBrace
      have first := Option.some.inj isBrace
      have isP := (List.cons.inj isPage).1
      rw [first] at isP
      exact absurd isP (by decide)
  · intro isBrace
    have isBlank := blank first mem_cons_self
    rw [Option.some.inj isBrace] at isBlank
    exact absurd isBlank (by decide)

theorem slotOpen_isSome :
    (slotOpen text).isSome ↔ ∃ word rest, IsOpener word ∧ text = word ++ rest := by
  constructor
  · intro opens
    rcases Option.isSome_iff_exists.mp opens with ⟨opener, found⟩
    rcases (exists_of_slotOpen found).1 with ⟨rest, rfl⟩
    rw [slotOpen_cons] at opens
    split at opens
    · next second =>
        rcases List.head?_eq_some_iff.mp second with ⟨behind, rfl⟩
        rcases openerBehind_isSome.mp opens with ⟨opening, tail, isOpening, split⟩
        refine ⟨'{' :: '{' :: opening, tail, ⟨opening, isOpening, .inr rfl⟩, ?_⟩
        exact congrArg ('{' :: '{' :: ·) split
    · rcases openerBehind_isSome.mp opens with ⟨opening, tail, isOpening, split⟩
      exact ⟨'{' :: opening, tail, ⟨opening, isOpening, .inl rfl⟩, congrArg ('{' :: ·) split⟩
  · rintro ⟨word, rest, ⟨opening, isOpening, isWord⟩, rfl⟩
    have nonempty : opening ≠ [] := by
      rcases isOpening with ⟨gap, page, space, rfl, _⟩
      simp
    rcases isWord with rfl | rfl
    · rw [cons_append, slotOpen_cons, List.head?_append_of_ne_nil _ nonempty,
        if_neg (isOpening_head isOpening)]
      exact openerBehind_isSome.mpr ⟨opening, rest, isOpening, rfl⟩
    · show (slotOpen ('{' :: '{' :: (opening ++ rest))).isSome
      exact openerBehind_isSome.mpr ⟨opening, rest, isOpening, rfl⟩

/-- A letter inside a slot, behind its opener. -/
def Inside (letter : Char) : Prop :=
  letter ≠ '{' ∧ letter ≠ '\n'

theorem inside_of_keyLetter (isKey : isKeyLetter letter = true) : Inside letter := by
  constructor
  · rintro rfl
    exact absurd isKey (by decide)
  · rintro rfl
    exact absurd isKey (by decide)

theorem inside_of_keyMark (isMark : isKeyMark letter = true) : Inside letter := by
  constructor
  · rintro rfl
    exact absurd isMark (by decide)
  · rintro rfl
    exact absurd isMark (by decide)

theorem keyTail_inside (text : Text) :
    keyTail text ≤ text.length ∧ ∀ letter ∈ text.take (keyTail text), Inside letter := by
  fun_induction keyTail text with
  | case1 first second text isKey rest =>
    rw [Nat.add_comm, take_succ_cons]
    refine ⟨Nat.succ_le_succ rest.1, List.forall_mem_cons.mpr ⟨?_, rest.2⟩⟩
    exact inside_of_keyLetter isKey
  | case2 first second text _ isMark rest =>
    rcases Bool.and_eq_true_iff.mp isMark with ⟨mark, isKey⟩
    rw [Nat.add_comm, take_succ_cons, take_succ_cons]
    refine ⟨Nat.succ_le_succ (Nat.succ_le_succ rest.1), List.forall_mem_cons.mpr
      ⟨inside_of_keyMark mark, List.forall_mem_cons.mpr ⟨?_, rest.2⟩⟩⟩
    exact inside_of_keyLetter isKey
  | case3 => exact ⟨Nat.zero_le _, forall_mem_nil _⟩
  | case4 last isKey =>
    refine ⟨Nat.le_refl 1, List.forall_mem_singleton.mpr ?_⟩
    exact inside_of_keyLetter isKey
  | case5 => exact ⟨Nat.zero_le _, forall_mem_nil _⟩
  | case6 => exact ⟨Nat.le_refl 0, forall_mem_nil _⟩

theorem keyLength_inside (text : Text) : keyLength text ≤ text.length ∧
      ∀ letter ∈ text.take (keyLength text), Inside letter := by
  rcases text with _ | ⟨first, text⟩
  · exact ⟨Nat.le_refl 0, forall_mem_nil _⟩
  · rw [keyLength]
    split
    · next isKey =>
        have rest := keyTail_inside text
        rw [Nat.add_comm, take_succ_cons]
        refine ⟨Nat.succ_le_succ rest.1, List.forall_mem_cons.mpr ⟨?_, rest.2⟩⟩
        exact inside_of_keyLetter isKey
    · exact ⟨Nat.zero_le _, forall_mem_nil _⟩

theorem beforeCloser_eq_some {between : Text} (found : beforeCloser text = some between) :
    (∀ letter ∈ between, Inside letter) ∧ ∃ rest, text = between ++ '}' :: rest := by
  unfold beforeCloser at found
  dsimp only at found
  split at found
  · cases found
  · next closes =>
      have isBetween := Option.some.inj found
      rw [isBetween] at closes
      simp only [Bool.or_eq_true, not_or, beq_iff_eq, contains_iff_mem] at closes
      rcases closes with ⟨⟨shorter, line⟩, brace⟩
      constructor
      · intro letter member
        constructor
        · rintro rfl
          exact brace member
        · rintro rfl
          exact line member
      · have parts := takeWhile_append_dropWhile (p := (· != '}')) (l := text)
        rw [isBetween] at parts
        rcases isRest : text.dropWhile (· != '}') with _ | ⟨first, rest⟩
        · rw [isRest, append_nil] at parts
          exact absurd (congrArg List.length parts) shorter
        · have closer := head_dropWhile_not (· != '}') (l := text) (by simp [isRest])
          simp only [isRest, head_cons, bne_eq_false_iff_eq] at closer
          rw [isRest, closer] at parts
          exact ⟨rest, parts.symm⟩

theorem closerEnd_inside {between : Text} (found : beforeCloser text = some between) :
    closerEnd text between ≤ text.length ∧
      ∀ letter ∈ text.take (closerEnd text between), Inside letter := by
  rcases beforeCloser_eq_some found with ⟨within, rest, rfl⟩
  have closer : Inside '}' := by
    constructor <;> decide
  unfold closerEnd
  have behind : (between ++ '}' :: rest)[between.length + 1]? = rest.head? := by
    rw [List.getElem?_append_right (Nat.le_succ _)]
    show ('}' :: rest)[between.length + 1 - between.length]? = rest.head?
    rw [Nat.add_sub_cancel_left]
    exact List.head?_eq_getElem?.symm
  rw [behind]
  have front : ∀ more, (between ++ '}' :: rest).take (between.length + 1 + more) =
      between ++ '}' :: rest.take more := by
    intro more
    rw [Nat.add_assoc, take_length_add_append, Nat.add_comm, take_succ_cons]
  split
  · next second =>
      rcases List.head?_eq_some_iff.mp (eq_of_beq second) with ⟨tail, rfl⟩
      rw [front]
      constructor
      · simp only [length_append, length_cons]
        omega
      · intro letter member
        rcases List.mem_append.mp member with inside | inside
        · exact within letter inside
        · simp only [take_succ_cons, take_zero, mem_cons,
            not_mem_nil, or_false, or_self] at inside
          exact inside ▸ closer
  · rw [front]
    constructor
    · simp only [length_append, length_cons]
      omega
    · intro letter member
      rcases List.mem_append.mp member with inside | inside
      · exact within letter inside
      · exact List.mem_singleton.mp inside ▸ closer

theorem knownSlotEnd_inside (text : Text) : knownSlotEnd text ≤ text.length ∧
      ∀ letter ∈ text.take (knownSlotEnd text), Inside letter := by
  unfold knownSlotEnd
  rcases found : beforeCloser text with _ | between
  · exact ⟨Nat.zero_le _, forall_mem_nil _⟩
  · dsimp only
    split
    · exact ⟨Nat.zero_le _, forall_mem_nil _⟩
    · exact closerEnd_inside found

theorem malformedSlotEnd_inside (text : Text) :
    malformedSlotEnd text (keyLength text) ≤ text.length ∧
      ∀ letter ∈ text.take (malformedSlotEnd text (keyLength text)), Inside letter := by
  unfold malformedSlotEnd
  rcases found : beforeCloser text with _ | between
  · exact keyLength_inside text
  · exact closerEnd_inside found

section Resolve

variable {offered : List UiDestination} {labels : List (String × String)}

theorem readSlot_inside (text : Text) : (readSlot offered labels text).1 ≤ text.length ∧
      ∀ letter ∈ text.take (readSlot offered labels text).1, Inside letter := by
  have key := keyLength_inside text
  have known := knownSlotEnd_inside (text.drop (keyLength text))
  have both : keyLength text + knownSlotEnd (text.drop (keyLength text)) ≤ text.length ∧
      ∀ letter ∈ text.take (keyLength text + knownSlotEnd (text.drop (keyLength text))),
        Inside letter := by
    rw [length_drop] at known
    refine ⟨by omega, ?_⟩
    rw [take_add]
    intro letter member
    rcases List.mem_append.mp member with inside | inside
    · exact key.2 letter inside
    · exact known.2 letter inside
  unfold readSlot
  dsimp only
  split
  · exact malformedSlotEnd_inside text
  · split
    · exact both
    · exact both
    · exact malformedSlotEnd_inside text

def Shown (offered : List UiDestination) (labels : List (String × String)) (shown : Text) : Prop :=
  shown = [] ∨ (∃ page ∈ offered, shown = page.label.toList) ∨
    ∃ label ∈ labels, shown = label.2.toList

variable {page : UiDestination}

theorem mem_of_byKey {key : String}
    (found : Dictionaries.lookup (byKey offered) key = some page) : page ∈ offered := by
  have entry := Dictionaries.mem_of_mem_ofPairs (Dictionaries.mem_of_lookup found)
  rcases List.mem_map.mp entry with ⟨other, member, same⟩
  exact (Prod.mk.inj same).2 ▸ member

variable {text : Text}

theorem readSlot_linked
    (linked : (readSlot offered labels text).2 = .linked page) : page ∈ offered := by
  unfold readSlot at linked
  dsimp only at linked
  split at linked
  · cases linked
  · split at linked
    · next found =>
        cases linked
        exact mem_of_byKey found
    · cases linked
    · split at linked <;> cases linked

theorem readSlot_shown (text : Text) :
    Shown offered labels (readSlot offered labels text).2.shown := by
  unfold readSlot
  dsimp only
  split
  · exact .inl rfl
  · split
    · next _ page found => exact .inr (.inl ⟨page, mem_of_byKey found, rfl⟩)
    · next label _ found =>
        exact .inr (.inr ⟨(_, label), Dictionaries.mem_of_lookup found, rfl⟩)
    · left
      dsimp only
      split <;> rfl

/-- The slot at the start of a text, with how many more letters belong to it. -/
def slotAt (offered : List UiDestination) (labels : List (String × String)) :
    Recognizer Char Slot :=
  fun _ text => (slotOpen text).map fun opener =>
    let (length, slot) := readSlot offered labels (text.drop opener)
    (opener + length - 1, slot)

variable {before : Option Char}

theorem slotAt_eq_none : slotAt offered labels before text = none ↔ slotOpen text = none := by
  unfold slotAt
  exact Option.map_eq_none_iff

theorem slotAt_eq_some {more : Nat} {slot : Slot}
    (found : slotAt offered labels before text = some (more, slot)) :
    ∃ opener, slotOpen text = some opener ∧ slot = (readSlot offered labels (text.drop opener)).2 ∧
      more = opener + (readSlot offered labels (text.drop opener)).1 - 1 := by
  rcases Option.map_eq_some_iff.mp found with ⟨opener, opens, same⟩
  exact ⟨opener, opens, (Prod.mk.inj same).2.symm, (Prod.mk.inj same).1.symm⟩

/-- No opener starts in a part of a slot that was not looked at. -/
theorem slotsFrom_eq (opening ahead : Nat) (before : Option Char) (text : Text)
    (behind : opening ≤ ahead)
    (inside : ∀ letter ∈ (text.take ahead).drop opening, Inside letter) :
    slotsFrom offered labels opening ahead text =
      rewrite (slotAt offered labels) before ahead text := by
  induction text generalizing opening ahead before with
  | nil =>
    rw [rewrite_nil]
    cases opening <;> rfl
  | cons letter text rest =>
    rcases ahead with _ | ahead
    · have isZero := Nat.le_zero.mp behind
      subst isZero
      unfold slotsFrom
      rcases found : slotOpen (letter :: text) with _ | opener
      · rw [rewrite_kept (slotAt_eq_none.mpr found)]
        show Sum.inl letter :: slotsFrom offered labels 0 0 text = _
        rw [rest 0 0 (some letter) (Nat.le_refl 0) (forall_mem_nil _)]
      · have bounds := (exists_of_slotOpen found).2
        have slot := @readSlot_inside offered labels ((letter :: text).drop opener)
        have at_start : slotAt offered labels before (letter :: text) =
            some (opener + (readSlot offered labels ((letter :: text).drop opener)).1 - 1,
              (readSlot offered labels ((letter :: text).drop opener)).2) := by
          unfold slotAt
          rw [found]
          rfl
        rw [rewrite_found at_start]
        dsimp only
        rw [if_pos rfl]
        apply congrArg
        apply rest
        · omega
        · rcases opener with _ | opener
          · exact absurd bounds.1 (Nat.lt_irrefl 0)
          · intro other member
            apply slot.2 other
            rw [drop_succ_cons] at member ⊢
            have shift : opener + 1 + (readSlot offered labels (text.drop opener)).1 - 1 =
                opener + (readSlot offered labels (text.drop opener)).1 := by
              omega
            rw [shift, Nat.add_sub_cancel, drop_take, Nat.add_sub_cancel_left] at member
            exact member
    · rcases opening with _ | opening
      · have brace : letter ≠ '{' :=
          (inside letter mem_cons_self).1
        have closed : slotOpen (letter :: text) = none := by
          by_contra opens
          rcases Option.ne_none_iff_exists'.mp opens with ⟨opener, found⟩
          rcases (exists_of_slotOpen found).1 with ⟨tail, same⟩
          exact brace (List.cons.inj same).1
        unfold slotsFrom
        rw [closed, rewrite_skip]
        show slotsFrom offered labels 0 ahead text = _
        apply rest
        · exact Nat.zero_le _
        · intro other member
          exact inside other (mem_cons_of_mem _ member)
      · rw [rewrite_skip]
        show slotsFrom offered labels opening ahead text = _
        apply rest
        · exact Nat.le_of_succ_le_succ behind
        · intro other member
          exact inside other member

theorem slotsFrom_start (text : Text) :
    slotsFrom offered labels 0 0 text = rewrite (slotAt offered labels) none 0 text :=
  slotsFrom_eq 0 0 none text (Nat.le_refl 0) (forall_mem_nil _)

end Resolve

/-- Somewhere in the text a slot is opened. -/
def HoldsOpener (text : Text) : Prop :=
  ∃ word, IsOpener word ∧ word <:+: text

theorem holdsOpener_iff : HoldsOpener text ↔ ∃ tail, tail <:+ text ∧ (slotOpen tail).isSome := by
  constructor
  · rintro ⟨word, isOpener, front, back, rfl⟩
    refine ⟨word ++ back, ⟨front, (append_assoc ..).symm⟩, ?_⟩
    exact slotOpen_isSome.mpr ⟨word, back, isOpener, rfl⟩
  · rintro ⟨tail, isTail, opens⟩
    rcases slotOpen_isSome.mp opens with ⟨word, rest, isOpener, rfl⟩
    exact ⟨word, isOpener, (prefix_append word rest).isInfix.trans isTail.isInfix⟩

theorem isOpener_ne_nil {word : Text} (isOpener : IsOpener word) : word ≠ [] := by
  rcases isOpener with ⟨opening, _, rfl | rfl⟩
  · exact cons_ne_nil _ _
  · exact cons_ne_nil _ _

section Reader

variable (offered : List UiDestination) (labels : List (String × String))

/-- A text and what a reader sees of it: every letter outside slots stands, and a
slot, which opens no other brace and ends on its line, gives way to the label of
a known page or to nothing. -/
inductive Rewritten : Text → Text → Prop
  | done : Rewritten [] []
  | outside {letter : Char} {text seen : Text} :
      slotOpen (letter :: text) = none → Rewritten text seen →
        Rewritten (letter :: text) (letter :: seen)
  | slot {raw text shown seen : Text} {opener : Nat} :
      slotOpen (raw ++ text) = some opener → opener ≤ raw.length →
        (∀ letter ∈ raw.drop opener, Inside letter) → Shown offered labels shown →
          Rewritten text seen → Rewritten (raw ++ text) (shown ++ seen)

def partsOf (text : Text) : Runs Char Slot :=
  runs (slotsFrom offered labels 0 0 text)

/-- No label that stands for a slot holds an opener, and none is spelled across
the places of slots: by what stands before a slot, what is shown for it and what
stands behind it. -/
structure SlotsApart (text : Text) : Prop where
  shown : ∀ slot ∈ (partsOf offered labels text).found, ¬ HoldsOpener slot.shown
  seams : ∀ word, IsOpener word → ¬ Across word ((partsOf offered labels text).parts Slot.shown)

end Reader

section Reader

variable {offered : List UiDestination} {labels : List (String × String)}

theorem rewritten_of_rewrite (before : Option Char) (skip : Nat) (text : Text) :
    Rewritten offered labels (text.drop skip)
      (textOf Slot.shown (rewrite (slotAt offered labels) before skip text)) := by
  induction text generalizing before skip with
  | nil =>
    rw [rewrite_nil, drop_nil]
    exact .done
  | cons letter text rest =>
    rcases skip with _ | skip
    · rw [drop_zero]
      rcases found : slotAt offered labels before (letter :: text) with _ | ⟨more, slot⟩
      · rw [rewrite_kept found, textOf_letter]
        exact .outside (slotAt_eq_none.mp found) (rest (some letter) 0)
      · rw [rewrite_found found, textOf_token]
        rcases slotAt_eq_some found with ⟨opener, opens, rfl, rfl⟩
        have bounds := (exists_of_slotOpen opens).2
        have slot := @readSlot_inside offered labels ((letter :: text).drop opener)
        generalize length : (readSlot offered labels ((letter :: text).drop opener)).1 =
          count at slot ⊢
        have whole : (letter :: text).take (opener + count) ++
            text.drop (opener + count - 1) = letter :: text := by
          rcases positive : opener + count with _ | total
          · omega
          · rw [Nat.add_sub_cancel, take_succ_cons, cons_append, take_append_drop]
        have long : opener ≤ ((letter :: text).take (opener + count)).length := by
          rw [length_take]
          omega
        have opened := opens
        rw [← whole] at opened
        have step := @Rewritten.slot offered labels _ _ _ _ _ opened long ?_
          (readSlot_shown ((letter :: text).drop opener)) (rest (some letter) _)
        · rw [whole] at step
          exact step
        · intro other member
          apply slot.2 other
          rw [drop_take, Nat.add_sub_cancel_left] at member
          exact member
    · rw [rewrite_skip, drop_succ_cons]
      exact rest (some letter) skip

theorem textOf_slots (text : Text) : (resolvePageSlots offered labels text).text =
      textOf Slot.shown (rewrite (slotAt offered labels) none 0 text) :=
  congrArg (textOf Slot.shown) (slotsFrom_start text)

theorem outside_unchanged (text : Text) :
    Rewritten offered labels text (resolvePageSlots offered labels text).text := by
  rw [textOf_slots]
  exact rewritten_of_rewrite none 0 text

variable {text : Text}

/-- A text without an opener is left alone. -/
theorem resolve_of_clear (clear : ¬ HoldsOpener text) :
    (resolvePageSlots offered labels text).text = text := by
  rw [textOf_slots, rewrite_of_nothing]
  · exact textOf_letters text
  · intro earlier tail isTail
    apply slotAt_eq_none.mpr
    by_contra opens
    apply clear
    exact holdsOpener_iff.mpr ⟨tail, isTail, Option.isSome_iff_ne_none.mpr opens⟩

theorem kept_clear {run : Text} (member : run ∈ (partsOf offered labels text).kept) :
    ¬ HoldsOpener run := by
  intro holds
  rcases holdsOpener_iff.mp holds with ⟨back, isBack, opens⟩
  unfold partsOf at member
  rw [slotsFrom_start] at member
  have nonempty : back ≠ [] := by
    rintro rfl
    cases opens
  rcases nothing_in_kept member isBack nonempty with ⟨_, _, ⟨rest, rfl⟩, _, nothing⟩
  rcases slotOpen_isSome.mp opens with ⟨word, tail, isOpener, rfl⟩
  have opensHere : (slotOpen (word ++ tail ++ rest)).isSome :=
    slotOpen_isSome.mpr ⟨word, tail ++ rest, isOpener, append_assoc ..⟩
  rw [slotAt_eq_none.mp nothing] at opensHere
  cases opensHere

theorem clear_iff (text : Text) : ¬ HoldsOpener (resolvePageSlots offered labels text).text ↔
      SlotsApart offered labels text := by
  have flat : (resolvePageSlots offered labels text).text =
      ((partsOf offered labels text).parts Slot.shown).flatten :=
    (flatten_parts Slot.shown _).symm
  rw [flat]
  constructor
  · intro clear
    constructor
    · rintro slot member ⟨word, isOpener, within⟩
      apply clear
      refine ⟨word, isOpener, (infix_flatten (isOpener_ne_nil isOpener)).mpr (.inl ?_)⟩
      exact ⟨slot.shown, shown_mem_parts member, within⟩
    · intro word isOpener across
      apply clear
      exact ⟨word, isOpener, (infix_flatten (isOpener_ne_nil isOpener)).mpr (.inr across)⟩
  · rintro ⟨labelsClear, seams⟩ ⟨word, isOpener, within⟩
    rcases (infix_flatten (isOpener_ne_nil isOpener)).mp within with ⟨part, member, inPart⟩ | across
    · rcases mem_parts member with isKept | ⟨slot, isSlot, rfl⟩
      · exact kept_clear isKept ⟨word, isOpener, inPart⟩
      · exact labelsClear slot isSlot ⟨word, isOpener, inPart⟩
    · exact seams word isOpener across

def linkTo (page : UiDestination) : UiLink :=
  { key := page.key, kind := page.kind, label := page.label, href := page.href }

theorem mem_addLinks {slots : List Slot} {links : List UiLink} {link : UiLink}
    (member : link ∈ slots.foldl addLink links) :
    link ∈ links ∨ ∃ page, Slot.linked page ∈ slots ∧ link = linkTo page := by
  induction slots generalizing links with
  | nil => exact .inl member
  | cons slot slots rest =>
    rcases rest member with added | ⟨page, isSlot, isLink⟩
    · cases slot with
      | linked page =>
        simp only [addLink] at added
        split at added
        · exact .inl added
        · rcases List.mem_append.mp added with old | new
          · exact .inl old
          · exact .inr ⟨page, mem_cons_self, List.mem_singleton.mp new⟩
      | labelOnly | removed | guardStripped => exact .inl added
    · exact .inr ⟨page, mem_cons_of_mem _ isSlot, isLink⟩

theorem linked_offered {before : Option Char} {skip : Nat} {page : UiDestination}
    (member : Sum.inr (.linked page) ∈
      rewrite (slotAt offered labels) before skip text) : page ∈ offered := by
  induction text generalizing before skip with
  | nil =>
    rw [rewrite_nil] at member
    cases member
  | cons letter text rest =>
    rcases skip with _ | skip
    · rcases found : slotAt offered labels before (letter :: text) with _ | ⟨more, slot⟩
      · rw [rewrite_kept found] at member
        rcases List.mem_cons.mp member with same | later
        · cases same
        · exact rest later
      · rw [rewrite_found found] at member
        rcases List.mem_cons.mp member with same | later
        · rcases slotAt_eq_some found with ⟨opener, _, isSlot, _⟩
          exact readSlot_linked (isSlot.symm.trans (Sum.inr.inj same).symm)
        · exact rest later
    · exact rest member

theorem links_offered {link : UiLink}
    (member : link ∈ (resolvePageSlots offered labels text).links) :
    ∃ page ∈ offered, link = linkTo page := by
  rcases mem_addLinks member with none | ⟨page, isSlot, isLink⟩
  · cases none
  · rw [slotsFrom_start] at isSlot
    rcases List.mem_filterMap.mp isSlot with ⟨piece, isPiece, right⟩
    rw [Sum.getRight?_eq_some_iff] at right
    exact ⟨page, linked_offered (right ▸ isPiece), isLink⟩

end Reader

/-- What a reader is promised of a text with slots. -/
structure SlotsGone {destinations : List UiDestination} {principal : Principal}
    (context : SlotContext destinations principal) (text : Text) : Prop where
  clear : ¬ HoldsOpener (resolvePageSlots context.offered context.labels text).text
  again : (resolvePageSlots context.offered context.labels
      (resolvePageSlots context.offered context.labels text).text).text =
    (resolvePageSlots context.offered context.labels text).text
  links : ∀ link ∈ (resolvePageSlots context.offered context.labels text).links,
    ∃ page ∈ permittedDestinations destinations principal, link = linkTo page
  outside : Rewritten context.offered context.labels text
    (resolvePageSlots context.offered context.labels text).text

def homePage : UiDestination :=
  { key := "home", kind := .page, label := "Home", href := "/home",
    linkPermissions := ["view home"] }

def homeReader : Principal :=
  { role := "user", permissions := ["view home"] }

def homeContext : SlotContext [homePage] homeReader :=
  pageSlotContext [homePage] homeReader ["home"]

/-- An unknown slot inside the word `page` of another one. -/
def nestedSlot : Text :=
  "\x7b\x7bpa\x7b\x7bpage:x\x7d\x7dge:home\x7d\x7d".toList

end McpAssistant.Services.PageSlots
