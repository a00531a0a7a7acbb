import McpAssistant.Conversation.TranscriptStores
import Mathlib.Data.List.Nodup

/-!
# What a follow-up refers to

An explanation is about the sources it recorded; a source that is an explanation itself
stands for its own.  References come from stored turns, so they may lead anywhere.
-/

namespace McpAssistant.Conversation.SourceFocus

open TranscriptStores List

inductive AnswerMode where
  | explanation
  | direct
deriving DecidableEq

structure ComponentEvidence where
  tool : String
  status : String
deriving DecidableEq

structure FollowupTurn where
  role : Role
  content : String
  exchangeId : Option String := none
  bqGrain : Option String := none
  toolResultVersion : Option Nat := none
  completeness : Option Completeness := none
  components : List ComponentEvidence := []
  restoreRef : Option String := none
  answerMode : Option AnswerMode := none
  sourceExchangeIds : List String := []
  conversationSubject : Option String := none
deriving DecidableEq

structure SourceCandidate where
  position : Nat
  exchangeId : String
  restoreRef : String
  grain : String
  userQuestion : String
deriving DecidableEq

/-- A text that counts as one: there and not empty. -/
def given (text : Option String) : Bool :=
  text.getD "" ≠ ""

def maxSourceCandidates : Nat := 20

def maxQuestionChars : Nat := 160

def cut (text : String) : String :=
  String.ofList (text.toList.take maxQuestionChars)

def succeededTool (turn : FollowupTurn) (tool : String) : Bool :=
  turn.components.any fun component => component.tool = tool ∧ component.status = "succeeded"

def grain (turn : FollowupTurn) : String :=
  if succeededTool turn "business_query" && succeededTool turn "document_search" then "mixed"
  else match turn.bqGrain with
    | some grain => if succeededTool turn "document_search" then "mixed" else grain
    | none => "documents"

def lastOf (history : List FollowupTurn) (role : Role) (exchangeId : String) :
    Option FollowupTurn :=
  if exchangeId = "" then none
  else history.reverse.find? fun turn => turn.role = role ∧ turn.exchangeId = some exchangeId

def question (history : List FollowupTurn) (turn : FollowupTurn) : Option String :=
  turn.exchangeId.bind fun exchangeId => (lastOf history .user exchangeId).map (·.content)

def isSource (history : List FollowupTurn) (turn : FollowupTurn) : Bool :=
  turn.role = .assistant ∧ (question history turn).isSome ∧ given turn.restoreRef ∧
    turn.answerMode = none ∧ turn.sourceExchangeIds = [] ∧ turn.toolResultVersion = some 1 ∧
    turn.completeness ≠ some .none

def sourceCandidates (history : List FollowupTurn) : List SourceCandidate :=
  let sources := history.filter (isSource history)
  ((sources.drop (sources.length - maxSourceCandidates)).zipIdx 1).map fun (turn, position) =>
    { position
      exchangeId := turn.exchangeId.getD ""
      restoreRef := turn.restoreRef.getD ""
      grain := grain turn
      userQuestion := cut ((question history turn).getD "") }

inductive FocusStatus where
  | none
  | resolved
  | direct
  | unavailable
deriving DecidableEq

structure FollowupFocus where
  status : FocusStatus
  sourcePositions : List Nat := []
  subjectQuestion : Option String := .none
deriving DecidableEq

def validPositions (positions : List Nat) : Except String Unit :=
  if positions.length < 1 then .error "Tuple should have at least 1 item after validation"
  else if 8 < positions.length then .error "Tuple should have at most 8 items after validation"
  else if ¬positions.Nodup ∨ ∃ position ∈ positions,
      position < 1 ∨ maxSourceCandidates < position then
    .error "source positions must be unique and between 1 and 20"
  else .ok ()

/-- A focus as its contract lets it be made. -/
def validFocus (focus : FollowupFocus) : Except String FollowupFocus :=
  match if focus.status = .resolved then validPositions focus.sourcePositions
      else if focus.sourcePositions ≠ [] then
        .error "only resolved focus has source positions"
      else .ok () with
  | .error message => .error message
  | .ok () =>
    if decide (focus.status = .direct) ≠ given focus.subjectQuestion then
      .error "only direct focus requires a subject"
    else .ok focus

def candidatePosition (candidates : List SourceCandidate) (exchangeId : String) : Option Nat :=
  (candidates.reverse.find? fun candidate => candidate.exchangeId = exchangeId).map (·.position)

def explanationSources (history : List FollowupTurn) (exchangeId : String) : Option (List String) :=
  (lastOf history .assistant exchangeId).bind fun turn =>
    if turn.answerMode = some .explanation ∧ turn.sourceExchangeIds ≠ [] then
      some turn.sourceExchangeIds
    else none

def exchangeIds (history : List FollowupTurn) : List String :=
  history.filterMap FollowupTurn.exchangeId

/-- The exchanges that no reference has led through. -/
def unvisited (history : List FollowupTurn) (visited : List String) : Nat :=
  ((exchangeIds history).filter fun exchangeId => exchangeId ∉ visited).length

variable {history : List FollowupTurn} {exchangeId : String}

theorem mem_exchangeIds
    {sources : List String} (found : explanationSources history exchangeId = some sources) :
    exchangeId ∈ exchangeIds history := by
  rcases Option.bind_eq_some_iff.mp found with ⟨turn, isLast, _⟩
  rw [lastOf] at isLast
  split at isLast
  · cases isLast
  · have named := List.find?_some isLast
    simp only [decide_eq_true_eq] at named
    exact List.mem_filterMap.mpr ⟨turn, List.mem_reverse.mp (mem_of_find?_eq_some isLast), named.2⟩

/-- Each explanation that is led through is one fewer to come. -/
theorem unvisited_lt {visited : List String} (fresh : exchangeId ∉ visited)
    (listed : exchangeId ∈ exchangeIds history) :
    unvisited history (exchangeId :: visited) < unvisited history visited := by
  have fewer : (exchangeIds history).filter (fun other => other ∉ exchangeId :: visited) =
      ((exchangeIds history).filter fun other => other ∉ visited).filter
        fun other => other ≠ exchangeId := by
    rw [filter_filter]
    congr 1
    funext other
    simp
  rw [unvisited, unvisited, fewer, length_filter_lt_length_iff_exists]
  exact ⟨exchangeId, List.mem_filter.mpr ⟨listed, decide_eq_true fresh⟩, by simp⟩

def addPosition (positions : List Nat) (position : Nat) : List Nat :=
  if position ∈ positions then positions else positions ++ [position]

/-- The positions that the references come to; none where one is missing or leads back into
an explanation it came through. -/
def resolveEids (history : List FollowupTurn) (candidates : List SourceCandidate)
    (visited eids : List String) (positions : List Nat) : Option (List Nat) :=
  match eids with
  | [] => some positions
  | eid :: eids =>
    if _fresh : eid ∉ visited then
      match candidatePosition candidates eid with
      | some position =>
        resolveEids history candidates visited eids (addPosition positions position)
      | none =>
        match _found : explanationSources history eid with
        | none => none
        | some sources =>
          match resolveEids history candidates (eid :: visited) sources positions with
          | none => none
          | some positions => resolveEids history candidates visited eids positions
    else none
termination_by (unvisited history visited, eids.length)
decreasing_by
  · exact Prod.Lex.right _ (Nat.lt_succ_self _)
  · exact Prod.Lex.left _ _ (unvisited_lt _fresh (mem_exchangeIds _found))
  · exact Prod.Lex.right _ (Nat.lt_succ_self _)

/-- What the latest turn that says it is about; none for a turn that is passed by. -/
def focusOf (history : List FollowupTurn) (candidates : List SourceCandidate)
    (turn : FollowupTurn) : Option (Except String FollowupFocus) :=
  if turn.role ≠ .assistant then none
  else match turn.answerMode with
    | some .explanation => some <| validFocus <|
        if turn.sourceExchangeIds = [] then { status := .unavailable }
        else match resolveEids history candidates [] turn.sourceExchangeIds [] with
          | none => { status := .unavailable }
          | some positions => { status := .resolved, sourcePositions := positions }
    | some .direct =>
        let subject := if given turn.conversationSubject then turn.conversationSubject
          else question history turn
        some <| validFocus <| if given subject then
          { status := .direct, subjectQuestion := subject.map cut }
        else { status := .unavailable }
    | none =>
        if given turn.restoreRef ∧ turn.completeness ≠ some .none then
          some <| validFocus <| match (turn.exchangeId.filter (· ≠ "")).bind
              (candidatePosition candidates) with
            | some position => { status := .resolved, sourcePositions := [position] }
            | none => { status := .unavailable }
        else none

def sourceFocus (history : List FollowupTurn) (candidates : List SourceCandidate) :
    Except String FollowupFocus :=
  (history.reverse.findSome? (focusOf history candidates)).getD (validFocus { status := .none })

section Focus

variable {history : List FollowupTurn} {candidates : List SourceCandidate}

def OfCandidates (candidates : List SourceCandidate) (positions : List Nat) : Prop :=
  positions.Nodup ∧ ∀ position ∈ positions, ∃ candidate ∈ candidates, candidate.position = position

variable {exchangeId : String}

theorem candidate_of_position {position : Nat}
    (found : candidatePosition candidates exchangeId = some position) :
    ∃ candidate ∈ candidates, candidate.position = position := by
  rcases Option.map_eq_some_iff.mp found with ⟨candidate, isLast, isPosition⟩
  exact ⟨candidate, List.mem_reverse.mp (mem_of_find?_eq_some isLast), isPosition⟩

variable {positions : List Nat}

theorem OfCandidates.add (known : OfCandidates candidates positions) {position : Nat}
    (found : candidatePosition candidates exchangeId = some position) :
    OfCandidates candidates (addPosition positions position) := by
  rw [addPosition]
  split
  · exact known
  · rename_i fresh
    constructor
    · exact List.nodup_append.mpr ⟨known.1, nodup_singleton _, by
        intro other isOther last isLast same
        rw [same, List.mem_singleton.mp isLast] at isOther
        exact fresh isOther⟩
    · intro other listed
      rcases List.mem_append.mp listed with before | last
      · exact known.2 other before
      · rw [List.mem_singleton.mp last]
        exact candidate_of_position found

theorem ne_nil_of_explanationSources {sources : List String}
    (found : explanationSources history exchangeId = some sources) : sources ≠ [] := by
  rcases Option.bind_eq_some_iff.mp found with ⟨turn, _, isSources⟩
  split at isSources
  · rename_i explains
    cases isSources
    exact explains.2
  · cases isSources

theorem addPosition_ne_nil (positions : List Nat) (position : Nat) :
    addPosition positions position ≠ [] := by
  rw [addPosition]
  split
  · rename_i listed
    exact ne_nil_of_mem listed
  · simp

theorem resolveEids_spec : (visited eids : List String) → {positions found : List Nat} →
    OfCandidates candidates positions →
    resolveEids history candidates visited eids positions = some found →
    OfCandidates candidates found ∧ (positions ≠ [] ∨ eids ≠ [] → found ≠ [])
  | visited, [], positions, found, known, resolved => by
    rw [resolveEids] at resolved
    cases resolved
    exact ⟨known, fun any => any.resolve_right fun none => none rfl⟩
  | visited, eid :: eids, positions, found, known, resolved => by
    rw [resolveEids] at resolved
    split at resolved
    · split at resolved
      · rename_i position isPosition
        have rest := resolveEids_spec visited eids (known.add isPosition) resolved
        exact ⟨rest.1, fun _ => rest.2 (Or.inl (addPosition_ne_nil _ _))⟩
      · split at resolved
        · cases resolved
        · rename_i sources isSources
          split at resolved
          · cases resolved
          · rename_i inner isInner
            have through := resolveEids_spec (eid :: visited) sources known isInner
            have rest := resolveEids_spec visited eids through.1 resolved
            have any := through.2 (Or.inr (ne_nil_of_explanationSources isSources))
            exact ⟨rest.1, fun _ => rest.2 (Or.inl any)⟩
    · cases resolved
termination_by visited eids => (unvisited history visited, eids.length)
decreasing_by
  · exact Prod.Lex.right _ (Nat.lt_succ_self _)
  · exact Prod.Lex.left _ _ (unvisited_lt ‹_› (mem_exchangeIds ‹_›))
  · exact Prod.Lex.right _ (Nat.lt_succ_self _)

theorem positions_of_sourceCandidates {candidate : SourceCandidate}
    (listed : candidate ∈ sourceCandidates history) :
    1 ≤ candidate.position ∧ candidate.position ≤ maxSourceCandidates := by
  rcases List.mem_map.mp listed with ⟨⟨turn, position⟩, isIn, rfl⟩
  have bounds := mem_zipIdx isIn
  have window := length_drop (i := (history.filter (isSource history)).length -
    maxSourceCandidates) (l := history.filter (isSource history))
  dsimp only
  omega

theorem validFocus_positions (any : positions ≠ [])
    (atMost : positions.length ≤ 8) (known : OfCandidates (sourceCandidates history) positions) :
    validFocus { status := .resolved, sourcePositions := positions } =
      .ok { status := .resolved, sourcePositions := positions } := by
  have inRange : ¬(¬positions.Nodup ∨ ∃ position ∈ positions,
      position < 1 ∨ maxSourceCandidates < position) := by
    rintro (twice | ⟨position, listed, outside⟩)
    · exact twice known.1
    · rcases known.2 position listed with ⟨candidate, isCandidate, rfl⟩
      have bounds := positions_of_sourceCandidates isCandidate
      omega
  simp only [validFocus, if_true, validPositions, if_neg (Nat.not_lt.mpr (List.length_pos_iff.mpr any)),
    if_neg (Nat.not_lt.mpr atMost), if_neg inRange]
  rfl

/-- An explanation in the history whose references come to more than eight candidates. -/
def TooMany (history : List FollowupTurn) : Prop :=
  ∃ turn ∈ history, ∃ positions, turn.answerMode = some .explanation ∧
    resolveEids history (sourceCandidates history) [] turn.sourceExchangeIds [] =
      some positions ∧ 8 < positions.length

/-- A focus that is made, on distinct candidates or on none. -/
def Focuses (history : List FollowupTurn) (result : Except String FollowupFocus) : Prop :=
  ∃ focus, result = .ok focus ∧ OfCandidates (sourceCandidates history) focus.sourcePositions

theorem focuses_without {focus : FollowupFocus} (isValid : validFocus focus = .ok focus)
    (without : focus.sourcePositions = []) : Focuses history (validFocus focus) := by
  refine ⟨focus, isValid, ?_⟩
  rw [without]
  exact ⟨nodup_nil, nofun⟩

theorem given_cut {subject : Option String} (isGiven : given subject = true) :
    given (subject.map cut) = true := by
  cases subject with
  | none => cases isGiven
  | some subject =>
    apply decide_eq_true
    intro empty
    apply of_decide_eq_true isGiven
    have letters := congrArg String.toList empty
    change (cut subject).toList = [] at letters
    rw [cut, String.toList_ofList, take_eq_nil_iff] at letters
    exact String.toList_eq_nil_iff.mp (letters.resolve_left (by decide))

variable {turn : FollowupTurn}

theorem focusOf_focuses (member : turn ∈ history) {result : Except String FollowupFocus}
    (tells : focusOf history (sourceCandidates history) turn = some result) :
    Focuses history result ∨ TooMany history := by
  have unavailable : Focuses history (validFocus { status := .unavailable }) :=
    focuses_without rfl rfl
  unfold focusOf at tells
  split at tells
  · cases tells
  · split at tells
    · rename_i explains
      cases tells
      split
      · exact Or.inl unavailable
      · rename_i recorded
        cases resolved : resolveEids history (sourceCandidates history) []
            turn.sourceExchangeIds [] with
        | none => exact Or.inl unavailable
        | some positions =>
          have spec := resolveEids_spec [] _ ⟨nodup_nil, nofun⟩ resolved
          by_cases atMost : positions.length ≤ 8
          · exact Or.inl ⟨_, validFocus_positions (spec.2 (Or.inr recorded)) atMost spec.1, spec.1⟩
          · exact Or.inr ⟨turn, member, positions, explains, resolved, Nat.not_le.mp atMost⟩
    · cases tells
      left
      generalize (if given turn.conversationSubject then turn.conversationSubject
        else question history turn) = subject
      split
      · rename_i isGiven
        apply focuses_without
        · simp [validFocus, given_cut isGiven]
        · rfl
      · exact unavailable
    · split at tells
      · cases tells
        left
        cases found : (turn.exchangeId.filter (· ≠ "")).bind
            (candidatePosition (sourceCandidates history)) with
        | none => exact unavailable
        | some position =>
          rcases Option.bind_eq_some_iff.mp found with ⟨exchangeId, _, isPosition⟩
          have known : OfCandidates (sourceCandidates history) [position] :=
            OfCandidates.add ⟨nodup_nil, nofun⟩ isPosition
          exact ⟨_, validFocus_positions nofun (Nat.succ_le_succ (Nat.zero_le 7)) known, known⟩
      · cases tells

/-- The latest turn that is no bare text, and is about evidence of its own. -/
structure LatestEvidence (history : List FollowupTurn) (turn : FollowupTurn) : Prop where
  latest : ∃ earlier later, history = earlier ++ turn :: later ∧
    ∀ other ∈ later, focusOf history (sourceCandidates history) other = none
  role : turn.role = .assistant
  plain : turn.answerMode = none
  evidence : given turn.restoreRef = true ∧ turn.completeness ≠ some .none

/-- What the turn itself stands for. -/
def ownFocus (history : List FollowupTurn) (turn : FollowupTurn) : FollowupFocus :=
  match (turn.exchangeId.filter (· ≠ "")).bind (candidatePosition (sourceCandidates history)) with
  | some position => { status := .resolved, sourcePositions := [position] }
  | none => { status := .unavailable }

theorem focus_of_latest (latest : LatestEvidence history turn) :
    sourceFocus history (sourceCandidates history) = validFocus (ownFocus history turn) := by
  rcases latest.latest with ⟨earlier, later, isHistory, passed⟩
  have own : focusOf history (sourceCandidates history) turn =
      some (validFocus (ownFocus history turn)) := by
    rw [focusOf, if_neg (not_not.mpr latest.role), latest.plain]
    exact if_pos latest.evidence
  rw [sourceFocus]
  have skipped : later.reverse.findSome? (focusOf history (sourceCandidates history)) = none := by
    rw [List.findSome?_eq_none_iff]
    intro other listed
    exact passed other (List.mem_reverse.mp listed)
  have found : history.reverse.findSome? (focusOf history (sourceCandidates history)) =
      some (validFocus (ownFocus history turn)) := by
    rw [show history.reverse = later.reverse ++ turn :: earlier.reverse by
      rw [isHistory]; simp, List.findSome?_append, skipped, List.findSome?_cons, own]
    rfl
  rw [found]
  rfl

end Focus

end McpAssistant.Conversation.SourceFocus
