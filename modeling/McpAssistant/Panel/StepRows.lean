import Mathlib.Data.List.Chain
import Mathlib.Algebra.Ring.Rat

/-!
# Rows of steps

The steps of a turn are shown in rows: a run of lookups is folded into the record or table
step behind it, or left open at the end, and neighbours with the same words become one row.
-/

namespace McpAssistant.Panel.StepRows

open List

def stepTemplates : List (String × String) :=
  [("thinking", "Thinking"), ("planning", "Planning the lookup"),
    ("authorize", "Checking your access"), ("finding_record", "Looking up the record"),
    ("querying", "Searching {subject}"), ("searching_documents", "Searching {subject}"),
    ("sealing", "Verifying results"), ("answering", "Writing answer")]

def stepSubjects : List String :=
  ["jobs", "invoices", "customers", "orders", "customer orders", "inventory"]

def stepLabel (kind state : String) (subject : Option String) : Option String :=
  (stepTemplates.lookup kind).map fun template =>
    let noun := subject.filter fun subject =>
      ["querying", "searching_documents"].contains kind && stepSubjects.contains subject
    let label := template.replace "{subject}"
      (noun.getD (if kind = "searching_documents" then "documents" else "records"))
    if state = "failed" ∨ state = "stopped" then label ++ " — stopped" else label

/-- A step has its number of milliseconds where that is finite. -/
structure Step where
  id : String
  named : id ≠ ""
  kind : String
  state : String
  subject : Option String := none
  elapsedMs : Option Rat := none
  ordinal : Option Int := none
  total : Option Int := none

structure Row where
  id : String
  kind : String
  state : String
  subject : Option String := none
  ordinal : Option Int := none
  total : Option Int := none
  storedElapsedMs : Rat
  runningMemberId : Option String
  thoughtStepId : Option String := none
  memberIds : List String
  labelOverride : Option String := none

def hasLabel (step : Step) : Bool :=
  (stepLabel step.kind step.state step.subject).isSome

def storedMs (step : Step) : Rat :=
  step.elapsedMs.getD 0

def sumStored (steps : List Step) : Rat :=
  (steps.map storedMs).sum

def runningMemberId (steps : List Step) : Option String :=
  (steps.find? fun step => step.state = "running").map Step.id

/-- The words of a row; a transcript has none. -/
def fullLabel (row : Row) : Option String :=
  if row.thoughtStepId.isSome then none
  else row.labelOverride.or ((stepLabel row.kind row.state row.subject).map fun base =>
    match row.total with
    | none => base
    | some total => s!"{base} ({row.ordinal.getD 0 + 1} of {total})")

def ownRow (step : Step) (thought : Bool) : Row where
  id := step.id
  kind := step.kind
  state := step.state
  subject := step.subject
  ordinal := step.ordinal
  total := step.total
  storedElapsedMs := storedMs step
  runningMemberId := if step.state = "running" then some step.id else none
  thoughtStepId := if thought then some step.id else none
  memberIds := [step.id]

/-- A step with the lookups before it, of which there is one at least. -/
def dataRow (first : Step) (lookups : List Step) (data : Step) : Row where
  id := first.id
  kind := data.kind
  state := data.state
  subject := data.subject
  ordinal := data.ordinal
  total := data.total
  storedElapsedMs := sumStored (first :: lookups ++ [data])
  runningMemberId := runningMemberId (first :: lookups ++ [data])
  memberIds := (first :: lookups ++ [data]).map Step.id

def openRow (first : Step) (lookups : List Step) (turnState : String) : Row :=
  let members := first :: lookups
  let last := (first :: lookups).getLast (cons_ne_nil _ _)
  if turnState = "running" then
    { id := first.id
      kind := "querying"
      state := "running"
      storedElapsedMs := sumStored members
      runningMemberId := runningMemberId members
      memberIds := members.map Step.id }
  else
    let state := if last.state = "failed" ∨ last.state = "stopped" then last.state
      else "completed"
    { id := first.id
      kind := "planning"
      state
      storedElapsedMs := sumStored members
      runningMemberId := none
      memberIds := members.map Step.id
      labelOverride := stepLabel "planning" state none }

def Row.merge (previous row : Row) : Row :=
  { previous with
    state := row.state
    kind := row.kind
    subject := row.subject
    ordinal := row.ordinal
    total := row.total
    storedElapsedMs := previous.storedElapsedMs + row.storedElapsedMs
    memberIds := previous.memberIds ++ row.memberIds
    runningMemberId := row.runningMemberId
    labelOverride := row.labelOverride }

def showsAgain (previous row : Row) : Bool :=
  (fullLabel row).isSome && fullLabel previous = fullLabel row

/-- The rows behind the one that may still grow. -/
def mergeFrom (previous : Row) : List Row → List Row
  | [] => [previous]
  | row :: rows =>
    if showsAgain previous row then mergeFrom (previous.merge row) rows
    else previous :: mergeFrom row rows

def mergeRepeats : List Row → List Row
  | [] => []
  | row :: rows => mergeFrom row rows

section Folding

variable (turnState : String) (hasThought : String → Bool)

/-- A lookup that waits for what comes behind it. -/
def waits (step : Step) : Bool :=
  ["planning", "authorize"].contains step.kind && !(step.kind = "planning" && hasThought step.id)

def isData (step : Step) : Bool :=
  ["finding_record", "querying"].contains step.kind

def foldSteps : List Step → List Step → List Row
  | [], [] => []
  | first :: lookups, [] => [openRow first lookups turnState]
  | buffer, step :: steps =>
    if waits hasThought step then foldSteps (buffer ++ [step]) steps
    else match isData step, buffer with
      | true, first :: lookups => dataRow first lookups step :: foldSteps [] steps
      | _, buffer =>
        buffer.map (ownRow · false) ++ ownRow step (hasThought step.id) :: foldSteps [] steps

def stepRows (steps : List Step) : List Row :=
  mergeRepeats (foldSteps turnState hasThought [] (steps.filter hasLabel))

end Folding

variable {turnState : String} {hasThought : String → Bool} {buffer steps : List Step}
  {previous row : Row} {rows : List Row}

theorem openRow_of_members (first : Step) (lookups : List Step) :
    (openRow first lookups turnState).memberIds = (first :: lookups).map Step.id ∧
      (openRow first lookups turnState).storedElapsedMs = sumStored (first :: lookups) ∧
      (openRow first lookups turnState).thoughtStepId = none := by
  unfold openRow
  split
  · exact ⟨rfl, rfl, rfl⟩
  · exact ⟨rfl, rfl, rfl⟩

theorem flush_members (buffer : List Step) :
    (buffer.map (ownRow · false)).flatMap Row.memberIds = buffer.map Step.id := by
  rw [flatMap_map]
  exact (map_eq_flatMap ..).symm

theorem flush_times (buffer : List Step) :
    (buffer.map (ownRow · false)).map Row.storedElapsedMs = buffer.map storedMs := by
  rw [map_map]
  rfl

theorem flush_thoughts (buffer : List Step) :
    (buffer.map (ownRow · false)).filterMap Row.thoughtStepId = [] := by
  rw [filterMap_map]
  exact filterMap_eq_nil_iff.mpr fun _ _ => rfl

theorem members_foldSteps : (foldSteps turnState hasThought buffer steps).flatMap Row.memberIds =
    (buffer ++ steps).map Step.id := by
  fun_induction foldSteps turnState hasThought buffer steps with
  | case1 => rfl
  | case2 first lookups =>
    rw [flatMap_singleton, (openRow_of_members first lookups).1, append_nil]
  | case3 buffer step steps _ later => rw [later, append_assoc, singleton_append]
  | case4 step steps _ first lookups _ later =>
    rw [flatMap_cons, later, nil_append, append_cons, map_append]
    rfl
  | case5 step steps _ buffer _ later =>
    rw [flatMap_append, flatMap_cons, later, flush_members, nil_append, map_append]
    rfl

theorem sumStored_append (first second : List Step) :
    sumStored (first ++ second) = sumStored first + sumStored second := by
  rw [sumStored, map_append, sum_append]
  rfl

theorem times_foldSteps :
    ((foldSteps turnState hasThought buffer steps).map Row.storedElapsedMs).sum =
      sumStored (buffer ++ steps) := by
  fun_induction foldSteps turnState hasThought buffer steps with
  | case1 => rfl
  | case2 first lookups =>
    rw [map_singleton, (openRow_of_members first lookups).2.1, append_nil, sum_singleton]
  | case3 buffer step steps _ later => rw [later, append_assoc, singleton_append]
  | case4 step steps _ first lookups _ later =>
    rw [map_cons, sum_cons, later, nil_append, append_cons, sumStored_append]
    rfl
  | case5 step steps _ buffer _ later =>
    have here : sumStored (step :: steps) = storedMs step + sumStored steps := sum_cons
    rw [map_append, map_cons, sum_append, sum_cons, later, nil_append, flush_times,
      sumStored_append, here]
    rfl

section Transcripts

variable (hasThought)

/-- A step's transcript is shown unless the step waits, or takes lookups into its row. -/
def keepsTranscript (before : Option Step) (step : Step) : Bool :=
  hasThought step.id && !waits hasThought step && !(isData step && before.any (waits hasThought))

def transcripts (before : Option Step) : List Step → List String
  | [] => []
  | step :: steps =>
    (if keepsTranscript hasThought before step then [step.id] else []) ++
      transcripts (some step) steps

variable {hasThought}

theorem thoughts_foldSteps {before : Option Step}
    (waiting : before.any (waits hasThought) = !buffer.isEmpty) :
    (foldSteps turnState hasThought buffer steps).filterMap Row.thoughtStepId =
      transcripts hasThought before steps := by
  fun_induction foldSteps turnState hasThought buffer steps generalizing before with
  | case1 => rfl
  | case2 first lookups => exact filterMap_cons_none (openRow_of_members first lookups).2.2
  | case3 buffer step steps isLookup later =>
    have hidden : keepsTranscript hasThought before step = false := by
      simp [keepsTranscript, isLookup]
    rw [transcripts, hidden, if_neg nofun, nil_append]
    apply later
    simp [isLookup]
  | case4 step steps other first lookups data later =>
    have hidden : keepsTranscript hasThought before step = false := by
      simp [keepsTranscript, data, waiting]
    rw [transcripts, hidden, if_neg nofun, nil_append]
    refine (filterMap_cons_none rfl).trans (later ?_)
    simpa using other
  | case5 step steps other buffer alone later =>
    have free : (isData step && before.any (waits hasThought)) = false := by
      cases data : isData step with
      | false => rfl
      | true =>
        cases buffer with
        | nil => exact waiting
        | cons first lookups => exact absurd rfl (alone first lookups data)
    have next : (some step).any (waits hasThought) = !([] : List Step).isEmpty := by
      simpa using other
    rw [filterMap_append, flush_thoughts, nil_append, transcripts, ← later next, keepsTranscript,
      free, (Bool.not_eq_true _).mp other]
    cases thought : hasThought step.id <;> rfl

theorem transcripts_append (before : Option Step) (first second : List Step) :
    transcripts hasThought before (first ++ second) = transcripts hasThought before first ++
      transcripts hasThought (first.getLast?.or before) second := by
  induction first generalizing before with
  | nil => rfl
  | cons step steps later =>
    have last : steps.getLast?.or (some step) = (step :: steps).getLast?.or before := by
      cases steps with
      | nil => rfl
      | cons other steps =>
        rw [getLast?_cons_cons, getLast?_cons]
        rfl
    rw [cons_append, transcripts, transcripts, later, last, append_assoc]

theorem transcripts_sublist (before : Option Step) (steps : List Step) :
    transcripts hasThought before steps <+ steps.map Step.id := by
  induction steps generalizing before with
  | nil => exact nil_sublist []
  | cons step steps later =>
    rw [transcripts]
    split
    · exact (later _).cons_cons step.id
    · exact (later _).cons step.id

/-- Each transcript that is kept is that of one row, and of no other one. -/
theorem count_transcripts {front back : List Step} {step : Step}
    (distinct : ((front ++ step :: back).map Step.id).Nodup) :
    (transcripts hasThought none (front ++ step :: back)).count step.id =
      if keepsTranscript hasThought front.getLast? step then 1 else 0 := by
  rw [map_append, map_cons] at distinct
  have apart := nodup_append.mp distinct
  have before : step.id ∉ transcripts hasThought none front := fun member =>
    apart.2.2 _ ((transcripts_sublist _ _).subset member) _ mem_cons_self rfl
  have behind : step.id ∉ transcripts hasThought (some step) back := fun member =>
    (nodup_cons.mp apart.2.1).1 ((transcripts_sublist _ _).subset member)
  rw [transcripts_append, transcripts, count_append, count_append, count_eq_zero.mpr before,
    count_eq_zero.mpr behind, Option.or_none]
  split
  · simp
  · rfl

end Transcripts

/-! ## Rows with the same words -/

theorem showsAgain_iff : showsAgain previous row = true ↔
    (fullLabel row).isSome ∧ fullLabel previous = fullLabel row := by
  rw [showsAgain, Bool.and_eq_true, decide_eq_true_iff]

theorem thought_of_fullLabel (shown : (fullLabel row).isSome) : row.thoughtStepId = none := by
  unfold fullLabel at shown
  split at shown
  · cases shown
  · rename_i none
    exact Option.not_isSome_iff_eq_none.mp none

/-- A row that grows by another one of its words keeps them. -/
theorem merge_shows (again : showsAgain previous row = true) :
    (previous.merge row).thoughtStepId = none ∧ row.thoughtStepId = none ∧
      previous.thoughtStepId = none ∧
      fullLabel (previous.merge row) = fullLabel previous := by
  rcases showsAgain_iff.mp again with ⟨shown, same⟩
  have plain := thought_of_fullLabel shown
  have before : previous.thoughtStepId = none := thought_of_fullLabel (same ▸ shown)
  refine ⟨before, plain, before, same ▸ ?_⟩
  rw [fullLabel, fullLabel, plain]
  show (if previous.thoughtStepId.isSome then none else _) = _
  rw [before]
  rfl

theorem members_mergeFrom (previous : Row) (rows : List Row) :
    (mergeFrom previous rows).flatMap Row.memberIds = (previous :: rows).flatMap Row.memberIds := by
  induction rows generalizing previous with
  | nil => rfl
  | cons row rows later =>
    rw [mergeFrom]
    split
    · rw [later, flatMap_cons, flatMap_cons, flatMap_cons]
      exact append_assoc _ _ _
    · rw [flatMap_cons, later]
      rfl

theorem times_mergeFrom (previous : Row) (rows : List Row) :
    ((mergeFrom previous rows).map Row.storedElapsedMs).sum =
      ((previous :: rows).map Row.storedElapsedMs).sum := by
  induction rows generalizing previous with
  | nil => rfl
  | cons row rows later =>
    rw [mergeFrom]
    split
    · rw [later, map_cons, sum_cons, map_cons, sum_cons, map_cons, sum_cons]
      exact add_assoc _ _ _
    · rw [map_cons, sum_cons, later]
      exact sum_cons.symm

theorem thoughts_mergeFrom (previous : Row) (rows : List Row) :
    (mergeFrom previous rows).filterMap Row.thoughtStepId =
      (previous :: rows).filterMap Row.thoughtStepId := by
  induction rows generalizing previous with
  | nil => rfl
  | cons row rows later =>
    rw [mergeFrom]
    split
    case isTrue again =>
      rcases merge_shows again with ⟨merged, plain, before, _⟩
      rw [later, filterMap_cons_none merged, filterMap_cons_none before, filterMap_cons_none plain]
    case isFalse =>
      rw [filterMap_cons, later]
      rfl

/-- A row without a transcript has words. -/
def IsShown (row : Row) : Prop :=
  row.thoughtStepId = none → (fullLabel row).isSome

theorem head_mergeFrom (previous : Row) (rows : List Row) :
    ∀ head ∈ (mergeFrom previous rows).head?, fullLabel head = fullLabel previous := by
  induction rows generalizing previous with
  | nil =>
    rintro _ ⟨⟩
    rfl
  | cons row rows later =>
    rw [mergeFrom]
    split
    case isTrue again =>
      intro head member
      exact (later _ head member).trans (merge_shows again).2.2.2
    case isFalse =>
      rintro _ ⟨⟩
      rfl

theorem apart_mergeFrom (previous : Row) (rows : List Row) :
    (mergeFrom previous rows).IsChain fun first second =>
      (fullLabel second).isSome → fullLabel first ≠ fullLabel second := by
  induction rows generalizing previous with
  | nil => exact isChain_singleton previous
  | cons row rows later =>
    rw [mergeFrom]
    split
    case isTrue => exact later _
    case isFalse other =>
      refine isChain_cons.mpr ⟨?_, later row⟩
      intro head member shown same
      rw [head_mergeFrom row rows head member] at shown same
      exact other (showsAgain_iff.mpr ⟨shown, same⟩)

theorem shown_mergeFrom (first : IsShown previous) (others : ∀ row ∈ rows, IsShown row) :
    ∀ row ∈ mergeFrom previous rows, IsShown row := by
  induction rows generalizing previous with
  | nil =>
    intro row member
    rwa [mem_singleton.mp member]
  | cons row rows later =>
    rcases forall_mem_cons.mp others with ⟨here, behind⟩
    rw [mergeFrom]
    split
    case isTrue again =>
      apply later _ behind
      rcases merge_shows again with ⟨_, _, before, same⟩
      intro _
      rw [same]
      exact first before
    case isFalse => exact forall_mem_cons.mpr ⟨first, later here behind⟩

theorem mergeRepeats_keeps (shown : ∀ row ∈ rows, IsShown row) :
    (mergeRepeats rows).flatMap Row.memberIds = rows.flatMap Row.memberIds ∧
      ((mergeRepeats rows).map Row.storedElapsedMs).sum = (rows.map Row.storedElapsedMs).sum ∧
      (mergeRepeats rows).filterMap Row.thoughtStepId = rows.filterMap Row.thoughtStepId ∧
      (∀ row ∈ mergeRepeats rows, IsShown row) ∧
      (mergeRepeats rows).IsChain fun first second => first.thoughtStepId = none →
        second.thoughtStepId = none → fullLabel first ≠ fullLabel second := by
  cases rows with
  | nil => exact ⟨rfl, rfl, rfl, forall_mem_nil _, isChain_nil⟩
  | cons first others =>
    rcases forall_mem_cons.mp shown with ⟨here, behind⟩
    have labelled := shown_mergeFrom here behind
    refine ⟨members_mergeFrom first others, times_mergeFrom first others,
      thoughts_mergeFrom first others, labelled, ?_⟩
    apply (apart_mergeFrom first others).imp_of_mem_imp
    intro before row _ member apart _ plain
    exact apart (labelled row member plain)

theorem isSome_stepLabel (kind state : String) (subject : Option String) :
    (stepLabel kind state subject).isSome = (stepTemplates.lookup kind).isSome :=
  Option.isSome_map

theorem shown_of_label
    (labelled : row.labelOverride.isSome ∨ (stepTemplates.lookup row.kind).isSome) :
    IsShown row := by
  intro plain
  rw [fullLabel, plain, if_neg nofun, Option.isSome_or, Option.isSome_map, isSome_stepLabel]
  exact (Bool.or_eq_true _ _).mpr labelled

theorem shown_openRow (first : Step) (lookups : List Step) :
    IsShown (openRow first lookups turnState) := by
  apply shown_of_label
  unfold openRow
  split
  · exact Or.inr (show (stepTemplates.lookup "querying").isSome = true by decide)
  · have named : (stepTemplates.lookup "planning").isSome = true := by decide
    exact Or.inl ((isSome_stepLabel ..).trans named)

theorem shown_foldSteps (labelled : ∀ step ∈ buffer ++ steps, hasLabel step = true) :
    ∀ row ∈ foldSteps turnState hasThought buffer steps, IsShown row := by
  have named : ∀ step : Step, hasLabel step = true → (stepTemplates.lookup step.kind).isSome :=
    fun step shown => (isSome_stepLabel ..).symm.trans shown
  fun_induction foldSteps turnState hasThought buffer steps with
  | case1 => exact forall_mem_nil _
  | case2 first lookups =>
    intro row member
    rw [mem_singleton.mp member]
    exact shown_openRow first lookups
  | case3 buffer step steps _ later =>
    rw [append_cons] at labelled
    exact later labelled
  | case4 step steps _ first lookups _ later =>
    rcases forall_mem_cons.mp (forall_mem_append.mp labelled).2 with ⟨here, behind⟩
    exact forall_mem_cons.mpr ⟨shown_of_label (Or.inr (named step here)), later behind⟩
  | case5 step steps _ buffer _ later =>
    rcases forall_mem_append.mp labelled with ⟨waiting, others⟩
    rcases forall_mem_cons.mp others with ⟨here, behind⟩
    refine forall_mem_append.mpr ⟨?_, forall_mem_cons.mpr ⟨?_, later behind⟩⟩
    · intro row member
      rcases mem_map.mp member with ⟨lookup, isLookup, rfl⟩
      exact shown_of_label (Or.inr (named lookup (waiting lookup isLookup)))
    · exact shown_of_label (Or.inr (named step here))

/-! ## The rows of a turn -/

structure TimelineSteps where
  steps : List Step
  distinct : (steps.map Step.id).Nodup

def TimelineSteps.labelled (timeline : TimelineSteps) : List Step :=
  timeline.steps.filter hasLabel

theorem shown_labelled (steps : List Step) :
    ∀ row ∈ foldSteps turnState hasThought [] (steps.filter hasLabel), IsShown row :=
  shown_foldSteps fun _ member => (mem_filter.mp member).2

theorem thoughts_stepRows (steps : List Step) :
    (stepRows turnState hasThought steps).filterMap Row.thoughtStepId =
      transcripts hasThought none (steps.filter hasLabel) :=
  (mergeRepeats_keeps (shown_labelled steps)).2.2.1.trans (thoughts_foldSteps rfl)

/-- Every labelled step is in one row, in its place and with its time; neighbours have other
words, and a transcript has its row unless its step waits or took in a lookup. -/
theorem stepRows_lossless (timeline : TimelineSteps) (turnState : String)
    (hasThought : String → Bool) :
    let rows := stepRows turnState hasThought timeline.steps
    (rows.flatMap Row.memberIds = timeline.labelled.map Step.id ∧
      (timeline.labelled.map Step.id).Nodup) ∧
    (rows.map Row.storedElapsedMs).sum = sumStored timeline.labelled ∧
    ((∀ row ∈ rows, row.thoughtStepId = none → (fullLabel row).isSome) ∧
      rows.IsChain fun first second => first.thoughtStepId = none → second.thoughtStepId = none →
        fullLabel first ≠ fullLabel second) ∧
    ∀ front step back, timeline.labelled = front ++ step :: back → hasThought step.id = true →
      ((rows.filterMap Row.thoughtStepId).count step.id = 1 ↔
        ¬(waits hasThought step = true ∨
          isData step = true ∧ front.getLast?.any (waits hasThought) = true)) := by
  intro rows
  have distinct : (timeline.labelled.map Step.id).Nodup :=
    timeline.distinct.sublist (filter_sublist.map Step.id)
  let folded := foldSteps turnState hasThought [] timeline.labelled
  have members : folded.flatMap Row.memberIds = timeline.labelled.map Step.id := members_foldSteps
  have times : (folded.map Row.storedElapsedMs).sum = sumStored timeline.labelled :=
    times_foldSteps
  rcases mergeRepeats_keeps (shown_labelled timeline.steps) with ⟨merged, sums, _, labelled, apart⟩
  refine ⟨⟨merged.trans members, distinct⟩, sums.trans times, ⟨labelled, apart⟩, ?_⟩
  intro front step back parts thought
  have shownThoughts : rows.filterMap Row.thoughtStepId = transcripts hasThought none _ :=
    thoughts_stepRows timeline.steps
  rw [shownThoughts]
  show (transcripts hasThought none timeline.labelled).count step.id = 1 ↔ _
  rw [parts, count_transcripts (parts ▸ distinct), keepsTranscript, thought]
  cases waits hasThought step <;> cases isData step <;>
    cases front.getLast?.any (waits hasThought) <;> decide

/-- A transcript of an access step has no row. -/
theorem accessTranscript_lost : ¬∀ (timeline : TimelineSteps) (hasThought : String → Bool),
    ∀ step ∈ timeline.labelled, hasThought step.id = true →
      ((stepRows "completed" hasThought timeline.steps).filterMap Row.thoughtStepId).count
        step.id = 1 := by
  intro shown
  let access : Step := ⟨"a1", by decide, "authorize", "completed", none, none, none, none⟩
  have isLabelled : hasLabel access = true := (isSome_stepLabel ..).trans (by decide)
  have labelled : [access].filter hasLabel = [access] := filter_cons_of_pos isLabelled
  have carries := shown ⟨[access], pairwise_singleton _ _⟩ (fun _ => true) access
    (mem_filter.mpr ⟨mem_singleton_self access, isLabelled⟩) rfl
  rw [thoughts_stepRows, labelled] at carries
  exact absurd carries (by decide)

end McpAssistant.Panel.StepRows
