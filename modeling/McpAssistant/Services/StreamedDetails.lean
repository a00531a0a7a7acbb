import McpAssistant.Services.DetailRecords

/-!
# Streamed details and the panel's envelopes

The detail facts of an outcome stream in batches under the id of their answer.
Folded back, every answer has the facts of all envelopes of its id, in order.
The records that owned them are not there to take them: the terminal envelope
lists none.
-/

namespace McpAssistant.Services.StreamedDetails

open Foundations.JsonReading
open Foundations.Procedures
open AskEvents AskQueue AskStream StreamProducer DetailRecords List

section Keyed

variable {Item Key Fact : Type} [DecidableEq Key] (key : Item → Key) (facts : Item → List Fact)

def factsUnder (items : List Item) (wanted : Key) : List Fact :=
  items.flatMap fun item => if key item = wanted then facts item else []

variable {key facts}

theorem factsUnder_eq_own_iff {items : List Item} :
    (∀ item ∈ items, factsUnder key facts items (key item) = facts item) ↔
      items.Pairwise fun left right =>
        key left = key right → facts left = [] ∧ facts right = [] := by
  induction items with
  | nil => exact ⟨fun _ => List.Pairwise.nil, fun _ => nofun⟩
  | cons first rest ih =>
    rw [pairwise_cons, ← ih]
    have ofFirst : factsUnder key facts (first :: rest) (key first) =
        facts first ++ factsUnder key facts rest (key first) := by
      simp [factsUnder]
    have ofRest : ∀ item ∈ rest, (key first = key item → facts first = []) →
        factsUnder key facts (first :: rest) (key item) = factsUnder key facts rest (key item) := by
      intro item _ apart
      by_cases same : key first = key item
      · simp [factsUnder, same, apart same]
      · simp [factsUnder, same]
    constructor
    · intro own
      have restEmpty := own first mem_cons_self
      rw [ofFirst, append_right_eq_self] at restEmpty
      have apart : ∀ item ∈ rest, key first = key item → facts first = [] ∧ facts item = [] := by
        intro item member same
        have itemEmpty : facts item = [] := by
          have none := List.flatMap_eq_nil_iff.mp restEmpty item member
          rwa [if_pos same.symm] at none
        have itemOwn := own item (mem_cons_of_mem _ member)
        rw [← same, ofFirst, itemEmpty] at itemOwn
        exact ⟨(List.append_eq_nil_iff.mp itemOwn).1, itemEmpty⟩
      refine ⟨apart, fun item member => ?_⟩
      rw [← ofRest item member fun same => (apart item member same).1]
      exact own item (mem_cons_of_mem _ member)
    · rintro ⟨apart, own⟩ item member
      rcases List.mem_cons.mp member with rfl | member
      · rw [ofFirst, append_right_eq_self]
        apply List.flatMap_eq_nil_iff.mpr
        intro other inRest
        split
        · rename_i same
          exact (apart other inRest same.symm).2
        · rfl
      · rw [ofRest item member fun same => (apart item member same).1]
        exact own item member

end Keyed

/-- The details the panel keeps for an answer of a run. -/
def streamedFor (streamed : StreamedDetails) (runId : RunId) (key : String) : List RecordDetail :=
  detailsOf ((streamed.lookup runId.text).getD []) key

/-- Frames within the bound that bring these details to the panel. -/
structure Carry (wire : Wire) (bound : Nat) (runId : RunId)
    (frames : List AskV2Event) (brought : String → List RecordDetail) : Prop where
  bounded : ∀ frame ∈ frames, wire.frameWireBytes frame ≤ bound
  remembered : ∀ streamed key, streamedFor (frames.foldl rememberDetails streamed) runId key =
      streamedFor streamed runId key ++ brought key

section Carrying

variable {wire : Wire} {bound : Nat} {runId : RunId}

theorem streamedFor_rememberDetails (sequence : Nat) (answerQueryId : String)
    (details : List RecordDetail) (streamed : StreamedDetails) (key : String) :
    streamedFor (rememberDetails streamed
        ⟨runId, sequence, .recordDetails (some answerQueryId) details⟩) runId key =
      streamedFor streamed runId key ++ if answerQueryId = key then details else [] := by
  show detailsOf ((List.lookup runId.text (putKey runId.text _ streamed)).getD []) key = _
  rw [lookup_putKey_self]
  show ((List.lookup key (putKey answerQueryId _ _)).getD [] : List RecordDetail) = _
  by_cases same : answerQueryId = key
  · rw [same, lookup_putKey_self, if_pos rfl]
    rfl
  · rw [lookup_putKey_of_ne (Ne.symm same), if_neg same, append_nil]
    rfl

theorem Carry.nil : Carry wire bound runId [] fun _ => [] where
  bounded := fun _ member => absurd member not_mem_nil
  remembered := fun _ _ => (append_nil _).symm

variable {first second : String → List RecordDetail}

theorem Carry.append {earlier later : List AskV2Event}
    (carries : Carry wire bound runId earlier first)
    (goesOn : Carry wire bound runId later second) :
    Carry wire bound runId (earlier ++ later) fun key => first key ++ second key where
  bounded := by
    intro frame member
    rcases List.mem_append.mp member with member | member
    · exact carries.bounded frame member
    · exact goesOn.bounded frame member
  remembered := by
    intro streamed key
    rw [foldl_append, goesOn.remembered, carries.remembered, append_assoc]

def Brings (wire : Wire) (runId : RunId) (brought : String → List RecordDetail)
    (before after : TurnStream) : Prop :=
  after.queue.maxFrameBytes = before.queue.maxFrameBytes ∧
    ∃ frames, after.enqueued = before.enqueued ++ frames ∧
      Carry wire before.queue.maxFrameBytes runId frames brought

theorem Brings.refl (stream : TurnStream) : Brings wire runId (fun _ => []) stream stream :=
  ⟨rfl, [], (append_nil _).symm, Carry.nil⟩

theorem Brings.trans
    {before middle after : TurnStream} (brings : Brings wire runId first before middle)
    (goesOn : Brings wire runId second middle after) :
    Brings wire runId (fun key => first key ++ second key) before after := by
  obtain ⟨sameBound, earlier, enqueued, carries⟩ := brings
  obtain ⟨stillBound, later, appended, continues⟩ := goesOn
  refine ⟨stillBound.trans sameBound, earlier ++ later, ?_, ?_⟩
  · rw [appended, enqueued, append_assoc]
  · apply carries.append
    rwa [sameBound] at continues

/-- A program that brings these details whenever it returns. -/
def Bringing (wire : Wire) (runId : RunId) (brought : String → List RecordDetail)
    (program : Streaming Unit) : Prop :=
  ∀ state, Leads program state (fun _ after => Brings wire runId brought state after)
    fun _ _ => True

theorem Bringing.bind {program : Streaming Unit} {next : Unit → Streaming Unit}
    (brings : Bringing wire runId first program)
    (goesOn : Bringing wire runId second (next ())) :
    Bringing wire runId (fun key => first key ++ second key) (program >>= next) := by
  intro state
  apply leads_bind.mpr
  apply Leads.mono (brings state)
  · intro _ middle brought
    apply Leads.mono (goesOn middle)
    · exact fun _ after continued => brought.trans continued
    · exact fun _ _ _ => trivial
  · exact fun _ _ _ => trivial

theorem Bringing.pure : Bringing wire runId (fun _ => []) (pure () : Streaming Unit) := Brings.refl

theorem Bringing.forM {Item : Type} {run : Item → Streaming Unit}
    {brought : Item → String → List RecordDetail} {items : List Item}
    (each : ∀ item, Bringing wire runId (brought item) (run item)) :
    Bringing wire runId (fun key => items.flatMap fun item => brought item key)
      (items.forM run) := by
  induction items with
  | nil => exact Bringing.pure
  | cons item items ih => exact (each item).bind ih

theorem bringing_sendBatch (answerQueryId : String) (batch : List RecordDetail) :
    Bringing wire runId (fun key => if answerQueryId = key then batch else [])
      (sendFrame wire runId (.recordDetails (some answerQueryId) batch)) := by
  intro state
  apply leads_bind.mpr
  show Leads (if _ then _ else _) state _ _
  split
  · apply leads_bind.mpr
    let event : AskV2Event :=
      ⟨runId, state.sequence.peek, .recordDetails (some answerQueryId) batch⟩
    apply leads_putNowait
    · intro queue accepted
      rcases ByteBoundedAskQueue.putNowait_within accepted rfl with ⟨within, sameBound⟩
      refine ⟨sameBound, [event], enqueued_sent accepted, ?_, ?_⟩
      · intro frame member
        rw [List.mem_singleton.mp member]
        exact within
      · exact fun streamed key => streamedFor_rememberDetails _ _ _ _ _
    · intro _ _
      trivial
  · trivial

/-- Batches that reach the last detail hold every detail in order. -/
theorem flatten_detailBatchesFrom {detailWireBytes : RecordDetail → Nat}
    {details batch : List RecordDetail} {batchBytes : Nat}
    (all : (detailBatchesFrom detailWireBytes details batch batchBytes).2 = none) :
    (detailBatchesFrom detailWireBytes details batch batchBytes).1.flatten = batch ++ details := by
  induction details generalizing batch batchBytes with
  | nil =>
    cases batch with
    | nil => rfl
    | cons first rest => simp [detailBatchesFrom]
  | cons detail rest ih =>
    simp only [detailBatchesFrom] at all ⊢
    split at all
    · cases all
    · rename_i fits
      rw [if_neg fits]
      split at all
      · rename_i full
        rw [if_pos full, flatten_cons, ih all]
        rfl
      · rename_i room
        rw [if_neg room, ih all, append_assoc]
        rfl

theorem bringing_streamRecordDetails (envelope : Envelope) : Bringing wire runId (fun key =>
        if envelope.answerQueryId = key then envelope.recordDetails else [])
      (streamRecordDetails wire runId envelope) := by
  intro state
  let batched := detailBatchesFrom wire.detailWireBytes envelope.recordDetails [] 0
  have sent := @Bringing.forM wire runId _ _ _ batched.1 (bringing_sendBatch envelope.answerQueryId)
  show Leads (batched.1.forM _ >>= _) state _ _
  apply leads_bind.mpr
  apply Leads.mono (sent state)
  · intro _ after brought
    cases failed : batched.2 with
    | some message => trivial
    | none =>
      show Brings wire runId _ state after
      have all := flatten_detailBatchesFrom failed
      convert brought using 2 with key
      split
      · show _ = batched.1.flatMap id
        rw [flatMap_id]
        exact all.symm
      · exact (List.flatMap_eq_nil_iff.mpr fun _ _ => rfl).symm
  · exact fun _ _ _ => trivial

end Carrying

/-- What streaming details promises: every envelope has its own facts, every
record that owned facts is listed again with them, and the frames are within
the bound. -/
structure DetailsReturn (wire : Wire) (bound : Nat) (frames : List AskV2Event)
    (outcome folded : AnsweredOutcome) : Prop where
  facts : folded.envelopes.map (·.recordDetails) = outcome.envelopes.map (·.recordDetails)
  records : ∀ pair ∈ outcome.envelopes.zip folded.envelopes,
    ∀ record ∈ pair.1.records, record.details ≠ [] → ∃ again ∈ pair.2.records,
        again.ref = record.ref ∧ again.details = record.details
  bounded : ∀ frame ∈ frames, wire.frameWireBytes frame ≤ bound

/-- No reference that a row is listed under owns a detail of the answer. -/
def NoRowOwns (intOf : String → Option Int) (answered : Answered) : Prop :=
  ∀ index < answered.rows.length, ∀ ref ∈ refsOfRow intOf answered.toAnsweredRows index,
      ∀ detail ∈ answered.recordDetails, ownsDetail ref detail = false

def DetailsApart (answers : List Answered) : Prop :=
  answers.Pairwise fun left right =>
    left.answerQueryId = right.answerQueryId → left.recordDetails = [] ∧ right.recordDetails = []

section Folding

variable {intOf : String → Option Int} {answered : Answered}
  {companions : List Answered} {wire : Wire} {runId : RunId}
  {streamed : StreamedDetails}

theorem foldDetails_terminal (byQuery : List (String × List RecordDetail))
    (envelope : ResultEnvelope) :
    (foldDetails byQuery (terminalEnvelope envelope)).recordDetails =
        detailsOf byQuery envelope.answerQueryId ∧
      (foldDetails byQuery (terminalEnvelope envelope)).records = [] := by
  simp only [foldDetails]
  split
  · rename_i empty
    exact ⟨(List.isEmpty_iff.mp empty).symm, rfl⟩
  · exact ⟨rfl, rfl⟩

theorem withStreamedDetails_terminal (outcome : AnsweredOutcome) :
    (withStreamedDetails streamed runId (terminalForm outcome)).1.envelopes =
      outcome.envelopes.map fun envelope =>
        foldDetails ((streamed.lookup runId.text).getD []) (terminalEnvelope envelope) := by
  unfold withStreamedDetails
  cases streamed.lookup runId.text with
  | some byQuery =>
    simp [AnsweredOutcome.envelopes, terminalForm, Function.comp_def]
  | none =>
    have unchanged : ∀ envelope, foldDetails [] (terminalEnvelope envelope) =
        terminalEnvelope envelope := fun _ => rfl
    simp [AnsweredOutcome.envelopes, terminalForm, unchanged]

theorem records_own_nothing_iff :
    (∀ record ∈ recordResults intOf answered.toAnsweredRows, record.details = []) ↔
      NoRowOwns intOf answered := by
  constructor
  · intro nothing index inRows ref listed detail member
    by_contra owns
    have record := nothing
      { ref, fields := answered.rows[index]
        details := answered.recordDetails.filter (ownsDetail ref) } <| by
        apply mem_append_left
        apply List.mem_flatMap.mpr
        refine ⟨(answered.rows[index], index), ?_, mem_map_of_mem listed⟩
        exact List.mk_mem_zipIdx_iff_getElem?.mpr (List.getElem?_eq_getElem inRows)
    apply List.filter_eq_nil_iff.mp record detail member
    simpa using owns
  · intro noOwner record member
    rcases List.mem_append.mp member with member | member
    · obtain ⟨⟨row, index⟩, inRows, listed⟩ := List.mem_flatMap.mp member
      obtain ⟨ref, isRef, rfl⟩ := List.mem_map.mp listed
      apply List.filter_eq_nil_iff.mpr
      intro detail member
      have ⟨within, _⟩ := List.getElem?_eq_some_iff.mp (List.mk_mem_zipIdx_iff_getElem?.mp inRows)
      rw [noOwner index within ref isRef detail member]
      exact Bool.false_ne_true
    · split at member
      · exact absurd member not_mem_nil
      · obtain ⟨ref, _, rfl⟩ := List.mem_map.mp member
        rfl

theorem exists_back {before after : TurnStream}
    (ran : (serializeAnswered intOf answered companions).envelopes.forM
      (fun envelope => streamRecordDetails wire runId envelope.toEnvelope) before = .ok () after)
    (fresh : streamed.lookup runId.text = none) :
    ∃ (frames : List AskV2Event) (back : Answered → ResultEnvelope),
      after.enqueued.drop before.enqueued.length = frames ∧ (∀ frame ∈ frames,
          wire.frameWireBytes frame ≤ before.queue.maxFrameBytes) ∧
        (withStreamedDetails (frames.foldl rememberDetails streamed) runId
          (terminalForm (serializeAnswered intOf answered companions))).1.envelopes =
            (answered :: companions).map back ∧
        ∀ answer, (back answer).records = [] ∧ (back answer).recordDetails =
            factsUnder Answered.answerQueryId (fun answer => answer.recordDetails)
              (answered :: companions) answer.answerQueryId := by
  let outcome := serializeAnswered intOf answered companions
  have envelopes : outcome.envelopes =
      (answered :: companions).map (buildUnifiedEnvelope intOf) := rfl
  have brings := @Bringing.forM wire runId _ _ _ outcome.envelopes
    (fun envelope => bringing_streamRecordDetails envelope.toEnvelope) before
  unfold Leads at brings
  rw [ran] at brings
  obtain ⟨_, frames, enqueued, carries⟩ := brings
  let byQuery := ((frames.foldl rememberDetails streamed).lookup runId.text).getD []
  refine ⟨frames, fun answer =>
    foldDetails byQuery (terminalEnvelope (buildUnifiedEnvelope intOf answer)),
    ?_, carries.bounded, ?_, fun answer => ?_⟩
  · rw [enqueued, drop_left]
  · rw [withStreamedDetails_terminal, envelopes, map_map]
    rfl
  · have ⟨details, records⟩ :=
      foldDetails_terminal byQuery (buildUnifiedEnvelope intOf answer)
    refine ⟨records, details.trans ?_⟩
    have nothingBefore : streamedFor streamed runId answer.answerQueryId = [] := by
      rw [streamedFor, fresh]
      rfl
    have remembered := carries.remembered streamed answer.answerQueryId
    rw [nothingBefore, envelopes, flatMap_map] at remembered
    exact remembered

/-- The details of an answered outcome that streamed come back to it exactly
when no row had any and no two of its answers share an id under which one
does. -/
theorem detailsReturn_iff {before after : TurnStream}
    (ran : (serializeAnswered intOf answered companions).envelopes.forM
      (fun envelope => streamRecordDetails wire runId envelope.toEnvelope) before = .ok () after)
    (fresh : streamed.lookup runId.text = none) :
    DetailsReturn wire before.queue.maxFrameBytes (after.enqueued.drop before.enqueued.length)
        (serializeAnswered intOf answered companions)
        (withStreamedDetails
          ((after.enqueued.drop before.enqueued.length).foldl rememberDetails streamed)
          runId (terminalForm (serializeAnswered intOf answered companions))).1 ↔
      (∀ answer ∈ answered :: companions, NoRowOwns intOf answer) ∧
        DetailsApart (answered :: companions) := by
  obtain ⟨frames, back, rfl, bounded, folded, comesBack⟩ := exists_back ran fresh
  have envelopes : (serializeAnswered intOf answered companions).envelopes =
      (answered :: companions).map (buildUnifiedEnvelope intOf) := rfl
  rw [DetailsApart, ← factsUnder_eq_own_iff]
  constructor
  · intro returned
    constructor
    · intro answer member
      apply records_own_nothing_iff.mp
      intro record listed
      by_contra owns
      have paired := mem_map_of_mem
        (f := fun answer => (buildUnifiedEnvelope intOf answer, back answer)) member
      rw [← zip_map', ← envelopes, ← folded] at paired
      obtain ⟨again, listedAgain, _⟩ := returned.records _ paired record listed owns
      rw [(comesBack answer).1] at listedAgain
      exact not_mem_nil listedAgain
    · have facts := returned.facts
      rw [folded, envelopes, map_map, map_map, map_inj_left] at facts
      intro answer member
      rw [← (comesBack answer).2]
      exact facts answer member
  · rintro ⟨noOwner, own⟩
    constructor
    · rw [folded, envelopes, map_map, map_map, map_inj_left]
      intro answer member
      exact (comesBack answer).2.trans (own answer member)
    · intro pair member record listed owns
      rw [envelopes, folded, zip_map'] at member
      obtain ⟨answer, isAnswer, rfl⟩ := List.mem_map.mp member
      exact absurd (records_own_nothing_iff.mpr (noOwner answer isAnswer) record listed) owns
    · exact bounded

end Folding

section Runs

def tenByteDetails : Wire where
  frameWireBytes := fun _ => 100
  detailWireBytes := fun _ => 10
  cellText := fun _ => ""
  validates := fun _ => true
  tableDigest := fun _ => ""
  columnLabel := fun _ _ => ""
  clock := fun _ => 0

def invoiceAnswered : Answered where
  rows := [[("name", .text "INV-1")]]
  recordRefs := [{ resource := "invoice", recordId := 1, rowIndex := some 0 }]
  recordDetails := [{
    family := "attachments"
    ownerResource := some "invoice"
    ownerId := some (.integer 1) }]
  answerQueryId := "q1"
  answerText := "One invoice."
  totalRowCount := 1

/-- The same answer, whose attachment names no owner. -/
def ownerlessAnswered : Answered :=
  { invoiceAnswered with recordDetails := [{ family := "attachments" }] }

/-- An attachment without an owner comes back. -/
theorem detailsReturn_ownerless : ∃ after,
      (serializeAnswered String.toInt? ownerlessAnswered []).envelopes.forM (fun envelope =>
            streamRecordDetails tenByteDetails ⟨"run", by decide⟩
              envelope.toEnvelope) {} = .ok () after ∧
        DetailsReturn tenByteDetails maxFrameBytes after.enqueued
          (serializeAnswered String.toInt? ownerlessAnswered [])
          (withStreamedDetails (after.enqueued.foldl rememberDetails [])
            ⟨"run", by decide⟩
            (terminalForm (serializeAnswered String.toInt? ownerlessAnswered []))).1 := by
  refine ⟨_, rfl, ?_⟩
  apply (@detailsReturn_iff _ _ _ tenByteDetails _ [] {} _ rfl rfl).mpr
  constructor
  · intro answer member index _ ref _ detail isDetail
    rw [List.mem_singleton.mp member] at isDetail
    rw [List.mem_singleton.mp isDetail]
    rfl
  · exact pairwise_singleton _ _

/-- The invoice's attachment streams and comes back under no record. -/
theorem not_detailsReturn_invoice : ∃ after,
      (serializeAnswered String.toInt? invoiceAnswered []).envelopes.forM (fun envelope =>
            streamRecordDetails tenByteDetails ⟨"run", by decide⟩
              envelope.toEnvelope) {} = .ok () after ∧
        ¬ DetailsReturn tenByteDetails maxFrameBytes after.enqueued
          (serializeAnswered String.toInt? invoiceAnswered [])
          (withStreamedDetails (after.enqueued.foldl rememberDetails [])
            ⟨"run", by decide⟩
            (terminalForm (serializeAnswered String.toInt? invoiceAnswered []))).1 := by
  refine ⟨_, rfl, fun returned => ?_⟩
  obtain ⟨again, listed, _⟩ := returned.records _ mem_cons_self _
    mem_cons_self (cons_ne_nil _ _)
  exact not_mem_nil listed

end Runs

end McpAssistant.Services.StreamedDetails
