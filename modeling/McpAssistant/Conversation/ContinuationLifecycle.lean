import McpAssistant.Conversation.PendingContinuation

/-!
# The lifecycle of a continuation

What two stores note of their continuations, as one log, the latest event first.
A lawful log only goes on from the record stored last: a record is created once,
claimed once and ended once, and its outcome is answered to the principal and
the key it was claimed with.
-/

namespace McpAssistant.Conversation.ContinuationLifecycle

open PendingContinuation List

variable {Json : Type}

/-- What a store does: it stores a record when it is created, claimed or ended,
and tells a turn that it holds the claim or what the outcome is. -/
inductive Event (Json : Type) where
  | created (jti : String) (record : Continuation Json)
  | claimed (jti : String) (record : Continuation Json)
  | ended (jti : String) (record : Continuation Json)
  | reclaimed (jti executionId : String)
  | answered (jti principalBindingHash idempotencyKeyHash : String) (outcome : Json)
deriving DecidableEq

/-- The record an event stores under a ticket's id. -/
def Event.stores (jti : String) : Event Json → Option (Continuation Json)
  | created other record => if other = jti then some record else none
  | claimed other record => if other = jti then some record else none
  | ended other record => if other = jti then some record else none
  | reclaimed _ _ => none
  | answered _ _ _ _ => none

/-- The records stored under a ticket's id, the latest first. -/
def history (jti : String) (log : List (Event Json)) : List (Continuation Json) :=
  log.filterMap (Event.stores jti)

def latest (jti : String) (log : List (Event Json)) : Option (Continuation Json) :=
  (history jti log).head?

variable {jti : String} {event : Event Json} {record : Continuation Json}

theorem history_cons_of_stores (stores : event.stores jti = some record) (log : List (Event Json)) :
    history jti (event :: log) = record :: history jti log := by
  rw [history, filterMap_cons, stores]
  rfl

theorem history_cons_of_none (stores : event.stores jti = none) (log : List (Event Json)) :
    history jti (event :: log) = history jti log := by
  rw [history, filterMap_cons, stores]
  rfl

/-- What comes next after a log. -/
inductive Follows (log : List (Event Json)) : Event Json → Prop where
  | created (jti : String) (record : Continuation Json)
      (fresh : history jti log = []) (pending : record.status = .pending) :
      Follows log (.created jti record)
  | claimed (jti : String) (turn : Turn) (record next : Continuation Json)
      (current : latest jti log = some record)
      (claims : Claims turn record next) : Follows log (.claimed jti next)
  | ended (jti : String) (record next : Continuation Json)
      (current : latest jti log = some record) (ends : Ends record next) :
      Follows log (.ended jti next)
  | reclaimed (jti executionId : String) (record : Continuation Json)
      (current : latest jti log = some record)
      (claimed : record.status = .claimed)
      (holds : record.claimedBy = some executionId) :
      Follows log (.reclaimed jti executionId)
  | answered (jti principal key : String) (outcome : Json)
      (record : Continuation Json) (current : latest jti log = some record)
      (completed : record.status = .completed)
      (isPrincipal : record.principalBindingHash = principal)
      (isKey : record.idempotencyKeyHash = some key)
      (isOutcome : record.terminalOutcome = some outcome) :
      Follows log (.answered jti principal key outcome)

inductive Lawful : List (Event Json) → Prop where
  | start : Lawful []
  | next {log : List (Event Json)} (lawful : Lawful log) (event : Event Json)
      (follows : Follows log event) : Lawful (event :: log)

/-- What a ticket's records went through, the latest first. -/
inductive Course : List (Continuation Json) → Prop where
  | fresh : Course []
  | pending (record : Continuation Json) (pending : record.status = .pending) : Course [record]
  | claimed (turn : Turn) (record next : Continuation Json)
      (claims : Claims turn record next) : Course [next, record]
  | ended (turn : Turn) (record next last : Continuation Json)
      (claims : Claims turn record next) (ends : Ends next last) :
      Course [last, next, record]

/-- Records move from pending to claimed to one terminal state and stay there,
one turn's claim is granted and only the execution that holds it is told so
again, and an outcome is answered only to the principal the record was created
for, with the key it was claimed with. -/
structure Linear (log : List (Event Json)) : Prop where
  courses : ∀ jti, Course (history jti log)
  claimedOnce : ∀ newer older jti record, log = newer ++ .claimed jti record :: older →
      ∀ other, .claimed jti other ∉ older
  final : ∀ newer older jti event record, log = newer ++ event :: older →
    event.stores jti = some record → record.status.Terminal → history jti newer = []
  reclaimed : ∀ jti executionId, .reclaimed jti executionId ∈ log →
    ∃ record, .claimed jti record ∈ log ∧ record.claimedBy = some executionId
  answered : ∀ jti principal key outcome,
    .answered jti principal key outcome ∈ log → ∃ first claim last,
      .created jti first ∈ log ∧ first.principalBindingHash = principal ∧
        .claimed jti claim ∈ log ∧ claim.idempotencyKeyHash = some key ∧
          .ended jti last ∈ log ∧ last.status = .completed ∧ last.terminalOutcome = some outcome

theorem terminal_not_claimed (terminal : record.status.Terminal) : record.status ≠ .claimed := by
  intro claimed
  rw [claimed] at terminal
  rcases terminal with same | same
  · cases same
  · cases same

theorem terminal_not_pending (terminal : record.status.Terminal) : record.status ≠ .pending := by
  intro pending
  rw [pending] at terminal
  rcases terminal with same | same
  · cases same
  · cases same

variable {records : List (Continuation Json)}

theorem Course.of_pending (course : Course records)
    (current : records.head? = some record) (pending : record.status = .pending) :
    records = [record] := by
  cases course with
  | fresh => cases current
  | pending first _ =>
    cases current
    rfl
  | claimed turn first next claims =>
    cases current
    rw [claims.claimed] at pending
    cases pending
  | ended turn first next last claims ends =>
    cases current
    exact absurd pending (terminal_not_pending ends.terminal)

theorem Course.of_claimed (course : Course records)
    (current : records.head? = some record) (claimed : record.status = .claimed) :
    ∃ turn first, Claims turn first record ∧ records = [record, first] := by
  cases course with
  | fresh => cases current
  | pending first pending =>
    cases current
    rw [claimed] at pending
    cases pending
  | claimed turn first next claims =>
    cases current
    exact ⟨turn, first, claims, rfl⟩
  | ended turn first next last claims ends =>
    cases current
    exact absurd claimed (terminal_not_claimed ends.terminal)

theorem Course.of_terminal (course : Course records) (current : records.head? = some record)
    (terminal : record.status.Terminal) :
    ∃ turn first claim, Claims turn first claim ∧ Ends claim record ∧
      records = [record, claim, first] := by
  cases course with
  | fresh => cases current
  | pending first pending =>
    cases current
    exact absurd pending (terminal_not_pending terminal)
  | claimed turn first next claims =>
    cases current
    exact absurd claims.claimed (terminal_not_claimed terminal)
  | ended turn first next last claims ends =>
    cases current
    exact ⟨turn, first, next, claims, ends, rfl⟩

variable {log : List (Event Json)}

theorem Lawful.course (lawful : Lawful log) (jti : String) : Course (history jti log) := by
  induction lawful with
  | start => exact .fresh
  | @next log lawful event follows ih =>
    cases stores : event.stores jti with
    | none =>
      rw [history_cons_of_none stores]
      exact ih
    | some stored =>
      rw [history_cons_of_stores stores]
      cases follows with
      | created other record fresh pending =>
        rw [Event.stores] at stores
        split at stores
        · rename_i same
          cases stores
          rw [same] at fresh
          rw [fresh]
          exact .pending stored pending
        · cases stores
      | claimed other turn record next current claims =>
        rw [Event.stores] at stores
        split at stores
        · rename_i same
          cases stores
          rw [same] at current
          rw [ih.of_pending current claims.pending]
          exact .claimed turn record stored claims
        · cases stores
      | ended other record next current ends =>
        rw [Event.stores] at stores
        split at stores
        · rename_i same
          cases stores
          rw [same] at current
          rcases ih.of_claimed current ends.claimed with ⟨turn, first, claims, isHistory⟩
          rw [isHistory]
          exact .ended turn first record stored claims ends
        · cases stores
      | reclaimed other executionId record current claimed holds =>
        cases stores
      | answered other principal key outcome record current completed
          isPrincipal isKey isOutcome => cases stores

theorem Lawful.follows {newer older : List (Event Json)}
    (lawful : Lawful (newer ++ event :: older)) :
    Lawful older ∧ Follows older event := by
  induction newer with
  | nil =>
    cases lawful with
    | next lawful _ follows => exact ⟨lawful, follows⟩
  | cons first newer ih =>
    cases lawful with
    | next lawful _ follows => exact ih lawful

theorem history_append (jti : String) (newer older : List (Event Json)) :
    history jti (newer ++ older) = history jti newer ++ history jti older :=
  filterMap_append

theorem Course.newer_of_terminal {newer older : List (Continuation Json)} (course : Course records)
    (inside : records = newer ++ record :: older)
    (terminal : record.status.Terminal) : newer = [] := by
  cases newer with
  | nil => rfl
  | cons first newer =>
    have listed : record ∈ newer ++ record :: older := mem_append_right newer mem_cons_self
    cases course with
    | fresh => cases inside
    | pending alone pending =>
      have rest : [] = newer ++ record :: older := (List.cons.inj inside).2
      rw [← rest] at listed
      cases listed
    | claimed turn pending next claims =>
      have rest : [pending] = newer ++ record :: older := (List.cons.inj inside).2
      rw [← rest] at listed
      rw [List.mem_singleton.mp listed] at terminal
      exact absurd claims.pending (terminal_not_pending terminal)
    | ended turn pending next last claims ends =>
      have rest : [next, pending] = newer ++ record :: older := (List.cons.inj inside).2
      rw [← rest] at listed
      rcases List.mem_cons.mp listed with same | listed
      · rw [same] at terminal
        exact absurd ends.claimed (terminal_not_claimed terminal)
      · rw [List.mem_singleton.mp listed] at terminal
        exact absurd claims.pending (terminal_not_pending terminal)

/-- An event that stores a record under a ticket's id, by what the record's
status is. -/
inductive Stored (log : List (Event Json)) (jti : String) (record : Continuation Json) : Prop where
  | created (pending : record.status = .pending) (noted : .created jti record ∈ log)
  | claimed (claimed : record.status = .claimed) (noted : .claimed jti record ∈ log)
  | ended (terminal : record.status.Terminal) (noted : .ended jti record ∈ log)

theorem Stored.cons {log : List (Event Json)} {jti : String}
    {record : Continuation Json} (stored : Stored log jti record)
    (event : Event Json) : Stored (event :: log) jti record := by
  cases stored with
  | created pending noted => exact .created pending (mem_cons_of_mem _ noted)
  | claimed claimed noted => exact .claimed claimed (mem_cons_of_mem _ noted)
  | ended terminal noted => exact .ended terminal (mem_cons_of_mem _ noted)

theorem Follows.stored (follows : Follows log event) (stores : event.stores jti = some record) :
    Stored (event :: log) jti record := by
  cases follows with
  | created other created fresh pending =>
    rw [Event.stores] at stores
    split at stores
    · rename_i same
      cases stores
      cases same
      exact .created pending mem_cons_self
    · cases stores
  | claimed other turn before next current claims =>
    rw [Event.stores] at stores
    split at stores
    · rename_i same
      cases stores
      cases same
      exact .claimed claims.claimed mem_cons_self
    · cases stores
  | ended other before next current ends =>
    rw [Event.stores] at stores
    split at stores
    · rename_i same
      cases stores
      cases same
      exact .ended ends.terminal mem_cons_self
    · cases stores
  | reclaimed other executionId before current claimed holds => cases stores
  | answered other principal key outcome before current completed isPrincipal
      isKey isOutcome => cases stores

theorem Lawful.stored (lawful : Lawful log)
    (inside : record ∈ history jti log) : Stored log jti record := by
  induction lawful with
  | start => cases inside
  | @next log lawful event follows ih =>
    cases stores : event.stores jti with
    | none =>
      rw [history_cons_of_none stores] at inside
      exact (ih inside).cons event
    | some stored =>
      rw [history_cons_of_stores stores] at inside
      rcases List.mem_cons.mp inside with rfl | before
      · exact follows.stored stores
      · exact (ih before).cons event

theorem mem_history (noted : event ∈ log)
    (stores : event.stores jti = some record) : record ∈ history jti log :=
  List.mem_filterMap.mpr ⟨event, noted, stores⟩

theorem noted_claimed (lawful : Lawful log)
    (inside : record ∈ history jti log) (claimed : record.status = .claimed) :
    .claimed jti record ∈ log := by
  cases lawful.stored inside with
  | created pending noted =>
    rw [claimed] at pending
    cases pending
  | claimed _ noted => exact noted
  | ended terminal noted => exact absurd claimed (terminal_not_claimed terminal)

theorem noted_pending (lawful : Lawful log)
    (inside : record ∈ history jti log) (pending : record.status = .pending) :
    .created jti record ∈ log := by
  cases lawful.stored inside with
  | created _ noted => exact noted
  | claimed claimed noted =>
    rw [pending] at claimed
    cases claimed
  | ended terminal noted => exact absurd pending (terminal_not_pending terminal)

theorem noted_terminal (lawful : Lawful log)
    (inside : record ∈ history jti log) (terminal : record.status.Terminal) :
    .ended jti record ∈ log := by
  cases lawful.stored inside with
  | created pending noted => exact absurd pending (terminal_not_pending terminal)
  | claimed claimed noted => exact absurd claimed (terminal_not_claimed terminal)
  | ended _ noted => exact noted

theorem mem_of_latest (current : latest jti log = some record) : record ∈ history jti log :=
  mem_of_head? current

theorem Lawful.claimedOnce {newer older : List (Event Json)}
    (lawful : Lawful (newer ++ .claimed jti record :: older))
    (other : Continuation Json) : .claimed jti other ∉ older := by
  intro noted
  rcases lawful.follows with ⟨before, follows⟩
  cases follows with
  | claimed _ turn pending _ current claims =>
    have alone := (before.course jti).of_pending current claims.pending
    have inside : other ∈ history jti older := mem_history noted (if_pos rfl)
    rw [alone] at inside
    rcases append_of_mem noted with ⟨later, earlier, rfl⟩
    cases (Lawful.follows before).2 with
    | claimed _ _ _ _ _ alsoClaims =>
      have claimed := alsoClaims.claimed
      rw [List.mem_singleton.mp inside, claims.pending] at claimed
      cases claimed

theorem Lawful.answered (lawful : Lawful log) {principal key : String} {outcome : Json}
    (noted : .answered jti principal key outcome ∈ log) :
    ∃ first claim last, .created jti first ∈ log ∧
      first.principalBindingHash = principal ∧
        .claimed jti claim ∈ log ∧ claim.idempotencyKeyHash = some key ∧
          .ended jti last ∈ log ∧ last.status = .completed ∧
            last.terminalOutcome = some outcome := by
  rcases append_of_mem noted with ⟨newer, older, rfl⟩
  rcases lawful.follows with ⟨before, follows⟩
  have grows : ∀ event, event ∈ older →
      event ∈ newer ++ .answered jti principal key outcome :: older :=
    fun event old => mem_append_right newer (mem_cons_of_mem _ old)
  cases follows with
  | answered _ _ _ _ record current completed isPrincipal isKey isOutcome =>
    rcases (before.course jti).of_terminal current (.inl completed) with
      ⟨turn, first, claim, claims, ends, isHistory⟩
    have inside : ∀ stored, stored ∈ [record, claim, first] → stored ∈ history jti older := by
      rw [isHistory]
      exact fun stored listed => listed
    have isFirst : .created jti first ∈ older :=
      noted_pending before (inside first (by simp)) claims.pending
    have isClaim : .claimed jti claim ∈ older :=
      noted_claimed before (inside claim (by simp)) claims.claimed
    have isLast : .ended jti record ∈ older :=
      noted_terminal before (inside record (by simp)) (.inl completed)
    have samePrincipal : first.principalBindingHash = principal := by
      rw [← claims.continues.principal, ← ends.continues.principal]
      exact isPrincipal
    have sameKey : claim.idempotencyKeyHash = some key := by
      rcases ends.continues.key with pending | same
      · rw [claims.claimed] at pending
        cases pending
      · rw [← same]
        exact isKey
    exact ⟨first, claim, record, grows _ isFirst, samePrincipal,
      grows _ isClaim, sameKey, grows _ isLast, completed, isOutcome⟩

/-- Nothing is stored after a completed record, so the one stored last says what was
answered. -/
theorem Lawful.answers (lawful : Lawful log) {principal key : String} {outcome : Json}
    (noted : .answered jti principal key outcome ∈ log) :
    ∃ record, latest jti log = some record ∧ record.principalBindingHash = principal ∧
      record.idempotencyKeyHash = some key ∧ record.terminalOutcome = some outcome := by
  obtain ⟨newer, older, rfl⟩ := append_of_mem noted
  obtain ⟨_, follows⟩ := lawful.follows
  cases follows with
  | answered _ _ _ _ record current completed isPrincipal isKey isOutcome =>
    obtain ⟨rest, isOlder⟩ := head?_eq_some_iff.mp current
    have isHistory := history_append jti newer (.answered jti principal key outcome :: older)
    rw [history_cons_of_none rfl, isOlder] at isHistory
    have none := (lawful.course jti).newer_of_terminal isHistory (.inl completed)
    refine ⟨record, ?_, isPrincipal, isKey, isOutcome⟩
    rw [latest, isHistory, none]
    rfl

theorem Lawful.reclaimed (lawful : Lawful log)
    {executionId : String} (noted : .reclaimed jti executionId ∈ log) :
    ∃ record, .claimed jti record ∈ log ∧ record.claimedBy = some executionId := by
  rcases append_of_mem noted with ⟨newer, older, rfl⟩
  rcases lawful.follows with ⟨before, follows⟩
  cases follows with
  | reclaimed _ _ record current claimed holds =>
    have isClaim := noted_claimed before (mem_of_latest current) claimed
    exact ⟨record, mem_append_right newer (mem_cons_of_mem _ isClaim), holds⟩

theorem Lawful.linear (lawful : Lawful log) : Linear log := by
  constructor
  · exact lawful.course
  · rintro newer older jti record rfl other
    exact lawful.claimedOnce other
  · rintro newer older jti event record rfl stores terminal
    have inside : history jti (newer ++ event :: older) =
        history jti newer ++ record :: history jti older := by
      rw [history_append, history_cons_of_stores stores]
    exact (lawful.course jti).newer_of_terminal inside terminal
  · intro jti executionId noted
    exact lawful.reclaimed noted
  · intro jti principal key outcome noted
    exact lawful.answered noted

end McpAssistant.Conversation.ContinuationLifecycle
