import McpAssistant.Foundations.Interleaving
import McpAssistant.Panel.TurnStore

/-!
# Finished turns stay finished

A terminal status is kept by every call but a binding: binding a run to a turn
submits it again.  The index of the runs agrees with the turns as long as a run
is bound to one turn.  A call is orderly when each binding it makes is of a turn
that has not finished and of a run that no turn carries.
-/

namespace McpAssistant.Panel.TurnStore

open Foundations.JsonReading
open Foundations.Interleaving

/-- The index finds a turn exactly when the turn carries the run. -/
def IndexAgrees (store : Store) : Prop :=
  ∀ runId turn, store.byRun runId = some turn ↔
    store.turns.lookup turn.msgId = some turn ∧ turn.runId = some runId

/-- A message has one turn, which stands under it, and the index names the
messages of the runs that the turns carry. -/
structure Agreeing (store : Store) : Prop where
  distinct : (store.turns.map Prod.fst).Nodup
  keyed : ∀ msgId turn, store.turns.lookup msgId = some turn → turn.msgId = msgId
  indexed : ∀ runId msgId, store.messageByRun.lookup runId = some msgId ↔
    ∃ turn, store.turns.lookup msgId = some turn ∧ turn.runId = some runId

variable {store : Store}

theorem Agreeing.indexAgrees (agreeing : Agreeing store) : IndexAgrees store := by
  intro runId turn
  rw [Store.byRun, Option.bind_eq_some_iff]
  constructor
  · rintro ⟨msgId, indexed, held⟩
    obtain ⟨carrier, carried, carries⟩ := (agreeing.indexed runId msgId).mp indexed
    rw [held] at carried
    cases carried
    rw [agreeing.keyed msgId turn held]
    exact ⟨held, carries⟩
  · rintro ⟨held, carries⟩
    exact ⟨turn.msgId, (agreeing.indexed runId turn.msgId).mpr ⟨turn, held, carries⟩, held⟩

theorem Agreeing.empty : Agreeing {} where
  distinct := List.nodup_nil
  keyed := fun _ _ held => nomatch held
  indexed := fun _ _ =>
    ⟨fun indexed => (nomatch indexed), fun ⟨_, held, _⟩ => (nomatch held)⟩

def Unbound (store : Store) (runId : String) : Prop :=
  ∀ msgId turn, store.turns.lookup msgId = some turn → turn.runId ≠ some runId

section Turns

variable {store : Store} {turn : Turn} {msgId runId : String}

theorem turnAt_of_lookup (held : store.turns.lookup msgId = some turn) :
    store.turnAt msgId = turn := by
  rw [Store.turnAt, held]
  rfl

theorem turnAt_of_absent (absent : store.turns.lookup msgId = none) :
    store.turnAt msgId = { msgId } := by
  rw [Store.turnAt, absent]
  rfl

theorem Agreeing.turnAt_msgId (agreeing : Agreeing store) (msgId : String) :
    (store.turnAt msgId).msgId = msgId := by
  cases held : store.turns.lookup msgId with
  | none => rw [turnAt_of_absent held]
  | some turn =>
    rw [turnAt_of_lookup held]
    exact agreeing.keyed msgId turn held

theorem lookup_put_self : (store.put turn).turns.lookup turn.msgId = some turn := lookup_putKey_self

theorem lookup_put_of_ne (apart : msgId ≠ turn.msgId) :
    (store.put turn).turns.lookup msgId = store.turns.lookup msgId :=
  lookup_putKey_of_ne apart

theorem messageByRun_put : (store.put turn).messageByRun = store.messageByRun := rfl

theorem turns_index (runId msgId : String) : (store.index runId msgId).turns = store.turns := rfl

/-- A turn written back with the run it had keeps the index right. -/
theorem Agreeing.put (agreeing : Agreeing store)
    (same : turn.runId = (store.turnAt turn.msgId).runId) :
    Agreeing (store.put turn) where
  distinct := nodup_keys_putKey agreeing.distinct
  keyed := by
    intro msgId found held
    by_cases here : msgId = turn.msgId
    · rw [here, lookup_put_self] at held
      cases held
      exact here.symm
    · rw [lookup_put_of_ne here] at held
      exact agreeing.keyed msgId found held
  indexed := by
    intro runId msgId
    rw [messageByRun_put, agreeing.indexed]
    by_cases here : msgId = turn.msgId
    · rw [here, lookup_put_self]
      constructor
      · rintro ⟨held, found, carries⟩
        rw [turnAt_of_lookup found] at same
        exact ⟨turn, rfl, same.trans carries⟩
      · rintro ⟨_, found, carries⟩
        cases found
        cases before : store.turns.lookup turn.msgId with
        | none =>
          rw [turnAt_of_absent before] at same
          rw [same] at carries
          cases carries
        | some held =>
          rw [turnAt_of_lookup before] at same
          exact ⟨held, rfl, same.symm.trans carries⟩
    · rw [lookup_put_of_ne here]

theorem Agreeing.putIndex (agreeing : Agreeing store) (carries : turn.runId = some runId)
    (blank : (store.turnAt turn.msgId).runId = none)
    (unbound : Unbound store runId) :
    Agreeing ((store.put turn).index runId turn.msgId) where
  distinct := nodup_keys_putKey agreeing.distinct
  keyed := by
    intro msgId found held
    rw [turns_index] at held
    by_cases here : msgId = turn.msgId
    · rw [here, lookup_put_self] at held
      cases held
      exact here.symm
    · rw [lookup_put_of_ne here] at held
      exact agreeing.keyed msgId found held
  indexed := by
    intro run msgId
    rw [turns_index]
    show (putKey runId turn.msgId store.messageByRun).lookup run = some msgId ↔ _
    by_cases here : msgId = turn.msgId
    · rw [here, lookup_put_self]
      by_cases same : run = runId
      · rw [same, lookup_putKey_self]
        exact ⟨fun _ => ⟨turn, rfl, carries⟩, fun _ => rfl⟩
      · rw [lookup_putKey_of_ne same, agreeing.indexed]
        constructor
        · rintro ⟨held, found, other⟩
          rw [turnAt_of_lookup found, other] at blank
          cases blank
        · rintro ⟨_, found, other⟩
          cases found
          rw [carries] at other
          exact absurd (Option.some.inj other).symm same
    · rw [lookup_put_of_ne here]
      by_cases same : run = runId
      · rw [same, lookup_putKey_self]
        constructor
        · intro indexed
          exact absurd (Option.some.inj indexed).symm here
        · rintro ⟨held, found, other⟩
          exact absurd other (unbound msgId held found)
      · rw [lookup_putKey_of_ne same, agreeing.indexed]

end Turns

/-- Every turn is still there, and a finished one has the status it had. -/
def Keeps (before after : Store) : Prop :=
  ∀ msgId turn, before.turns.lookup msgId = some turn →
    ∃ later, after.turns.lookup msgId = some later ∧
      (turn.isTerminal = true → later.status = turn.status)

theorem Keeps.refl (store : Store) : Keeps store store :=
  fun _ turn held => ⟨turn, held, fun _ => rfl⟩

variable {turn : Turn}

theorem isTerminal_congr {later : Turn} (same : later.status = turn.status) :
    later.isTerminal = turn.isTerminal := by
  rw [Turn.isTerminal, Turn.isTerminal, same]

theorem Keeps.trans {first second third : Store} (one : Keeps first second)
    (two : Keeps second third) : Keeps first third := by
  intro msgId turn held
  obtain ⟨middle, heldMiddle, keptMiddle⟩ := one msgId turn held
  obtain ⟨later, heldLater, keptLater⟩ := two msgId middle heldMiddle
  refine ⟨later, heldLater, fun terminal => ?_⟩
  have same := keptMiddle terminal
  rw [keptLater ((isTerminal_congr same).trans terminal), same]

/-- Writing a turn keeps the finished ones when the turn itself was not finished
or has its status still. -/
theorem Keeps.put (same : (store.turnAt turn.msgId).isTerminal = true →
      turn.status = (store.turnAt turn.msgId).status) :
    Keeps store (store.put turn) := by
  intro msgId held found
  by_cases here : msgId = turn.msgId
  · rw [here] at found
    rw [turnAt_of_lookup found] at same
    rw [here]
    exact ⟨turn, lookup_put_self, same⟩
  · exact ⟨held, (lookup_put_of_ne here).trans found, fun _ => rfl⟩

/-- The call binds the run to the message's turn: the turn had no run. -/
def Binds (store : Store) (msgId runId : String) : Prop :=
  runId ≠ "" ∧ (store.turnAt msgId).runId = none

/-- A binding that submits the turn finds it unfinished and the run unbound. -/
def OrderlyBind (store : Store) (msgId runId : String) : Prop :=
  msgId ≠ "" → Binds store msgId runId →
    (store.turnAt msgId).isTerminal = false ∧ Unbound store runId

/-- Hydration leaves the status alone, so the run alone matters. -/
def OrderlyItems (store : Store) : List (String × StoredItem) → Prop
  | [] => True
  | (msgId, item) :: items =>
    (msgId ≠ "" → Binds store msgId item.runId → Unbound store item.runId) ∧
      OrderlyItems (hydrateItem store msgId item) items

def OrderlyTurns (byRef : List (String × RestorePayload))
    (unresolved : List String) (store : Store) : List String → Prop
  | [] => True
  | msgId :: msgIds =>
    (∀ payload, payloadOf byRef (store.turnAt msgId) = some payload →
      OrderlyBind store msgId payload.runId) ∧
      OrderlyTurns byRef unresolved (restoreTurn byRef unresolved store msgId) msgIds

def OrderlyHydration (store : Store) (stored : List (String × StoredItem)) : Prop :=
  store.hydrated = false → OrderlyItems store stored

def Orderly (store : Store) : Call → Prop
  | .bind msgId runId => OrderlyBind store msgId runId
  | .resolve runId fallbackMsgId =>
    hasKey store.messageByRun runId = false → OrderlyBind store fallbackMsgId runId
  | .hydrate stored => OrderlyItems store stored
  | .applyAuthorizedRestore stored rows =>
    OrderlyHydration store stored ∧
      let ended := restoreStatuses rows (hydratedFirst store stored)
      OrderlyTurns (payloadsByRef rows) (unresolvedRefs rows) ended (ended.turns.map Prod.fst)
  | _ => True

/-- What a call does to a store whose index is right. -/
structure Sound (before after : Store) : Prop where
  agreeing : Agreeing after
  keeps : Keeps before after

theorem Sound.refl (agreeing : Agreeing store) : Sound store store where
  agreeing := agreeing
  keeps := Keeps.refl store

theorem Sound.trans {first second third : Store} (one : Sound first second)
    (two : Sound second third) : Sound first third where
  agreeing := two.agreeing
  keeps := one.keeps.trans two.keeps

section Calls

variable {store : Store} (agreeing : Agreeing store)

include agreeing

variable {turn : Turn}

/-- A turn written back under its message with its run and its status. -/
theorem Agreeing.soundPut (run : turn.runId = (store.turnAt turn.msgId).runId)
    (status : (store.turnAt turn.msgId).isTerminal = true →
      turn.status = (store.turnAt turn.msgId).status) :
    Sound store (store.put turn) where
  agreeing := agreeing.put run
  keeps := Keeps.put status

theorem Agreeing.soundTurnAt (msgId : String) : Sound store (store.put (store.turnAt msgId)) := by
  have here := agreeing.turnAt_msgId msgId
  apply agreeing.soundPut
  · rw [here]
  · intro _
    rw [here]

theorem sound_openTurn (msgId : String) : Sound store (openTurn store msgId) := by
  rw [openTurn]
  split
  · exact Sound.refl agreeing
  · exact agreeing.soundTurnAt msgId

variable {msgId runId : String}

theorem Agreeing.soundBinding (placed : turn.msgId = msgId) (carries : turn.runId = some runId)
    (binds : Binds store msgId runId) (unbound : Unbound store runId)
    (status : (store.turnAt msgId).isTerminal = true → turn.status = (store.turnAt msgId).status) :
    Sound store ((store.put turn).index runId msgId) := by
  subst placed
  constructor
  · exact agreeing.putIndex carries binds.2 unbound
  · exact Keeps.put status

theorem sound_bind (orderly : OrderlyBind store msgId runId) :
    Sound store (bind store msgId runId) := by
  rw [bind]
  split
  · exact Sound.refl agreeing
  · rename_i named
    split
    · rename_i binds
      obtain ⟨unfinished, unbound⟩ := orderly named binds
      refine agreeing.soundBinding ?_ rfl binds unbound ?_
      · exact agreeing.turnAt_msgId msgId
      · intro terminal
        rw [unfinished] at terminal
        cases terminal
    · exact agreeing.soundTurnAt msgId

theorem sound_resolve {fallbackMsgId : String}
    (orderly : hasKey store.messageByRun runId = false → OrderlyBind store fallbackMsgId runId) :
    Sound store (resolve store runId fallbackMsgId) := by
  rw [resolve]
  split
  · exact Sound.refl agreeing
  · rename_i unindexed
    split
    · exact Sound.refl agreeing
    · dsimp only
      split
      · exact agreeing.soundTurnAt fallbackMsgId
      · rename_i elsewhere
        apply sound_bind agreeing
        apply orderly
        cases held : hasKey store.messageByRun runId with
        | false => rfl
        | true =>
          exact absurd ⟨fun blank => elsewhere (Or.inl blank), held⟩ unindexed

theorem lookup_of_byRun (found : store.byRun runId = some turn) : store.turnAt turn.msgId = turn :=
  turnAt_of_lookup ((agreeing.indexAgrees runId turn).mp found).1

theorem sound_endRun (runId : String) (status : Option Status) (durationMs : Option Int) :
    Sound store (endRun store runId status durationMs) := by
  unfold endRun
  split
  · rename_i turn status found
    have held := lookup_of_byRun agreeing found
    split
    · rename_i ends
      apply agreeing.soundPut
      · rw [held]
      · intro terminal
        rw [held] at terminal
        rw [terminal, Bool.not_true, Bool.and_false] at ends
        cases ends
    · exact Sound.refl agreeing
  · exact Sound.refl agreeing

theorem sound_noteRestoreRef (runId restoreRef : String) :
    Sound store (noteRestoreRef store runId restoreRef) := by
  unfold noteRestoreRef
  split
  · rename_i turn found
    have held := lookup_of_byRun agreeing found
    split
    · apply agreeing.soundPut
      · rw [held]
      · intro _
        rw [held]
    · exact Sound.refl agreeing
  · exact Sound.refl agreeing

theorem sound_hydrateItem {item : StoredItem} (orderly : msgId ≠ "" → Binds store msgId item.runId →
      Unbound store item.runId) :
    Sound store (hydrateItem store msgId item) := by
  have here := agreeing.turnAt_msgId msgId
  unfold hydrateItem
  split
  · exact Sound.refl agreeing
  · rename_i named
    have refers : ∃ referred : Turn,
        (if item.restoreRef = "" then store.turnAt msgId
          else { store.turnAt msgId with restoreRef := item.restoreRef }) = referred ∧
        referred.msgId = msgId ∧ referred.runId = (store.turnAt msgId).runId ∧
          referred.status = (store.turnAt msgId).status := by
      split
      · exact ⟨_, rfl, here, rfl, rfl⟩
      · exact ⟨_, rfl, here, rfl, rfl⟩
    obtain ⟨referred, same, placed, run, status⟩ := refers
    dsimp only
    rw [same]
    split
    · rename_i binds
      exact agreeing.soundBinding placed rfl binds (orderly named binds) fun _ => status
    · subst placed
      exact agreeing.soundPut run fun _ => status

end Calls

variable {stored : List (String × StoredItem)}

theorem sound_hydrateItems (agreeing : Agreeing store) (orderly : OrderlyItems store stored) :
    Sound store (hydrateItems store stored) := by
  induction stored generalizing store with
  | nil => exact Sound.refl agreeing
  | cons entry items ih =>
    rcases entry with ⟨msgId, item⟩
    have hydrated := sound_hydrateItem agreeing orderly.1
    exact hydrated.trans (ih hydrated.agreeing orderly.2)

theorem Sound.marked {before after : Store} (sound : Sound before after)
    (hydrated : Bool) : Sound before { after with hydrated } where
  agreeing := ⟨sound.agreeing.distinct, sound.agreeing.keyed, sound.agreeing.indexed⟩
  keeps := sound.keeps

theorem sound_hydrate (agreeing : Agreeing store) (orderly : OrderlyItems store stored) :
    Sound store (hydrate store stored) :=
  (sound_hydrateItems agreeing orderly).marked true

theorem sound_hydratedFirst (agreeing : Agreeing store) (orderly : OrderlyHydration store stored) :
    Sound store (hydratedFirst store stored) := by
  rw [hydratedFirst]
  split
  · exact Sound.refl agreeing
  · rename_i cold
    exact sound_hydrate agreeing (orderly (Bool.eq_false_iff.mpr cold))

section Restoring

variable {byRef : List (String × RestorePayload)} {turn : Turn}

theorem restoreStatus_msgId : (restoreStatus byRef turn).msgId = turn.msgId := by
  unfold restoreStatus
  split
  · split
    · rfl
    · rfl
  · rfl

theorem restoreStatus_runId : (restoreStatus byRef turn).runId = turn.runId := by
  unfold restoreStatus
  split
  · split
    · rfl
    · rfl
  · rfl

theorem restoreStatus_of_isTerminal (terminal : turn.isTerminal = true) :
    restoreStatus byRef turn = turn := by
  unfold restoreStatus
  split
  · rw [terminal, Bool.not_true, Bool.and_false]
    rfl
  · rfl

variable {payload : RestorePayload}

theorem restoredStatus_isTerminal (terminal : payload.isTerminal = true) :
    (restoredStatus payload).any Status.isTerminal = true := by
  rw [restoredStatus]
  split
  · rfl
  · exact terminal

theorem restoreStatus_isTerminal (authorized : payloadOf byRef turn = some payload)
    (terminal : payload.isTerminal = true) :
    (restoreStatus byRef turn).isTerminal = true := by
  unfold restoreStatus
  rw [authorized]
  dsimp only
  rw [terminal, Bool.true_and]
  cases held : turn.isTerminal with
  | true => exact held
  | false => exact restoredStatus_isTerminal terminal

theorem lookup_restoreStatuses (rows : List RestoreRow) (store : Store) (msgId : String) :
    (restoreStatuses rows store).turns.lookup msgId =
      (store.turns.lookup msgId).map (restoreStatus (payloadsByRef rows)) :=
  lookup_map_values (restoreStatus (payloadsByRef rows))

variable {store : Store}

theorem sound_restoreStatuses (rows : List RestoreRow) (agreeing : Agreeing store) :
    Sound store (restoreStatuses rows store) where
  agreeing :=
    { distinct := by
        rw [restoreStatuses, List.map_map]
        exact agreeing.distinct
      keyed := by
        intro msgId turn held
        rw [lookup_restoreStatuses, Option.map_eq_some_iff] at held
        obtain ⟨before, found, rfl⟩ := held
        rw [restoreStatus_msgId]
        exact agreeing.keyed msgId before found
      indexed := by
        intro runId msgId
        rw [lookup_restoreStatuses]
        show store.messageByRun.lookup runId = some msgId ↔ _
        rw [agreeing.indexed]
        constructor
        · rintro ⟨turn, found, carries⟩
          rw [found]
          exact ⟨_, rfl, restoreStatus_runId.trans carries⟩
        · rintro ⟨turn, found, carries⟩
          rw [Option.map_eq_some_iff] at found
          obtain ⟨before, held, rfl⟩ := found
          exact ⟨before, held, restoreStatus_runId.symm.trans carries⟩ }
  keeps := by
    intro msgId turn held
    rw [lookup_restoreStatuses, held]
    refine ⟨_, rfl, fun terminal => ?_⟩
    rw [restoreStatus_of_isTerminal terminal]

theorem sound_applyAuthorizedPayload {msgId : String} (agreeing : Agreeing store)
    (orderly : OrderlyBind store msgId payload.runId) :
    Sound store (applyAuthorizedPayload store msgId payload) := by
  have painted : ∀ bound : Store, Sound store bound →
      Sound store (bound.put { bound.turnAt msgId with
        result := restoredResult payload
        evidence := boundedEvidence payload }) := by
    intro bound sound
    have here := sound.agreeing.turnAt_msgId msgId
    apply sound.trans
    apply sound.agreeing.soundPut
    · rw [here]
    · intro _
      rw [here]
  unfold applyAuthorizedPayload
  split
  · exact painted _ (sound_bind agreeing orderly)
  · exact painted _ (Sound.refl agreeing)

variable {unresolved : List String}

theorem sound_restoreTurn {msgId : String} (agreeing : Agreeing store)
    (orderly : ∀ payload, payloadOf byRef (store.turnAt msgId) = some payload →
      OrderlyBind store msgId payload.runId) :
    Sound store (restoreTurn byRef unresolved store msgId) := by
  unfold restoreTurn
  dsimp only
  split
  · rename_i payload authorized
    exact sound_applyAuthorizedPayload agreeing (orderly payload authorized)
  · split
    · have here := agreeing.turnAt_msgId msgId
      apply agreeing.soundPut
      · show _ = (store.turnAt (store.turnAt msgId).msgId).runId
        rw [here]
        rfl
      · intro _
        show _ = (store.turnAt (store.turnAt msgId).msgId).status
        rw [here]
        rfl
    · exact Sound.refl agreeing

theorem sound_restoreTurns {msgIds : List String} (agreeing : Agreeing store)
    (orderly : OrderlyTurns byRef unresolved store msgIds) :
    Sound store (restoreTurns byRef unresolved store msgIds) := by
  induction msgIds generalizing store with
  | nil => exact Sound.refl agreeing
  | cons msgId msgIds ih =>
    have restored : Sound store (restoreTurn byRef unresolved store msgId) :=
      sound_restoreTurn agreeing orderly.1
    exact restored.trans (ih restored.agreeing orderly.2)

end Restoring

variable {rows : List RestoreRow}

theorem sound_applyAuthorizedRestore (agreeing : Agreeing store)
    (orderly : Orderly store (.applyAuthorizedRestore stored rows)) :
    Sound store (applyAuthorizedRestore store stored rows) := by
  have hydrated := sound_hydratedFirst agreeing orderly.1
  have ended := sound_restoreStatuses rows hydrated.agreeing
  have restored := sound_restoreTurns ended.agreeing orderly.2
  exact (hydrated.trans (ended.trans restored)).marked true

theorem restored_isTerminal (agreeing : Agreeing store)
    (orderly : Orderly store (.applyAuthorizedRestore stored rows))
    {msgId : String} {payload : RestorePayload}
    (held : (hydratedFirst store stored).turns.lookup msgId = some turn)
    (authorized : payloadOf (payloadsByRef rows) turn = some payload)
    (terminal : payload.isTerminal = true) :
    ∃ later, (applyAuthorizedRestore store stored rows).turns.lookup msgId = some later ∧
        later.isTerminal = true := by
  have hydrated := sound_hydratedFirst agreeing orderly.1
  have ended := sound_restoreStatuses rows hydrated.agreeing
  have restored := sound_restoreTurns ended.agreeing orderly.2
  have finished := restoreStatus_isTerminal authorized terminal
  have heldEnded : (restoreStatuses rows (hydratedFirst store stored)).turns.lookup msgId =
        some (restoreStatus (payloadsByRef rows) turn) := by
    rw [lookup_restoreStatuses, held]
    rfl
  obtain ⟨later, heldLater, kept⟩ := restored.keeps msgId _ heldEnded
  exact ⟨later, heldLater, (isTerminal_congr (kept finished)).trans finished⟩

/-- No removed turn carries the run. -/
def keptRun (store : Store) (isPresent : String → Bool) (runId : String) : Bool :=
  (store.turns.filter fun entry => !isPresent entry.1).all fun gone =>
    gone.2.runId ≠ some runId

section Pruning

variable {store : Store} {isPresent : String → Bool}

theorem lookup_prune (msgId : String) : (prune store isPresent).turns.lookup msgId =
      if isPresent msgId then store.turns.lookup msgId else none :=
  lookup_filter_keys isPresent

theorem lookup_messageByRun_prune (runId : String) :
    (prune store isPresent).messageByRun.lookup runId =
      if keptRun store isPresent runId then store.messageByRun.lookup runId
      else none :=
  lookup_filter_keys (keptRun store isPresent)

theorem keptRun_eq_isPresent (agreeing : Agreeing store) {msgId runId : String} {turn : Turn}
    (held : store.turns.lookup msgId = some turn)
    (carries : turn.runId = some runId) :
    keptRun store isPresent runId = isPresent msgId := by
  cases present : isPresent msgId with
  | false =>
    rw [keptRun, List.all_eq_false]
    refine ⟨(msgId, turn), List.mem_filter.mpr ⟨?_, ?_⟩, ?_⟩
    · exact mem_of_lookup_eq_some held
    · rw [present]
      rfl
    · simpa using carries
  | true =>
    rw [keptRun, List.all_eq_true]
    intro gone removed
    rw [List.mem_filter] at removed
    rw [decide_eq_true_eq]
    intro carriesToo
    have heldToo := lookup_of_mem agreeing.distinct removed.1
    have one := (agreeing.indexed runId msgId).mpr ⟨turn, held, carries⟩
    have two := (agreeing.indexed runId gone.1).mpr ⟨gone.2, heldToo, carriesToo⟩
    rw [one] at two
    rw [← Option.some.inj two, present] at removed
    exact absurd removed.2 Bool.false_ne_true

theorem agreeing_prune (agreeing : Agreeing store) : Agreeing (prune store isPresent) where
  distinct := by
    apply List.Nodup.sublist _ agreeing.distinct
    exact List.filter_sublist.map Prod.fst
  keyed := by
    intro msgId turn held
    rw [lookup_prune] at held
    split at held
    · exact agreeing.keyed msgId turn held
    · cases held
  indexed := by
    intro runId msgId
    rw [lookup_prune, lookup_messageByRun_prune]
    constructor
    · intro indexed
      split at indexed
      · rename_i kept
        obtain ⟨turn, held, carries⟩ := (agreeing.indexed runId msgId).mp indexed
        rw [keptRun_eq_isPresent agreeing held carries] at kept
        rw [if_pos kept]
        exact ⟨turn, held, carries⟩
      · cases indexed
    · rintro ⟨turn, held, carries⟩
      split at held
      · rename_i present
        rw [keptRun_eq_isPresent agreeing held carries, if_pos present]
        exact (agreeing.indexed runId msgId).mpr ⟨turn, held, carries⟩
      · cases held

end Pruning

def KeepsFinished (before after : Store) : Prop :=
  ∀ msgId turn later, before.turns.lookup msgId = some turn →
    turn.isTerminal = true → after.turns.lookup msgId = some later → later.status = turn.status

theorem Keeps.keepsFinished {before after : Store} (keeps : Keeps before after) :
    KeepsFinished before after := by
  intro msgId turn later held terminal heldLater
  obtain ⟨found, foundLater, same⟩ := keeps msgId turn held
  rw [heldLater] at foundLater
  cases foundLater
  exact same terminal

def RestoresFinished (store : Store) (call : Call) : Prop :=
  ∀ stored rows, call = .applyAuthorizedRestore stored rows → ∀ msgId turn payload,
      (hydratedFirst store stored).turns.lookup msgId = some turn →
      payloadOf (payloadsByRef rows) turn = some payload →
      payload.isTerminal = true →
      ∃ later, (perform call store).turns.lookup msgId = some later ∧ later.isTerminal = true

structure StaysFinished (store : Store) (call : Call) : Prop where
  kept : KeepsFinished store (perform call store)
  restored : RestoresFinished store call
  indexed : IndexAgrees (perform call store)

theorem agreeing_perform (agreeing : Agreeing store) {call : Call} (orderly : Orderly store call) :
    Agreeing (perform call store) ∧ KeepsFinished store (perform call store) := by
  have sound : ∀ after, Sound store after → Agreeing after ∧ KeepsFinished store after :=
    fun _ sound => ⟨sound.agreeing, sound.keeps.keepsFinished⟩
  cases call with
  | openTurn msgId => exact sound _ (sound_openTurn agreeing msgId)
  | bind msgId runId => exact sound _ (sound_bind agreeing orderly)
  | resolve runId fallbackMsgId => exact sound _ (sound_resolve agreeing orderly)
  | endRun runId status durationMs =>
    exact sound _ (sound_endRun agreeing runId status durationMs)
  | noteRestoreRef runId restoreRef =>
    exact sound _ (sound_noteRestoreRef agreeing runId restoreRef)
  | hydrate stored => exact sound _ (sound_hydrate agreeing orderly)
  | applyAuthorizedRestore stored rows =>
    exact sound _ (sound_applyAuthorizedRestore agreeing orderly)
  | prune isPresent =>
    constructor
    · exact agreeing_prune agreeing
    · intro msgId turn later held _ heldLater
      change (prune store isPresent).turns.lookup msgId = _ at heldLater
      rw [lookup_prune, held] at heldLater
      split at heldLater
      · cases heldLater
        rfl
      · cases heldLater
  | resetInMemory =>
    constructor
    · exact Agreeing.empty
    · intro _ _ _ _ _ heldLater
      cases heldLater

/-- In a run whose bindings are all of unfinished turns and unbound runs, the
index agrees with the turns in every state, and every such call keeps what is
finished. -/
theorem staysFinished_of_orderly {store : Store} (reached : Reaches perform Orderly {} store) :
    IndexAgrees store ∧ ∀ call, Orderly store call → StaysFinished store call := by
  have agreeing : Agreeing store :=
    reached.invariant Agreeing.empty fun _ _ agreeing orderly =>
      (agreeing_perform agreeing orderly).1
  constructor
  · exact agreeing.indexAgrees
  · intro call orderly
    have performed := agreeing_perform agreeing orderly
    constructor
    · exact performed.2
    · rintro stored rows rfl msgId turn payload held authorized terminal
      exact restored_isTerminal agreeing orderly held authorized terminal
    · exact performed.1.indexAgrees

theorem staysFinished_of_orderly_ended : StaysFinished (runFrom perform {}
        [.bind "m1" "r1", .endRun "r1" (some .done) (some 5)])
      (.endRun "r1" (some .failed) none) := by
  have reached : Reaches perform Orderly {} (runFrom perform {}
        [.bind "m1" "r1", .endRun "r1" (some .done) (some 5)]) :=
    reaches_runFrom .start ⟨fun _ _ => ⟨rfl, fun _ _ held => nomatch held⟩, trivial, trivial⟩
  exact (staysFinished_of_orderly reached).2 _ trivial

/-- A reload that knows a turn by its reference alone: the restore ends the turn
and then submits it again under the run that the payload names. -/
theorem not_staysFinished_restore : ¬ ∀ store, Reaches perform (fun _ _ => True) {} store →
      ∀ call, StaysFinished store call := by
  intro always
  have reached : Reaches perform (fun _ _ => True) {}
      (runFrom perform {} [.hydrate [("m1", { runId := "", restoreRef := "ref" })]]) :=
    reaches_runFrom .start ⟨trivial, trivial⟩
  obtain ⟨later, held, terminal⟩ := (always _ reached (.applyAuthorizedRestore []
      [{ restoreRef := "ref"
         payload := some { runId := "r1", runStatus := some .done } }])).restored
    _ _ rfl "m1" _ _ rfl rfl rfl
  have submitted := (Option.some.inj held).symm
  rw [submitted] at terminal
  cases terminal

end McpAssistant.Panel.TurnStore
