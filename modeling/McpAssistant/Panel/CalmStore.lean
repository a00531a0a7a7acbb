import McpAssistant.Panel.TurnStatus

/-!
# Calm changes of the turn store

Binding, resolving and noting a reference end no run and reopen no turn, as
long as the index leads to turns that carry their run.
-/

namespace McpAssistant.Panel.TurnStore

open Foundations.JsonReading

structure Indexed (store : Store) : Prop where
  keyed : ∀ msgId turn, store.turns.lookup msgId = some turn → turn.msgId = msgId
  carried : ∀ runId msgId, store.messageByRun.lookup runId = some msgId →
    ∃ turn, store.turns.lookup msgId = some turn ∧ turn.runId = some runId
  known : ∀ msgId turn runId, store.turns.lookup msgId = some turn →
    turn.runId = some runId → hasKey store.messageByRun runId = true
  blank : ∀ msgId turn, store.turns.lookup msgId = some turn →
    turn.runId = none → turn.status = none

section Turns

variable {store : Store} (indexed : Indexed store)

include indexed

theorem Indexed.turnAt_msgId (msgId : String) : (store.turnAt msgId).msgId = msgId := by
  cases held : store.turns.lookup msgId with
  | none => rw [turnAt_of_absent held]
  | some turn =>
    rw [turnAt_of_lookup held]
    exact indexed.keyed msgId turn held

variable {runId : String} {turn : Turn}

theorem Indexed.byRun_iff : store.byRun runId = some turn ↔
      store.messageByRun.lookup runId = some turn.msgId ∧
        store.turns.lookup turn.msgId = some turn := by
  rw [Store.byRun, Option.bind_eq_some_iff]
  constructor
  · rintro ⟨msgId, found, held⟩
    have here := indexed.keyed msgId turn held
    subst here
    exact ⟨found, held⟩
  · rintro ⟨found, held⟩
    exact ⟨turn.msgId, found, held⟩

theorem Indexed.runId_of_byRun
    (found : store.byRun runId = some turn) : turn.runId = some runId := by
  obtain ⟨indexedAt, held⟩ := indexed.byRun_iff.mp found
  obtain ⟨carrier, heldToo, carries⟩ := indexed.carried _ _ indexedAt
  rw [held] at heldToo
  cases heldToo
  exact carries

theorem Indexed.turnAt_of_byRun
    (found : store.byRun runId = some turn) : store.turnAt turn.msgId = turn :=
  turnAt_of_lookup (indexed.byRun_iff.mp found).2

theorem Indexed.runId_eq {other : String} {found : Turn}
    (one : store.byRun runId = some turn) (two : store.byRun other = some found)
    (same : turn.msgId = found.msgId) : runId = other := by
  have carries := indexed.runId_of_byRun one
  have here := indexed.turnAt_of_byRun one
  rw [same, indexed.turnAt_of_byRun two] at here
  rw [← here, indexed.runId_of_byRun two] at carries
  exact (Option.some.inj carries).symm

theorem Indexed.isTerminal_of_blank {msgId : String} (free : (store.turnAt msgId).runId = none) :
    (store.turnAt msgId).isTerminal = false := by
  cases held : store.turns.lookup msgId with
  | none =>
    rw [turnAt_of_absent held]
    rfl
  | some turn =>
    rw [turnAt_of_lookup held] at free ⊢
    rw [Turn.isTerminal, indexed.blank msgId turn held free]
    rfl

end Turns

structure Calm (before after : Store) : Prop where
  indexed : Indexed after
  ended : ∀ runId turn, after.byRun runId = some turn → turn.isTerminal = true →
      ∃ earlier, before.byRun runId = some earlier ∧
        earlier.isTerminal = true ∧ earlier.msgId = turn.msgId
  opened : ∀ msgId, (after.turnAt msgId).isTerminal = false →
    (before.turnAt msgId).isTerminal = false

theorem Calm.refl {store : Store} (indexed : Indexed store) : Calm store store where
  indexed := indexed
  ended := fun _ turn found terminal => ⟨turn, found, terminal, rfl⟩
  opened := fun _ => id

section Writes

variable {store : Store} {turn : Turn} {runId : String}

theorem turnAt_put (msgId : String) : (store.put turn).turnAt msgId =
      if msgId = turn.msgId then turn else store.turnAt msgId := by
  split
  · rename_i here
    rw [here]
    exact turnAt_of_lookup lookup_put_self
  · rename_i apart
    rw [Store.turnAt, lookup_put_of_ne apart]
    rfl

theorem lookup_put (msgId : String) : (store.put turn).turns.lookup msgId =
      if msgId = turn.msgId then some turn else store.turns.lookup msgId := by
  split
  · rename_i here
    rw [here]
    exact lookup_put_self
  · rename_i apart
    exact lookup_put_of_ne apart

variable (indexed : Indexed store)
include indexed

variable (same : turn.runId = (store.turnAt turn.msgId).runId)
include same

theorem Indexed.put (blank : turn.runId = none → turn.status = none) :
    Indexed (store.put turn) where
  keyed := by
    intro msgId found held
    rw [lookup_put] at held
    split at held
    · rename_i here
      cases held
      exact here.symm
    · exact indexed.keyed msgId found held
  carried := by
    intro runId msgId found
    obtain ⟨carrier, held, carries⟩ := indexed.carried runId msgId found
    rw [lookup_put]
    split
    · rename_i here
      rw [← here, turnAt_of_lookup held] at same
      exact ⟨turn, rfl, same.trans carries⟩
    · exact ⟨carrier, held, carries⟩
  known := by
    intro msgId found runId held carries
    rw [lookup_put] at held
    split at held
    · cases held
      rw [same] at carries
      cases before : store.turns.lookup turn.msgId with
      | none =>
        rw [turnAt_of_absent before] at carries
        cases carries
      | some old =>
        rw [turnAt_of_lookup before] at carries
        exact indexed.known _ old runId before carries
    · exact indexed.known msgId found runId held carries
  blank := by
    intro msgId found held free
    rw [lookup_put] at held
    split at held
    · cases held
      exact blank free
    · exact indexed.blank msgId found held free

theorem Indexed.byRun_put (blank : turn.runId = none → turn.status = none) {other : String}
    {found : Turn} (after : (store.put turn).byRun other = some found) :
    (found = turn ∧ store.byRun other = some (store.turnAt turn.msgId)) ∨
      (found.msgId ≠ turn.msgId ∧ store.byRun other = some found) := by
  obtain ⟨at_, held⟩ := (indexed.put same blank).byRun_iff.mp after
  change store.messageByRun.lookup other = some found.msgId at at_
  rw [lookup_put] at held
  split at held
  · rename_i here
    left
    cases held
    obtain ⟨carrier, heldToo, carries⟩ := indexed.carried other _ at_
    have placed := indexed.keyed _ carrier heldToo
    refine ⟨rfl, ?_⟩
    rw [turnAt_of_lookup heldToo]
    apply indexed.byRun_iff.mpr
    rw [placed]
    exact ⟨at_, heldToo⟩
  · rename_i apart
    exact .inr ⟨apart, indexed.byRun_iff.mpr ⟨at_, held⟩⟩

theorem calm_put (status : turn.status = (store.turnAt turn.msgId).status) :
    Calm store (store.put turn) := by
  have blank : turn.runId = none → turn.status = none := by
    intro free
    rw [status]
    rw [same] at free
    cases held : store.turns.lookup turn.msgId with
    | none => rw [turnAt_of_absent held]
    | some old =>
      rw [turnAt_of_lookup held] at free ⊢
      exact indexed.blank _ old held free
  have terminal := isTerminal_congr status
  constructor
  · exact indexed.put same blank
  · intro other found after ended
    rcases indexed.byRun_put same blank after with ⟨rfl, before⟩ | ⟨-, before⟩
    · exact ⟨_, before, terminal.symm.trans ended, indexed.turnAt_msgId _⟩
    · exact ⟨found, before, ended, rfl⟩
  · intro msgId opened
    rw [turnAt_put] at opened
    split at opened
    · rename_i here
      rw [here]
      exact terminal.symm.trans opened
    · exact opened

omit same

theorem calm_putSame (msgId : String) : Calm store (store.put (store.turnAt msgId)) := by
  have here := indexed.turnAt_msgId msgId
  apply calm_put indexed
  · rw [here]
  · rw [here]

theorem calm_binding {msgId : String} (free : (store.turnAt msgId).runId = none) :
    Calm store ((store.put { store.turnAt msgId with
      runId := some runId, status := some .submitted }).index runId msgId) := by
  have here := indexed.turnAt_msgId msgId
  have lookup_bound : ∀ other, ((store.put { store.turnAt msgId with
      runId := some runId
      status := some .submitted }).index runId msgId).turns.lookup other =
        if other = msgId then
          some { store.turnAt msgId with
            runId := some runId, status := some .submitted }
        else store.turns.lookup other := by
    intro other
    rw [turns_index, lookup_put, here]
  have notCarried : ∀ other, other ≠ runId → ∀ found,
      store.messageByRun.lookup other = some found → found ≠ msgId := by
    rintro other - found at_ rfl
    obtain ⟨carrier, held, carries⟩ := indexed.carried other _ at_
    rw [turnAt_of_lookup held, carries] at free
    cases free
  have index_bound : ∀ other, other ≠ runId →
      (putKey runId msgId store.messageByRun).lookup other = store.messageByRun.lookup other :=
    fun _ apart => lookup_putKey_of_ne apart
  have bound : Indexed ((store.put { store.turnAt msgId with
      runId := some runId, status := some .submitted }).index runId msgId) := by
    constructor
    · intro other found held
      rw [lookup_bound] at held
      split at held
      · rename_i same
        cases held
        exact here.trans same.symm
      · exact indexed.keyed other found held
    · intro other found at_
      rw [lookup_bound]
      change (putKey runId msgId store.messageByRun).lookup other = _ at at_
      by_cases same : other = runId
      · rw [same, lookup_putKey_self] at at_
        cases at_
        rw [if_pos rfl, same]
        exact ⟨_, rfl, rfl⟩
      · rw [index_bound other same] at at_
        rw [if_neg (notCarried other same found at_)]
        exact indexed.carried other found at_
    · intro other found run held carries
      show hasKey (putKey runId msgId store.messageByRun) run = true
      rw [lookup_bound] at held
      by_cases same : run = runId
      · rw [hasKey, same, lookup_putKey_self]
        rfl
      · rw [hasKey, index_bound run same]
        split at held
        · cases held
          exact absurd (Option.some.inj carries).symm same
        · exact indexed.known other found run held carries
    · intro other found held blank
      rw [lookup_bound] at held
      split at held
      · cases held
        cases blank
      · exact indexed.blank other found held blank
  constructor
  · exact bound
  · intro other found after ended
    obtain ⟨at_, held⟩ := bound.byRun_iff.mp after
    rw [lookup_bound] at held
    split at held
    · cases held
      cases ended
    · rename_i apart
      change (putKey runId msgId store.messageByRun).lookup other = _ at at_
      by_cases same : other = runId
      · rw [same, lookup_putKey_self] at at_
        exact absurd (Option.some.inj at_).symm apart
      · rw [index_bound other same] at at_
        exact ⟨found, indexed.byRun_iff.mpr ⟨at_, held⟩, ended, rfl⟩
  · intro other opened
    by_cases same : other = msgId
    · rw [same]
      exact indexed.isTerminal_of_blank free
    · rw [Store.turnAt, lookup_bound, if_neg same] at opened
      exact opened

theorem calm_bind (msgId runId : String) : Calm store (bind store msgId runId) := by
  rw [bind]
  split
  · exact Calm.refl indexed
  · split
    · rename_i binds
      exact calm_binding indexed binds.2
    · exact calm_putSame indexed msgId

theorem calm_resolve (runId fallbackMsgId : String) :
    Calm store (resolve store runId fallbackMsgId) := by
  rw [resolve]
  split
  · exact Calm.refl indexed
  · split
    · exact Calm.refl indexed
    · dsimp only
      split
      · exact calm_putSame indexed fallbackMsgId
      · exact calm_bind indexed fallbackMsgId runId

theorem calm_noteRestoreRef (runId restoreRef : String) :
    Calm store (noteRestoreRef store runId restoreRef) := by
  unfold noteRestoreRef
  split
  · rename_i turn found
    have held := indexed.turnAt_of_byRun found
    split
    · apply calm_put indexed
      · rw [held]
      · rw [held]
    · exact Calm.refl indexed
  · exact Calm.refl indexed

end Writes

end McpAssistant.Panel.TurnStore
