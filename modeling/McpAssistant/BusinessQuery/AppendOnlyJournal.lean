import Mathlib.Logic.Basic

/-!
# The append-only journal

An entry begins with a start and closes with a terminal.  Whoever writes presents
the epoch of its lease; a lease that is over is reclaimed one epoch ahead.  The
functions below take the state that a caller has stored and return the next one,
or say why there is none.
-/

namespace McpAssistant.BusinessQuery.AppendOnlyJournal

variable {Start Terminal : Type}

/-- What is kept of one entry. -/
structure JournalState (Start Terminal : Type) where
  start : Start
  startDigest : String
  leaseEpoch : Int
  leaseOwner : String
  leaseExpiresAt : Int
  terminal : Option Terminal := none
  terminalDigest : Option String := none
deriving DecidableEq

/-- The message of a `JournalConflictError`. -/
abbrev Conflict := String

def checkLeaseEpoch (state : JournalState Start Terminal)
    (expectedLeaseEpoch : Int) : Except Conflict Unit :=
  if state.leaseEpoch ≠ expectedLeaseEpoch then .error "stale lease epoch"
  else .ok ()

def startEntry (candidate : JournalState Start Terminal)
    (existingByIdempotencyKey existingByEntryId : Option (JournalState Start Terminal)) :
    Except Conflict (JournalState Start Terminal) :=
  match existingByIdempotencyKey with
  | some existing =>
    if existing.startDigest ≠ candidate.startDigest then
      .error "start idempotency digest mismatch"
    else .ok existing
  | none =>
    match existingByEntryId with
    | some _ => .error "entry id already exists"
    | none => .ok candidate

def commitTerminal (state : JournalState Start Terminal)
    (expectedLeaseEpoch : Int) (terminal : Terminal) (terminalDigest : String) :
    Except Conflict (JournalState Start Terminal) :=
  match checkLeaseEpoch state expectedLeaseEpoch with
  | .error conflict => .error conflict
  | .ok _ =>
    match state.terminal with
    | some _ =>
      if state.terminalDigest ≠ some terminalDigest then
        .error "terminal already committed"
      else .ok state
    | none =>
      .ok { state with
        terminal := some terminal
        terminalDigest := some terminalDigest }

def reclaimLease (state : JournalState Start Terminal) (now : Int)
    (newOwner : String) (newLeaseExpiresAt : Int) :
    Except Conflict (JournalState Start Terminal) :=
  match state.terminal with
  | some _ => .error "terminal already committed"
  | none =>
    if now < state.leaseExpiresAt then .error "lease is active"
    else
      .ok { state with
        leaseEpoch := state.leaseEpoch + 1
        leaseOwner := newOwner
        leaseExpiresAt := newLeaseExpiresAt }

def requireEntry (state : Option (JournalState Start Terminal))
    (message : String) : Except Conflict (JournalState Start Terminal) :=
  match state with
  | some state => .ok state
  | none => .error message

variable {state : JournalState Start Terminal} {expectedLeaseEpoch : Int}

theorem checkLeaseEpoch_eq_ok :
    checkLeaseEpoch state expectedLeaseEpoch = .ok () ↔ state.leaseEpoch = expectedLeaseEpoch := by
  unfold checkLeaseEpoch
  split
  · rename_i other
    exact ⟨nofun, fun same => absurd same other⟩
  · rename_i same
    exact ⟨fun _ => not_not.mp same, fun _ => rfl⟩

theorem checkLeaseEpoch_of_ne (stale : state.leaseEpoch ≠ expectedLeaseEpoch) :
    checkLeaseEpoch state expectedLeaseEpoch = .error "stale lease epoch" :=
  if_pos stale

/-- How an entry's state may change: its terminal is set, by the holder of its
lease, or its lease is reclaimed when it is over. -/
inductive Changes (state : JournalState Start Terminal) : JournalState Start Terminal → Prop where
  | replays : Changes state state
  | closes (terminal : Terminal) (terminalDigest : String) (isOpen : state.terminal = none) :
      Changes state { state with
        terminal := some terminal
        terminalDigest := some terminalDigest }
  | reclaims (now : Int) (newOwner : String) (newLeaseExpiresAt : Int)
      (isOpen : state.terminal = none) (ended : state.leaseExpiresAt ≤ now) :
      Changes state { state with
        leaseEpoch := state.leaseEpoch + 1
        leaseOwner := newOwner
        leaseExpiresAt := newLeaseExpiresAt }

variable {next : JournalState Start Terminal}

theorem commitTerminal_eq_ok {terminal : Terminal} {terminalDigest : String}
    (committed : commitTerminal state expectedLeaseEpoch terminal terminalDigest = .ok next) :
    state.leaseEpoch = expectedLeaseEpoch ∧ Changes state next ∧
      next.leaseEpoch = state.leaseEpoch := by
  unfold commitTerminal at committed
  split at committed
  · cases committed
  · rename_i checked
    have current := checkLeaseEpoch_eq_ok.mp checked
    split at committed
    · split at committed
      · cases committed
      · cases committed
        exact ⟨current, .replays, rfl⟩
    · rename_i isOpen
      cases committed
      exact ⟨current, .closes terminal terminalDigest isOpen, rfl⟩

theorem reclaimLease_eq_ok {now : Int} {newOwner : String} {newLeaseExpiresAt : Int}
    (reclaimed : reclaimLease state now newOwner newLeaseExpiresAt = .ok next) :
    Changes state next ∧ next.leaseEpoch = state.leaseEpoch + 1 ∧
      state.terminal = none ∧ state.leaseExpiresAt ≤ now := by
  unfold reclaimLease at reclaimed
  split at reclaimed
  · cases reclaimed
  · rename_i isOpen
    split at reclaimed
    · cases reclaimed
    · rename_i ended
      have reached : state.leaseExpiresAt ≤ now := Int.not_lt.mp ended
      cases reclaimed
      exact ⟨.reclaims now newOwner newLeaseExpiresAt isOpen reached, rfl, isOpen, reached⟩

theorem Changes.of_closed (changes : Changes state next) (closed : state.terminal ≠ none) :
    next = state := by
  cases changes with
  | replays => rfl
  | closes terminal terminalDigest isOpen => exact absurd isOpen closed
  | reclaims now newOwner newLeaseExpiresAt isOpen ended =>
    exact absurd isOpen closed

theorem Changes.start (changes : Changes state next) :
    next.start = state.start ∧ next.startDigest = state.startDigest := by
  cases changes with
  | _ => exact ⟨rfl, rfl⟩

/-- An epoch stays, or goes one ahead when the lease of an open entry is
over. -/
theorem Changes.epoch (changes : Changes state next) : next.leaseEpoch = state.leaseEpoch ∨
      next.leaseEpoch = state.leaseEpoch + 1 ∧ state.terminal = none ∧ next.terminal = none := by
  cases changes with
  | replays => exact .inl rfl
  | closes terminal terminalDigest isOpen => exact .inl rfl
  | reclaims now newOwner newLeaseExpiresAt isOpen ended =>
    exact .inr ⟨rfl, isOpen, isOpen⟩

end McpAssistant.BusinessQuery.AppendOnlyJournal
