import McpAssistant.Services.CancelOwnership

/-!
# Confirmed cancels

Where every run id is registered once, its tombstone is not written too late,
replaced or expired before it is read, and a run is finalized once before it is
marked done, a cancel confirmed to the run's owner is final and only the owner's
cancel stops the run.
-/

namespace McpAssistant.Services.ConfirmedCancel

open CancelRegistry CancelOwnership Foundations.Interleaving

def Orderly (registry : Registry) : Choice → Prop
  | .begins _ (.beginFinalize run _) => .finalizing run ∉ registry.log
  | .begins _ (.markDone run _) => Finalized registry run
  | .performs call =>
    match registry.calls call with
    | some position => OrderlyCall registry position
    | none => True
  | .expiresTombstone run =>
    Looked registry run ∨ registry.tombstones run = none
  | _ => True

def CancelIsFinal (log : List Event) : Prop :=
  ∀ newer older run user, log = newer ++ .finalized run user :: older → .confirmed run user ∉ older

def Stopped (registry : Registry) (run : String) : Prop :=
  (∃ record, registry.runs run = some record ∧ record.cancelled = true) ∨
    ∃ instanceId registration, registry.registrations instanceId run = some registration ∧
        (registration.cancelled = true ∨ registration.taskCancelled = true)

def OnlyOwnerStops (registry : Registry) : Prop :=
  ∀ run owner, .registered run owner ∈ registry.log → Stopped registry run →
    .asked run owner ∈ registry.log

def Sole (kind : Call → Prop) (calls : Nat → Option Call) : Prop :=
  ∀ first second call other, calls first = some call →
    calls second = some other → kind call → kind other → first = second

def Confirming (registry : Registry) (run user : String) : Prop :=
  .confirmed run user ∈ registry.log ∨ ∃ call instanceId record publishes,
    registry.calls call = some (.cancelDelivers run user instanceId record publishes)

/-- The user's run cannot be finalized any more: its tombstone waits, the
registration has read it, or the record says so or is gone. -/
structure Dead (registry : Registry) (run user : String) : Prop where
  buried : ¬Looked registry run → registry.tombstones run = some user
  storing : ¬Registered registry run → ∀ call instanceId preCancelled, registry.calls call =
        some (.registerStores run user instanceId preCancelled) →
      preCancelled = true
  record : .registered run user ∈ registry.log → ∀ record,
    registry.runs run = some record → record.cancelled = true

structure Sound (registry : Registry) : Prop where
  owned : Owned registry
  knows : ∀ call position, registry.calls call = some position → Knows registry position
  storing : ∀ run, Sole (Storing run) registry.calls
  finalizing : ∀ run, Sole (Finalizing run) registry.calls
  noted : ∀ call position run, registry.calls call = some position →
    Finalizing run position → .finalizing run ∈ registry.log
  finalizedNoted : ∀ run, Finalized registry run → .finalizing run ∈ registry.log
  ended : ∀ call position run, Finalized registry run →
    registry.calls call = some position → ¬Finalizing run position
  marks : ∀ call position run, registry.calls call = some position →
    Marking run position → Finalized registry run
  dead : ∀ run user, Confirming registry run user → Finalized registry run ∨ Dead registry run user
  final : CancelIsFinal registry.log

theorem CancelIsFinal.cons {log : List Event} (final : CancelIsFinal log)
    {event : Event} (own : ∀ run user, event = .finalized run user →
      .confirmed run user ∉ log) : CancelIsFinal (event :: log) := by
  intro newer older run user same
  cases newer with
  | nil =>
    rcases List.cons.inj same with ⟨isEvent, rfl⟩
    exact own run user isEvent
  | cons first newer =>
    rcases List.cons.inj same with ⟨_, isLog⟩
    exact final newer older run user isLog

variable {calls : Nat → Option Call} {rest : Option Call}

/-- The calls after one of them went on. -/
theorem calls_update {call other : Nat} {position : Call}
    (found : Function.update calls call rest other = some position) :
    other = call ∧ rest = some position ∨ other ≠ call ∧ calls other = some position := by
  by_cases same : other = call
  · rw [same, Function.update_self] at found
    exact .inl ⟨same, found⟩
  · rw [Function.update_of_ne same] at found
    exact .inr ⟨same, found⟩

theorem Sole.update {kind : Call → Prop} (sole : Sole kind calls) {call : Nat}
    (keeps : ∀ position, rest = some position → kind position →
      (∃ before, calls call = some before ∧ kind before) ∨
        ∀ other before, calls other = some before → ¬kind before) :
    Sole kind (Function.update calls call rest) := by
  intro first second position other isFirst isSecond ofKind alsoKind
  rcases calls_update isFirst with ⟨rfl, isRest⟩ | ⟨apart, old⟩
  · rcases calls_update isSecond with ⟨rfl, _⟩ | ⟨_, older⟩
    · rfl
    · rcases keeps position isRest ofKind with ⟨before, held, isKind⟩ | alone
      · exact sole first second before other held older isKind alsoKind
      · exact absurd alsoKind (alone second other older)
  · rcases calls_update isSecond with ⟨rfl, isRest⟩ | ⟨_, older⟩
    · rcases keeps other isRest alsoKind with ⟨before, held, isKind⟩ | alone
      · exact sole first second position before old held ofKind isKind
      · exact absurd ofKind (alone first position old)
    · exact sole first second position other old older ofKind alsoKind

section Steps

variable {registry : Registry} {call : Nat} {position : Call} {run : String} {instanceId : String}

theorem not_dead_of_commits (sound : Sound registry) {attempts : Nat} {record : Record}
    (isAt : registry.calls call = some (.finalizeCommits run instanceId attempts
      (registry.writes run) record)) : ¬Dead registry run record.userId := by
  intro dead
  rcases sound.knows call _ isAt with ⟨_, unchanged, uncancelled, isOwner⟩
  rw [dead.record isOwner record (unchanged rfl)] at uncancelled
  cases uncancelled

variable {user : String}

theorem finalized_perform (sound : Sound registry) (isAt : registry.calls call = some position)
    (noted : Notes registry position (.finalized run user)) :
    .confirmed run user ∉ registry.log := by
  intro confirmed
  cases noted with
  | finalized run instanceId attempts record =>
    rcases sound.dead run record.userId (.inl confirmed) with ended | dead
    · exact sound.ended call _ run ended isAt rfl
    · exact not_dead_of_commits sound isAt dead

theorem final_perform (sound : Sound registry) (isAt : registry.calls call = some position) :
    CancelIsFinal (perform position registry).1.log := by
  rcases @log_perform registry position with same | ⟨event, noted, notes⟩
  · rw [same]
    exact sound.final
  · rw [noted]
    apply sound.final.cons
    rintro run user rfl
    exact finalized_perform sound isAt notes

/-- The registry after a call's step. -/
def performed (registry : Registry) (call : Nat) (position : Call) : Registry :=
  { (perform position registry).1 with
    calls := Function.update registry.calls call (perform position registry).2 }

theorem follows_performed : Follows registry (performed registry call position) :=
  let follows := @follows_perform registry position
  ⟨follows.log, follows.keys⟩

variable {after : Registry}

theorem Finalized.follows (finalized : Finalized registry run) (follows : Follows registry after) :
    Finalized after run := by
  rcases finalized with ⟨user, listed⟩
  exact ⟨user, follows.log _ listed⟩

theorem Registered.follows
    (registered : Registered registry run) (follows : Follows registry after) :
    Registered after run := by
  rcases registered with ⟨user, listed⟩
  exact ⟨user, follows.log _ listed⟩

theorem dead_performed (sound : Sound registry) (isAt : registry.calls call = some position)
    (orderly : OrderlyCall registry position)
    (dead : Dead registry run user) :
    Finalized (performed registry call position) run ∨
      Dead (performed registry call position) run user := by
  have follows := @follows_performed registry call position
  have knows := sound.knows call position isAt
  by_cases finalized : Finalized registry run
  · exact .inl (Finalized.follows finalized follows)
  · right
    constructor
    · intro notLooked
      have unlooked : ¬Looked registry run := fun looked =>
        notLooked (looked.follows follows)
      have waits := dead.buried unlooked
      rcases @tombstones_perform registry position run with
        same | ⟨owner, instanceId, rfl⟩ | ⟨owner, rfl, written⟩
      · exact same.trans waits
      · exact absurd knows.1 unlooked
      · rcases orderly with ⟨_, none | own⟩ | ⟨registered, _⟩
        · rw [waits] at none
          cases none
        · rw [waits] at own
          cases own
          exact written
        · exact absurd (sound.owned.looked run registered) unlooked
    · intro notRegistered other instanceId preCancelled found
      have unregistered : ¬Registered registry run := fun registered =>
        notRegistered (Registered.follows registered follows)
      rcases calls_update found with ⟨_, isRest⟩ | ⟨_, old⟩
      · rcases storing_perform isRest with isPre | ⟨rfl, missing⟩
        · exact isPre
        · exact absurd (dead.buried orderly) missing
      · exact dead.storing unregistered other instanceId preCancelled old
    · intro isOwner record found
      rcases runs_perform found with old | stores
      · rcases registered_of_perform isOwner with before | storing
        · exact dead.record before record old
        · have registered : Registered registry run :=
            ⟨_, (sound.owned.record run record old).1⟩
          cases position with
          | registerForgets other owner instanceId =>
            cases storing
            exact absurd registered knows.2.1
          | registerStores other owner instanceId preCancelled =>
            cases storing
            exact absurd registered knows.2.1
          | _ => cases storing
      · cases stores with
        | registers run owner instanceId preCancelled =>
          rcases List.mem_cons.mp isOwner with same | old
          · cases same
            exact dead.storing knows.2.1 call instanceId preCancelled isAt
          · exact absurd ⟨user, old⟩ knows.2.1
        | registersAgain run owner instanceId => rfl
        | cancels run owner instanceId stored => rfl
        | finalizes run instanceId attempts stored =>
          rcases registered_of_perform isOwner with before | storing
          · have own := sound.owned.unique run user stored.userId before knows.2.2.2
            rw [own] at dead
            exact absurd dead (not_dead_of_commits sound isAt)
          · cases storing
        | marks run stored =>
          exact absurd (sound.marks call _ run isAt rfl) finalized

theorem dead_of_delivers (sound : Sound registry) (isAt : registry.calls call = some position)
    {record : Record} {publishes : Bool}
    (goes : (perform position registry).2 =
      some (.cancelDelivers run user instanceId record publishes)) :
    Dead (performed registry call position) run user := by
  have follows := @follows_performed registry call position
  have isOwner : OwnedBy registry run user True := by
    rcases (goesOn_perform goes).delivers _ _ _ _ _ rfl with
      ⟨read, found, cancelled, rfl⟩ | ⟨stored, rfl⟩
    · exact (sound.owned.record run read found).imp fun _ => cancelled
    · exact (sound.knows call _ isAt).2
  constructor
  · intro notLooked
    exact absurd ((sound.owned.looked run ⟨user, isOwner.1⟩).follows follows) notLooked
  · intro notRegistered
    exact absurd (Registered.follows ⟨user, isOwner.1⟩ follows) notRegistered
  · intro _ kept found
    rcases (goesOn_perform goes).delivers _ _ _ _ _ rfl with
      ⟨read, isRead, cancelled, _⟩ | ⟨stored, rfl⟩
    · rcases runs_perform found with old | stores
      · rw [isRead] at old
        cases old
        exact cancelled
      · cases stores with
        | registers run owner instanceId preCancelled => cases goes
        | registersAgain run owner instanceId => rfl
        | cancels run owner instanceId stored => rfl
        | finalizes run instanceId attempts stored =>
          rw [perform, if_pos rfl] at goes
          cases goes
        | marks run stored => cases goes
    · have stores : (registry.storeRun run
          { stored with cancelled := true }).runs run = some kept := found
      rw [Registry.runs_storeRun, Function.update_self] at stores
      cases stores
      rfl

theorem dead_of_confirmed (sound : Sound registry) (isAt : registry.calls call = some position)
    (orderly : OrderlyCall registry position)
    (notes : Notes registry position (.confirmed run user)) :
    Finalized (performed registry call position) run ∨
      Dead (performed registry call position) run user := by
  cases notes with
  | delivered run user instanceId record publishes =>
    have confirming : Confirming registry run user :=
      .inr ⟨call, instanceId, record, publishes, isAt⟩
    rcases sound.dead run user confirming with finalized | dead
    · exact .inl (Finalized.follows finalized follows_performed)
    · exact dead_performed sound isAt orderly dead
  | buried run user =>
    right
    rcases orderly with ⟨unlooked, _⟩ | ⟨registered, missing⟩
    · constructor
      · intro _
        show Function.update registry.tombstones run (some user) run = some user
        rw [Function.update_self]
      · intro _ other instanceId preCancelled found
        rcases calls_update found with ⟨_, isRest⟩ | ⟨_, old⟩
        · cases isRest
        · exact absurd (sound.knows other _ old).1 unlooked
      · intro isOwner record found
        rcases List.mem_cons.mp isOwner with same | old
        · cases same
        · exact absurd (sound.owned.looked run ⟨user, old⟩) unlooked
    · constructor
      · intro notLooked
        exact absurd ((sound.owned.looked run registered).follows follows_performed) notLooked
      · intro notRegistered
        exact absurd (Registered.follows registered follows_performed) notRegistered
      · intro _ record found
        have gone : registry.runs run = some record := found
        rw [missing] at gone
        cases gone

theorem confirming_performed (sound : Sound registry) (isAt : registry.calls call = some position)
    (orderly : OrderlyCall registry position)
    (confirming : Confirming (performed registry call position) run user) :
    Finalized (performed registry call position) run ∨
      Dead (performed registry call position) run user := by
  have before : Confirming registry run user → Finalized (performed registry call position) run ∨
        Dead (performed registry call position) run user := by
    intro old
    rcases sound.dead run user old with finalized | dead
    · exact .inl (Finalized.follows finalized follows_performed)
    · exact dead_performed sound isAt orderly dead
  rcases confirming with listed | ⟨other, instanceId, record, publishes, found⟩
  · rcases @log_perform registry position with same | ⟨event, noted, notes⟩
    · have old : .confirmed run user ∈ registry.log := by
        rw [← same]
        exact listed
      exact before (.inl old)
    · have isListed : .confirmed run user ∈ event :: registry.log := by
        rw [← noted]
        exact listed
      rcases List.mem_cons.mp isListed with rfl | old
      · exact dead_of_confirmed sound isAt orderly notes
      · exact before (.inl old)
  · rcases calls_update found with ⟨_, goes⟩ | ⟨_, old⟩
    · exact .inr (dead_of_delivers sound isAt goes)
    · exact before (.inr ⟨other, instanceId, record, publishes, old⟩)

theorem finalized_performed (finalized : Finalized (performed registry call position) run) :
    Finalized registry run ∨ ∃ user, Notes registry position (.finalized run user) := by
  rcases finalized with ⟨user, listed⟩
  rcases @log_perform registry position with same | ⟨event, noted, notes⟩
  · have old : .finalized run user ∈ registry.log := by
      rw [← same]
      exact listed
    exact .inl ⟨user, old⟩
  · have isListed : .finalized run user ∈ event :: registry.log := by
      rw [← noted]
      exact listed
    rcases List.mem_cons.mp isListed with rfl | old
    · exact .inr ⟨user, notes⟩
    · exact .inl ⟨user, old⟩

theorem sound_performed (sound : Sound registry) (isAt : registry.calls call = some position)
    (orderly : OrderlyCall registry position) :
    Sound (performed registry call position) := by
  have follows := @follows_performed registry call position
  have knows := sound.knows call position isAt
  have owned := owned_perform sound.owned knows
  constructor
  · exact ⟨owned.unique, owned.looked, owned.record, owned.tombstone,
      owned.registration, owned.published⟩
  · intro other rest found
    rcases calls_update found with ⟨_, goes⟩ | ⟨apart, old⟩
    · exact knows_perform sound.owned knows orderly goes
    · apply (sound.knows other rest old).follows follows
      rintro run storing ⟨user, listed⟩
      rcases registered_of_perform listed with before | also
      · exact ⟨user, before⟩
      · exact absurd (sound.storing run other call rest position old isAt storing also) apart
  · intro run
    apply (sound.storing run).update
    intro rest goes storing
    rcases (goesOn_perform goes).storing run storing with
      before | ⟨user, instanceId, rfl⟩
    · exact .inl ⟨position, isAt, before⟩
    · right
      intro other held found ofKind
      apply orderly
      cases held with
      | registerForgets other owner instanceId =>
        cases ofKind
        exact (sound.knows _ _ found).1
      | registerStores other owner instanceId preCancelled =>
        cases ofKind
        exact (sound.knows _ _ found).1
      | _ => cases ofKind
  · intro run
    apply (sound.finalizing run).update
    intro rest goes finalizing
    exact .inl ⟨position, isAt, (goesOn_perform goes).finalizing run finalizing⟩
  · intro other rest run found finalizing
    apply follows.log
    rcases calls_update found with ⟨_, goes⟩ | ⟨_, old⟩
    · exact sound.noted call position run isAt ((goesOn_perform goes).finalizing run finalizing)
    · exact sound.noted other rest run old finalizing
  · intro run finalized
    apply follows.log
    rcases finalized_performed finalized with old | ⟨user, notes⟩
    · exact sound.finalizedNoted run old
    · cases notes
      exact sound.noted call _ run isAt rfl
  · intro other rest run finalized found finalizing
    rcases finalized_performed finalized with ended | ⟨user, notes⟩
    · rcases calls_update found with ⟨_, goes⟩ | ⟨_, old⟩
      · exact sound.ended call position run ended isAt
          ((goesOn_perform goes).finalizing run finalizing)
      · exact sound.ended other rest run ended old finalizing
    · cases notes
      rcases calls_update found with ⟨_, goes⟩ | ⟨apart, old⟩
      · rw [perform, if_pos rfl] at goes
        cases goes
      · exact apart (sound.finalizing run other call rest _ old isAt finalizing
          rfl)
  · intro other rest run found marking
    have marked : Finalized registry run := by
      rcases calls_update found with ⟨_, goes⟩ | ⟨_, old⟩
      · exact sound.marks call position run isAt ((goesOn_perform goes).marking run marking)
      · exact sound.marks other rest run old marking
    exact Finalized.follows marked follows
  · intro run user confirming
    exact confirming_performed sound isAt orderly confirming
  · exact final_perform sound isAt

/-- A change that notes nothing, moves no call on, stores no record and leaves
the tombstones that wait. -/
structure Quiet (before after : Registry) : Prop where
  follows : Follows before after
  log : after.log = before.log
  calls : ∀ call position, after.calls call = some position → before.calls call = some position
  runs : ∀ run record, after.runs run = some record → before.runs run = some record
  tombstones : ∀ run, ¬Looked before run → after.tombstones run = before.tombstones run

theorem Quiet.finalized (quiet : Quiet registry after)
    : Finalized after run ↔ Finalized registry run := by
  rw [Finalized, Finalized, quiet.log]

theorem Quiet.looked (quiet : Quiet registry after) : Looked after run ↔ Looked registry run := by
  rw [Looked, Looked, quiet.log]

theorem Quiet.registered (quiet : Quiet registry after)
    : Registered after run ↔ Registered registry run := by
  rw [Registered, Registered, quiet.log]

theorem sound_of_quiet (sound : Sound registry)
    (owned : Owned after) (quiet : Quiet registry after) : Sound after := by
  constructor
  · exact owned
  · intro other rest found
    apply (sound.knows other rest (quiet.calls _ _ found)).follows quiet.follows
    intro run _ registered
    exact quiet.registered.mp registered
  · intro run first second rest also isFirst isSecond
    exact sound.storing run first second rest also (quiet.calls _ _ isFirst)
      (quiet.calls _ _ isSecond)
  · intro run first second rest also isFirst isSecond
    exact sound.finalizing run first second rest also
      (quiet.calls _ _ isFirst) (quiet.calls _ _ isSecond)
  · intro other rest run found finalizing
    rw [quiet.log]
    exact sound.noted other rest run (quiet.calls _ _ found) finalizing
  · intro run finalized
    rw [quiet.log]
    exact sound.finalizedNoted run (quiet.finalized.mp finalized)
  · intro other rest run finalized found
    exact sound.ended other rest run (quiet.finalized.mp finalized) (quiet.calls _ _ found)
  · intro other rest run found marking
    exact quiet.finalized.mpr (sound.marks other rest run (quiet.calls _ _ found) marking)
  · intro run user confirming
    have before : Confirming registry run user := by
      rcases confirming with listed | ⟨other, instanceId, record, publishes, found⟩
      · rw [quiet.log] at listed
        exact .inl listed
      · exact .inr ⟨other, instanceId, record, publishes, quiet.calls _ _ found⟩
    rcases sound.dead run user before with finalized | dead
    · exact .inl (quiet.finalized.mpr finalized)
    · right
      constructor
      · intro notLooked
        have unlooked := fun looked => notLooked (quiet.looked.mpr looked)
        rw [quiet.tombstones run unlooked]
        exact dead.buried unlooked
      · intro notRegistered other instanceId preCancelled found
        exact dead.storing (fun registered => notRegistered (quiet.registered.mpr registered))
          other instanceId preCancelled (quiet.calls _ _ found)
      · intro isOwner record found
        rw [quiet.log] at isOwner
        exact dead.record isOwner record (quiet.runs _ _ found)
  · rw [quiet.log]
    exact sound.final

theorem quiet_dropRun (run : String) : Quiet registry (registry.dropRun run) where
  follows := Follows.dropRun run
  log := rfl
  calls := fun _ _ found => found
  runs := by
    intro other record found
    rw [Registry.runs_dropRun] at found
    by_cases same : other = run
    · rw [same, Function.update_self] at found
      cases found
    · rw [Function.update_of_ne same] at found
      exact found
  tombstones := fun _ _ => rfl

theorem quiet_expiresTombstone (orderly : Looked registry run ∨ registry.tombstones run = none) :
    Quiet registry (registry.setTombstone run none) where
  follows := ⟨fun _ => id, fun _ => .inl ⟨rfl, rfl⟩⟩
  log := rfl
  calls := fun _ _ found => found
  runs := fun _ _ found => found
  tombstones := by
    intro other unlooked
    rw [Registry.tombstones_setTombstone]
    by_cases same : other = run
    · rw [same] at unlooked ⊢
      rw [Function.update_self, orderly.resolve_left unlooked]
    · rw [Function.update_of_ne same]

theorem sound_abandons (sound : Sound registry) (call : Nat) :
    Sound (step (.abandons call) registry) := by
  have owned : Owned (step (.abandons call) registry) :=
    ⟨sound.owned.unique, sound.owned.looked, sound.owned.record,
      sound.owned.tombstone, sound.owned.registration, sound.owned.published⟩
  apply sound_of_quiet sound owned
  constructor
  · exact ⟨fun _ => id, fun _ => .inl ⟨rfl, rfl⟩⟩
  · rfl
  · intro other position found
    rcases calls_update found with ⟨_, none⟩ | ⟨_, old⟩
    · cases none
    · exact old
  · exact fun _ _ found => found
  · exact fun _ _ => rfl

theorem sound_delivers (sound : Sound registry) (instanceId run : String) :
    Sound (step (.delivers instanceId run) registry) := by
  rw [step]
  split
  · rename_i listed
    rcases sound.owned.published instanceId run listed with ⟨user, isOwner⟩
    have owned : Owned { registry with
        published := registry.published.erase (instanceId, run) } :=
      { sound.owned with
        published := fun otherInstance other kept =>
          sound.owned.published otherInstance other (List.mem_of_mem_erase kept) }
    apply sound_of_quiet sound (owned.applyLocalCancel isOwner)
    exact ⟨⟨fun _ => id, fun _ => .inl ⟨rfl, rfl⟩⟩, rfl, fun _ _ found => found,
      fun _ _ found => found, fun _ _ => rfl⟩
  · exact sound

def started (registry : Registry) (call : Nat) (request : Request) : Registry :=
  { registry with
    calls := Function.update registry.calls call (some request.call)
    log := request.events ++ registry.log }

variable {request : Request}

/-- A start notes that a cancel was asked for, or that a finalization began. -/
theorem events_of_request {event : Event} (listed : event ∈ request.events) :
    (∃ run user, event = .asked run user) ∨ ∃ run instanceId, event = .finalizing run ∧
        request = .beginFinalize run instanceId := by
  cases request with
  | cancelRun run user instanceId =>
    exact .inl ⟨run, user, List.mem_singleton.mp listed⟩
  | beginFinalize run instanceId =>
    exact .inr ⟨run, instanceId, List.mem_singleton.mp listed, rfl⟩
  | _ => cases listed

theorem log_started {event : Event} (listed : event ∈ (started registry call request).log)
    (notAsked : ∀ run user, event ≠ .asked run user)
    (notFinalizing : ∀ run, event ≠ .finalizing run) :
    event ∈ registry.log := by
  rcases List.mem_append.mp listed with new | old
  · rcases events_of_request new with ⟨run, user, same⟩ | ⟨run, _, same, _⟩
    · exact absurd same (notAsked run user)
    · exact absurd same (notFinalizing run)
  · exact old

theorem follows_started {request : Request} : Follows registry (started registry call request) :=
  ⟨fun _ => List.mem_append_right _, fun _ => .inl ⟨rfl, rfl⟩⟩

theorem owned_started (owned : Owned registry) : Owned (started registry call request) := by
  have follows := @follows_started registry call request
  constructor
  · intro run first second isFirst isSecond
    exact owned.unique run first second (log_started isFirst nofun nofun)
      (log_started isSecond nofun nofun)
  · rintro run ⟨user, isOwner⟩
    exact (owned.looked run ⟨user, log_started isOwner nofun nofun⟩).follows follows
  · intro run record found
    exact (owned.record run record found).follows follows
  · intro run user found
    exact follows.log _ (owned.tombstone run user found)
  · intro instanceId run registration found
    exact (owned.registration instanceId run registration found).follows follows
  · intro instanceId run listed
    rcases owned.published instanceId run listed with ⟨user, isOwner⟩
    exact ⟨user, isOwner.follows follows⟩

theorem final_started (final : CancelIsFinal registry.log)
    : CancelIsFinal (started registry call request).log := by
  cases request with
  | cancelRun run user instanceId => exact final.cons nofun
  | beginFinalize run instanceId => exact final.cons nofun
  | _ => exact final

theorem dead_started (dead : Dead registry run user) :
    Dead (started registry call request) run user := by
  have follows := @follows_started registry call request
  constructor
  · intro notLooked
    exact dead.buried fun looked => notLooked (looked.follows follows)
  · intro notRegistered other instanceId preCancelled found
    rcases calls_update found with ⟨_, first⟩ | ⟨_, old⟩
    · cases request with
      | _ => cases first
    · exact dead.storing (fun registered => notRegistered (Registered.follows registered follows))
        other instanceId preCancelled old
  · intro isOwner record found
    exact dead.record (log_started isOwner nofun nofun) record found

theorem knows_started (request : Request) : Knows (started registry call request) request.call := by
  cases request with
  | cancelRun run user instanceId => exact List.mem_cons_self
  | _ => trivial

theorem sound_started (sound : Sound registry) (orderly : Orderly registry (.begins call request)) :
    Sound (started registry call request) := by
  have follows := @follows_started registry call request
  have ended : ∀ run, Finalized (started registry call request) run → Finalized registry run := by
    rintro run ⟨user, listed⟩
    exact ⟨user, log_started listed nofun nofun⟩
  constructor
  · exact owned_started sound.owned
  · intro other rest found
    rcases calls_update found with ⟨_, first⟩ | ⟨_, old⟩
    · cases first
      exact knows_started request
    · apply (sound.knows other rest old).follows follows
      rintro run _ ⟨user, listed⟩
      exact ⟨user, log_started listed nofun nofun⟩
  · intro run
    apply (sound.storing run).update
    intro first isFirst storing
    cases isFirst
    cases request with
    | _ => cases storing
  · intro run
    apply (sound.finalizing run).update
    intro first isFirst finalizing
    cases isFirst
    cases request with
    | beginFinalize other instanceId =>
      cases finalizing
      right
      intro running held found alsoFinalizing
      exact orderly (sound.noted running held run found alsoFinalizing)
    | _ => cases finalizing
  · intro other rest run found finalizing
    rcases calls_update found with ⟨_, first⟩ | ⟨_, old⟩
    · cases first
      cases request with
      | beginFinalize started instanceId =>
        cases finalizing
        exact List.mem_cons_self
      | _ => cases finalizing
    · exact follows.log _ (sound.noted other rest run old finalizing)
  · intro run finalized
    exact follows.log _ (sound.finalizedNoted run (ended run finalized))
  · intro other rest run finalized found finalizing
    rcases calls_update found with ⟨_, first⟩ | ⟨_, old⟩
    · cases first
      cases request with
      | beginFinalize started instanceId =>
        cases finalizing
        exact orderly (sound.finalizedNoted run (ended run finalized))
      | _ => cases finalizing
    · exact sound.ended other rest run (ended run finalized) old finalizing
  · intro other rest run found marking
    rcases calls_update found with ⟨_, first⟩ | ⟨_, old⟩
    · cases first
      cases request with
      | markDone started instanceId =>
        cases marking
        exact Finalized.follows orderly follows
      | _ => cases marking
    · exact Finalized.follows (sound.marks other rest run old marking) follows
  · intro run user confirming
    have before : Confirming registry run user := by
      rcases confirming with listed | ⟨other, instanceId, record, publishes, found⟩
      · exact .inl (log_started listed nofun nofun)
      · rcases calls_update found with ⟨_, first⟩ | ⟨_, old⟩
        · cases request with
          | _ => cases first
        · exact .inr ⟨other, instanceId, record, publishes, old⟩
    rcases sound.dead run user before with finalized | dead
    · exact .inl (Finalized.follows finalized follows)
    · exact .inr (dead_started dead)
  · exact final_started sound.final

theorem sound_step (sound : Sound registry) {choice : Choice}
    (orderly : Orderly registry choice) : Sound (step choice registry) := by
  cases choice with
  | begins call request =>
    rw [step]
    split
    · exact sound
    · exact sound_started sound orderly
  | performs call =>
    rw [step]
    split
    · exact sound
    · rename_i position isAt
      rw [Orderly, isAt] at orderly
      exact sound_performed sound isAt orderly
  | abandons call => exact sound_abandons sound call
  | expiresRun run =>
    exact sound_of_quiet sound (sound.owned.dropRun run) (quiet_dropRun run)
  | expiresTombstone run =>
    exact sound_of_quiet sound (sound.owned.setTombstone nofun) (quiet_expiresTombstone orderly)
  | delivers instanceId run => exact sound_delivers sound instanceId run

theorem sound_start : Sound {} := by
  constructor
  · constructor
    · intro run first second listed
      cases listed
    · rintro run ⟨user, listed⟩
      cases listed
    · intro run record found
      cases found
    · intro run user found
      cases found
    · intro instanceId run registration found
      cases found
    · intro instanceId run listed
      cases listed
  · intro call position found
    cases found
  · intro run first second position other found
    cases found
  · intro run first second position other found
    cases found
  · intro call position run found
    cases found
  · rintro run ⟨user, listed⟩
    cases listed
  · rintro call position run ⟨user, listed⟩
    cases listed
  · intro call position run found
    cases found
  · rintro run user (listed | ⟨_, _, _, _, found⟩)
    · cases listed
    · cases found
  · intro newer older run user same
    cases newer with
    | nil => cases same
    | cons first newer => cases same

theorem onlyOwnerStops_of_owned (owned : Owned registry) : OnlyOwnerStops registry := by
  rintro run owner isOwner (⟨record, found, cancelled⟩ | ⟨instanceId, registration, found, stopped⟩)
  · have own := owned.record run record found
    rw [owned.unique run owner record.userId isOwner own.1]
    exact own.2 cancelled
  · have own := owned.registration instanceId run registration found
    rw [owned.unique run owner registration.userId isOwner own.1]
    exact own.2 stopped

end Steps

/-- In every orderly run, a cancel that was confirmed to a run's owner is final,
and nobody else's cancel stops the run. -/
theorem confirmed_cancel_final (registry : Registry) (reached : Reaches step Orderly {} registry) :
    CancelIsFinal registry.log ∧ OnlyOwnerStops registry := by
  have sound : Sound registry :=
    reached.invariant sound_start fun _ _ sound orderly =>
      sound_step sound orderly
  exact ⟨sound.final, onlyOwnerStops_of_owned sound.owned⟩

/-- A cancel that comes before its run is registered, and the finalization it
stops. -/
def cancelledEarly : List Choice :=
  [.begins 0 (.cancelRun "run" "alice" "other"), .performs 0, .performs 0,
    .begins 1 (.register "run" "alice" "producer"), .performs 1, .performs 1,
    .performs 1, .performs 1, .performs 1,
    .begins 2 (.beginFinalize "run" "producer"), .performs 2]

theorem orderly_cancelledEarly : OrderlyRun step Orderly {} cancelledEarly := by
  have unlooked : ∀ log : List Event, (∀ event ∈ log,
      event = .asked "run" "alice" ∨ event = .confirmed "run" "alice") →
      ¬∃ user, Event.looked "run" user ∈ log := by
    rintro log only ⟨user, listed⟩
    rcases only _ listed with same | same
    · cases same
    · cases same
  refine ⟨trivial, trivial, .inl ⟨unlooked _ ?_, .inl rfl⟩, trivial,
    unlooked _ ?_, trivial, trivial, trivial, trivial, ?_, trivial, trivial⟩
  · decide +kernel
  · decide +kernel
  · show Event.finalizing "run" ∉ _
    decide +kernel

theorem confirmed_cancel_final_cancelledEarly : (runFrom step {} cancelledEarly).log =
        [.notFinalized "run", .finalizing "run", .registered "run" "alice",
          .looked "run" "alice", .confirmed "run" "alice",
          .asked "run" "alice"] ∧
      CancelIsFinal (runFrom step {} cancelledEarly).log ∧
      OnlyOwnerStops (runFrom step {} cancelledEarly) :=
  ⟨by decide +kernel, confirmed_cancel_final _ (reaches_runFrom .start orderly_cancelledEarly)⟩

/-- A cancel that was confirmed is not lost: its run was finalized, or nothing that is
stored of the run lets it be finalized any more. -/
theorem confirmed_cancel_kept (registry : Registry) (reached : Reaches step Orderly {} registry)
    {run user : String} (confirmed : .confirmed run user ∈ registry.log) :
    Finalized registry run ∨ Dead registry run user := by
  have sound : Sound registry :=
    reached.invariant sound_start fun _ _ sound orderly => sound_step sound orderly
  exact sound.dead run user (.inl confirmed)

theorem confirmed_cancel_kept_cancelledEarly : Finalized (runFrom step {} cancelledEarly) "run" ∨
      Dead (runFrom step {} cancelledEarly) "run" "alice" :=
  confirmed_cancel_kept _ (reaches_runFrom .start orderly_cancelledEarly) (by decide +kernel)

/-- A cancel that reads no record before its run is registered, and leaves its
tombstone after the registration has looked for it. -/
def cancelledBetween : List Choice :=
  [.begins 0 (.cancelRun "run" "alice" "other"), .performs 0,
    .begins 1 (.register "run" "alice" "producer"), .performs 1, .performs 1,
    .performs 1, .performs 0,
    .begins 2 (.beginFinalize "run" "producer"), .performs 2, .performs 2,
    .performs 2, .performs 2]

/-- The cancel is confirmed, and the run is finalized all the same. -/
theorem not_cancelIsFinal_cancelledBetween :
    ¬CancelIsFinal (runFrom step {} cancelledBetween).log := by
  intro final
  have logged : (runFrom step {} cancelledBetween).log =
      [] ++ .finalized "run" "alice" :: [.finalizing "run",
        .confirmed "run" "alice", .registered "run" "alice",
        .looked "run" "alice", .asked "run" "alice"] := by
    decide +kernel
  apply final _ _ _ _ logged
  decide +kernel

end McpAssistant.Services.ConfirmedCancel
