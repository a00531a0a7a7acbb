import Mathlib.Tactic.Common

/-!
# Computations that may fail

A fallible computation returns an error or a value.  These lemmas take a
successful one apart: into the two halves of a bind, or into the successful
runs of a traversal.
-/

namespace McpAssistant.Foundations.Fallible

open List

variable {Failure Item Value : Type} {first : Except Failure Value}

/-- A bind succeeds exactly when its first half does and the second half
succeeds on that value. -/
theorem bind_eq_ok {Result : Type} {next : Value → Except Failure Result} {result : Result} :
    (first >>= next) = .ok result ↔ ∃ value, first = .ok value ∧ next value = .ok result := by
  cases first with
  | error failure => simp [bind, Except.bind]
  | ok value => simp [bind, Except.bind]

theorem map_eq_ok {Result : Type} {next : Value → Result} {result : Result} :
    first.map next = .ok result ↔ ∃ value, first = .ok value ∧ next value = result := by
  cases first with
  | error failure => simp [Except.map]
  | ok value => simp [Except.map]

/-- Renaming failures changes no success. -/
theorem mapError_eq_ok {Other : Type} {run : Except Failure Value}
    {handler : Failure → Other} {value : Value} :
    run.mapError handler = .ok value ↔ run = .ok value := by
  cases run with
  | error failure => simp [Except.mapError]
  | ok found => simp [Except.mapError]

theorem pure_eq_ok {value result : Value} :
    (pure value : Except Failure Value) = .ok result ↔ value = result := by
  simp [pure, Except.pure]

variable {run : Item → Except Failure Value} {items : List Item} {values : List Value}

/-- A traversal that succeeds ran every item successfully and returned exactly
their values. -/
theorem mapM_eq_ok (traversed : items.mapM run = .ok values) :
    (∀ item ∈ items, ∃ value ∈ values, run item = .ok value) ∧
      ∀ value ∈ values, ∃ item ∈ items, run item = .ok value := by
  induction items generalizing values with
  | nil =>
    rw [mapM_nil, pure_eq_ok] at traversed
    subst traversed
    simp
  | cons item items ih =>
    rw [mapM_cons, bind_eq_ok] at traversed
    obtain ⟨first, ran, rest⟩ := traversed
    rw [bind_eq_ok] at rest
    obtain ⟨others, traversed, equal⟩ := rest
    rw [pure_eq_ok] at equal
    subst equal
    obtain ⟨forward, backward⟩ := ih traversed
    constructor
    · intro other member
      rcases List.mem_cons.mp member with rfl | later
      · exact ⟨first, mem_cons_self, ran⟩
      · obtain ⟨value, valueIn, ran'⟩ := forward other later
        exact ⟨value, mem_cons_of_mem _ valueIn, ran'⟩
    · intro value member
      rcases List.mem_cons.mp member with rfl | later
      · exact ⟨item, mem_cons_self, ran⟩
      · obtain ⟨other, otherIn, ran'⟩ := backward value later
        exact ⟨other, mem_cons_of_mem _ otherIn, ran'⟩

/-- A traversal whose runs all succeed returns their values in order. -/
theorem mapM_of_ok {run : Item → Except Failure Value} {items : List Item}
    {values : Item → Value} (each : ∀ item ∈ items, run item = .ok (values item)) :
    items.mapM run = .ok (items.map values) := by
  induction items with
  | nil => rfl
  | cons item items ih =>
    rw [mapM_cons, each item mem_cons_self,
      ih fun other member => each other (mem_cons_of_mem _ member)]
    rfl

theorem mapM_determined {value : Item → Value}
    (determined : ∀ item found, run item = .ok found → found = value item)
    (traversed : items.mapM run = .ok values) :
    values = items.map value ∧ ∀ item ∈ items, run item = .ok (value item) := by
  have each : ∀ item ∈ items, run item = .ok (value item) := by
    intro item member
    rcases (mapM_eq_ok traversed).1 item member with ⟨found, -, ran⟩
    rw [ran, determined item found ran]
  exact ⟨(Except.ok.inj ((mapM_of_ok each).symm.trans traversed)).symm, each⟩

theorem forM_eq_ok {run : Item → Except Failure Unit} :
    items.forM run = .ok () ↔ ∀ item ∈ items, run item = .ok () := by
  induction items with
  | nil => exact iff_of_true rfl (by simp)
  | cons item items ih =>
    show (run item >>= fun _ => items.forM run) = .ok () ↔ _
    rw [bind_eq_ok, forall_mem_cons, ih]
    constructor
    · rintro ⟨⟨⟩, own, rest⟩
      exact ⟨own, rest⟩
    · rintro ⟨own, rest⟩
      exact ⟨(), own, rest⟩

/-- What runs the same on every item runs the same on the list. -/
theorem forM_congr {first second : Item → Except Failure Unit}
    (same : ∀ item ∈ items, first item = second item) :
    items.forM first = items.forM second := by
  induction items with
  | nil => rfl
  | cons item items ih =>
    show (first item >>= fun _ => items.forM first) = (second item >>= fun _ => items.forM second)
    rw [same item mem_cons_self, ih fun other member => same other (mem_cons_of_mem item member)]

section FailsOnly

variable {allowed : Failure → Prop}

def Succeeds (run : Except Failure Value) : Prop :=
  ∃ value, run = .ok value

def FailsOnly (allowed : Failure → Prop) (run : Except Failure Value) : Prop :=
  ∀ failure, run = .error failure → allowed failure

theorem failsOnly_ok {value : Value} : FailsOnly allowed (.ok value : Except Failure Value) :=
  fun _ => nofun

theorem failsOnly_error {failure : Failure} :
    FailsOnly allowed (.error failure : Except Failure Value) ↔ allowed failure :=
  ⟨fun only => only failure rfl, fun isAllowed _ same => by
    cases same
    exact isAllowed⟩

theorem failsOnly_bind {Result : Type} {first : Except Failure Value}
    {next : Value → Except Failure Result} :
    FailsOnly allowed (first >>= next) ↔ FailsOnly allowed first ∧
        ∀ value, first = .ok value → FailsOnly allowed (next value) := by
  cases first with
  | error failure =>
    show FailsOnly allowed (.error failure) ↔ _
    rw [failsOnly_error, failsOnly_error]
    exact ⟨fun isAllowed => ⟨isAllowed, fun _ => nofun⟩, And.left⟩
  | ok value =>
    constructor
    · exact fun only => ⟨failsOnly_ok, fun _ same => by cases same; exact only⟩
    · exact fun only => only.2 value rfl

def EachFailsOnly (allowed : Failure → Prop) (run : Item → Except Failure Value)
    (items : List Item) : Prop :=
  ∀ before item after, items = before ++ item :: after →
    (∀ earlier ∈ before, Succeeds (run earlier)) → FailsOnly allowed (run item)

variable {run : Item → Except Failure Value} {items : List Item}

theorem eachFailsOnly_cons {item : Item} :
    EachFailsOnly allowed run (item :: items) ↔ FailsOnly allowed (run item) ∧
        (Succeeds (run item) → EachFailsOnly allowed run items) := by
  constructor
  · intro each
    refine ⟨each [] item items rfl fun _ member => absurd member not_mem_nil, ?_⟩
    intro succeeds before other after split earlier
    apply each (item :: before) other after (by rw [split]; rfl)
    intro first member
    rcases List.mem_cons.mp member with rfl | member
    · exact succeeds
    · exact earlier first member
  · rintro ⟨only, rest⟩ before other after split earlier
    cases before with
    | nil =>
      cases split
      exact only
    | cons first before =>
      cases split
      apply rest (earlier _ mem_cons_self) before other after rfl
      exact fun later member => earlier later (mem_cons_of_mem _ member)

theorem eachFailsOnly_append {first second : List Item} :
    EachFailsOnly allowed run (first ++ second) ↔ EachFailsOnly allowed run first ∧
        ((∀ item ∈ first, Succeeds (run item)) → EachFailsOnly allowed run second) := by
  induction first with
  | nil =>
    constructor
    · refine fun each => ⟨?_, fun _ => each⟩
      intro before _ _ split
      cases before <;> cases split
    · exact fun each => each.2 fun _ member => absurd member not_mem_nil
  | cons item items ih =>
    rw [cons_append, eachFailsOnly_cons, eachFailsOnly_cons, ih]
    simp only [forall_mem_cons]
    tauto

theorem eachFailsOnly_flatMap {Part : Type}
    {parts : Item → List Part} {other : Type} {runPart : Part → Except Failure other}
    (only : ∀ item, FailsOnly allowed (run item) ↔ EachFailsOnly allowed runPart (parts item))
    (succeeds : ∀ item, Succeeds (run item) ↔
      ∀ part ∈ parts item, Succeeds (runPart part)) (items : List Item) :
    EachFailsOnly allowed run items ↔ EachFailsOnly allowed runPart (items.flatMap parts) := by
  induction items with
  | nil =>
    constructor
    all_goals
      intro _ before _ _ split
      cases before <;> cases split
  | cons item items ih =>
    rw [eachFailsOnly_cons, flatMap_cons, eachFailsOnly_append, only item, succeeds item, ih]

theorem succeeds_mapM : Succeeds (items.mapM run) ↔ ∀ item ∈ items, Succeeds (run item) := by
  constructor
  · rintro ⟨values, traversed⟩ item member
    obtain ⟨value, _, ran⟩ := (mapM_eq_ok traversed).1 item member
    exact ⟨value, ran⟩
  · intro each
    induction items with
    | nil => exact ⟨[], rfl⟩
    | cons item items ih =>
      obtain ⟨value, ran⟩ := each item mem_cons_self
      obtain ⟨values, traversed⟩ := ih fun other member => each other (mem_cons_of_mem _ member)
      exact ⟨value :: values, by rw [mapM_cons, ran, traversed]; rfl⟩

theorem failsOnly_mapM : FailsOnly allowed (items.mapM run) ↔ EachFailsOnly allowed run items := by
  induction items with
  | nil =>
    constructor
    · intro _ before _ _ split
      cases before <;> cases split
    · exact fun _ => failsOnly_ok
  | cons item items ih =>
    rw [mapM_cons, failsOnly_bind, eachFailsOnly_cons]
    apply and_congr_right
    intro _
    constructor
    · rintro rest ⟨value, ran⟩
      exact ih.mp (failsOnly_bind.mp (rest value ran)).1
    · intro rest value ran
      exact failsOnly_bind.mpr ⟨ih.mpr (rest ⟨value, ran⟩), fun _ _ => failsOnly_ok⟩

theorem failsOnly_forM {run : Item → Except Failure Unit}
    (each : ∀ item ∈ items, FailsOnly allowed (run item)) :
    FailsOnly allowed (items.forM run) := by
  induction items with
  | nil => exact failsOnly_ok
  | cons item items ih =>
    show FailsOnly allowed (run item >>= fun _ => items.forM run)
    rw [failsOnly_bind]
    refine ⟨each item mem_cons_self, fun _ _ => ih fun other member => ?_⟩
    exact each other (mem_cons_of_mem _ member)

end FailsOnly

end McpAssistant.Foundations.Fallible
