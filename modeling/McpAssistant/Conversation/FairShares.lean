import Mathlib.Algebra.Order.Group.Nat
import Mathlib.Data.List.Forall2
import Mathlib.Algebra.Ring.Nat

/-!
# Fair shares

The rows that an observation may hold are shared by its tables: each takes an even share
first, and the tables take what is left in their order.
-/

namespace McpAssistant.Conversation.FairShares

open List

/-- One after another takes what it wants of the room that is left. -/
def spend : Nat → List Nat → List Nat × Nat
  | room, [] => ([], room)
  | room, want :: wants =>
    let take := min want room
    let later := spend (room - take) wants
    (take :: later.1, later.2)

def fairShares (sizes : List Nat) (cap : Nat) : List Nat :=
  let even := if sizes = [] then 0 else max 1 (cap / sizes.length)
  let (shares, room) := spend cap (sizes.map fun size => min size even)
  zipWith (· + ·) shares (spend room (zipWith (· - ·) sizes shares)).1

variable {room cap even : Nat} {wants sizes takes extras : List Nat}

theorem spend_le (room : Nat) (wants : List Nat) : Forall₂ (· ≤ ·) (spend room wants).1 wants := by
  induction wants generalizing room with
  | nil => exact Forall₂.nil
  | cons want wants later => exact Forall₂.cons (Nat.min_le_left want room) (later _)

theorem sum_spend (room : Nat) (wants : List Nat) : (spend room wants).1.sum = min room wants.sum ∧
      (spend room wants).2 = room - wants.sum := by
  induction wants generalizing room with
  | nil => exact ⟨(Nat.min_zero room).symm, rfl⟩
  | cons want wants later =>
    have ⟨sum, left⟩ := later (room - min want room)
    constructor
    · show min want room + (spend (room - min want room) wants).1.sum = _
      rw [sum, sum_cons]
      omega
    · show (spend (room - min want room) wants).2 = _
      rw [left, sum_cons]
      omega

theorem spend_of_room (enough : wants.sum ≤ room) : (spend room wants).1 = wants := by
  induction wants generalizing room with
  | nil => rfl
  | cons want wants later =>
    rw [sum_cons] at enough
    have whole : min want room = want := Nat.min_eq_left (by omega)
    show min want room :: (spend (room - min want room) wants).1 = _
    rw [whole, later (by omega)]

theorem sum_map_min_le (even : Nat) (sizes : List Nat) :
    (sizes.map fun size => min size even).sum ≤ sizes.length * even := by
  induction sizes with
  | nil => exact Nat.zero_le _
  | cons size sizes later =>
    rw [map_cons, sum_cons, length_cons, Nat.succ_mul, Nat.add_comm]
    exact Nat.add_le_add later (Nat.min_le_right size even)

theorem sum_map_min_one (sizes : List Nat) :
    (sizes.map fun size => min size 1).sum = (sizes.filter fun size => 0 < size).length := by
  induction sizes with
  | nil => rfl
  | cons size sizes later =>
    rw [map_cons, sum_cons, later, filter_cons]
    split
    case isTrue positive =>
      rw [Nat.min_eq_right (of_decide_eq_true positive), length_cons, Nat.add_comm]
    case isFalse empty =>
      have zero : size = 0 := by simpa using empty
      rw [zero, Nat.zero_min, Nat.zero_add]

/-- Where the tables with rows are no more than the slots, the even shares fit. -/
theorem even_fits (few : (sizes.filter fun size => 0 < size).length ≤ cap) :
    (sizes.map fun size => min size (max 1 (cap / sizes.length))).sum ≤ cap := by
  rcases Nat.lt_or_ge cap sizes.length with more | fits
  · rw [Nat.div_eq_of_lt more]
    exact (sum_map_min_one sizes).trans_le few
  · rcases Nat.eq_zero_or_pos sizes.length with none | some
    · rw [length_eq_zero_iff.mp none]
      exact Nat.zero_le cap
    · rw [Nat.max_eq_right (Nat.div_pos fits some)]
      exact (sum_map_min_le _ sizes).trans (Nat.mul_div_le cap sizes.length)

theorem add_le_of_le (first : Forall₂ (· ≤ ·) takes sizes)
    (second : Forall₂ (· ≤ ·) extras (zipWith (· - ·) sizes takes)) :
    Forall₂ (· ≤ ·) (zipWith (· + ·) takes extras) sizes ∧
      (zipWith (· + ·) takes extras).sum = takes.sum + extras.sum ∧
      (zipWith (· - ·) sizes takes).sum = sizes.sum - takes.sum ∧ takes.sum ≤ sizes.sum := by
  induction first generalizing extras with
  | nil =>
    cases second
    exact ⟨Forall₂.nil, rfl, rfl, Nat.le_refl 0⟩
  | @cons take size _ _ here _ later =>
    cases second with
    | @cons extra _ _ _ there others =>
      rcases later others with ⟨others, sum, left, total⟩
      have within : take ≤ size := here
      have fits : extra ≤ size - take := there
      have here : take + extra ≤ size := by omega
      refine ⟨Forall₂.cons here others, ?_, ?_, ?_⟩
      · rw [zipWith_cons_cons, sum_cons, sum, sum_cons, sum_cons]
        omega
      · rw [zipWith_cons_cons, sum_cons, left, sum_cons, sum_cons]
        omega
      · rw [sum_cons, sum_cons]
        omega

theorem positive_of_even (some : 0 < even) {extras : List Nat}
    (lengths : extras.length = sizes.length) :
    Forall₂ (fun share size => 0 < size → 0 < share)
      (zipWith (· + ·) (sizes.map fun size => min size even) extras) sizes := by
  induction sizes generalizing extras with
  | nil => exact Forall₂.nil
  | cons size sizes later =>
    rcases exists_cons_of_length_eq_add_one lengths with ⟨extra, others, rfl⟩
    apply Forall₂.cons
    · intro positive
      exact Nat.lt_of_lt_of_le (Nat.lt_min.mpr ⟨positive, some⟩) (Nat.le_add_right _ _)
    · exact later (Nat.succ.inj lengths)

/-- No table gets more than it has, no slot is lost, and every table with rows gets one where
there are slots enough. -/
theorem fairShares_fair (sizes : List Nat) (cap : Nat) :
    Forall₂ (· ≤ ·) (fairShares sizes cap) sizes ∧
      (fairShares sizes cap).sum = min cap sizes.sum ∧
      ((sizes.filter fun size => 0 < size).length ≤ cap →
        Forall₂ (fun share size => 0 < size → 0 < share) (fairShares sizes cap) sizes) := by
  rcases eq_or_ne sizes [] with rfl | nonempty
  · exact ⟨Forall₂.nil, (Nat.min_zero cap).symm, fun _ => Forall₂.nil⟩
  · have least : 0 < max 1 (cap / sizes.length) := Nat.lt_of_lt_of_le one_pos (Nat.le_max_left _ _)
    rw [fairShares, if_neg nonempty]
    generalize shown : sizes.map (fun size => min size (max 1 (cap / sizes.length))) = wants
    have takes : Forall₂ (· ≤ ·) (spend cap wants).1 sizes := by
      have each := spend_le cap wants
      rw [← shown] at each ⊢
      exact (forall₂_map_right_iff.mp each).imp fun _ _ small =>
        Nat.le_trans small (Nat.min_le_left _ _)
    rcases add_le_of_le takes (spend_le (spend cap wants).2 _) with ⟨within, sum, left, total⟩
    have first := sum_spend cap wants
    have second := (sum_spend (spend cap wants).2 (zipWith (· - ·) sizes (spend cap wants).1)).1
    refine ⟨within, ?_, ?_⟩
    · dsimp only
      omega
    · intro few
      have fits : wants.sum ≤ cap := shown ▸ even_fits few
      dsimp only
      rw [spend_of_room fits, ← shown]
      apply positive_of_even least
      rw [(spend_le _ _).length_eq, length_zipWith, length_map, Nat.min_self]

end McpAssistant.Conversation.FairShares
