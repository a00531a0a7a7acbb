import Mathlib.Algebra.BigOperators.Ring.List
import Mathlib.Tactic.FieldSimp
import Mathlib.Tactic.Linarith
import Mathlib.Tactic.LinearCombination
import Mathlib.Tactic.Ring

/-!
# Landed costs

The charges of a purchase are spread over its items, in proportion to their values.  An
item without a quantity has a value like any other, and no charges.  Amounts are exact;
what the columns round is left to them.
-/

namespace McpAssistant.Billing.LandedCosts

open List

inductive CostBreakdown
  | imported (unitPriceForeign invoiceValueForeign allocatedChargesForeign totalCostForeign
      exchangeRate totalCostTzs unitCostTzs ratio : Rat)
  | bought (originalCost : Option Rat) (allocatedCharges unitCostTzs ratio : Rat)
deriving DecidableEq

structure InventoryItem where
  quantity : Option Rat
  invoiceValueForeign : Option Rat := none
  unitPriceForeign : Option Rat := none
  cost : Option Rat := none
  allocatedCharges : Rat := 0
  unitCostTzs : Rat := 0
  costBreakdown : Option CostBreakdown := none
deriving DecidableEq

structure Inventory where
  type : String
  exchangeRate : Option Rat := none
  clearingCharges : Option Rat := none
  freightCharges : Option Rat := none
  otherCharges : Option Rat := none
  chargesInTzs : Bool := false
  items : List InventoryItem
  invoiceValueForeign : Rat := 0
  totalLandedCostTzs : Rat := 0
deriving DecidableEq

def counted (item : InventoryItem) : Bool :=
  0 < item.quantity.getD 0

def invoiceValue (item : InventoryItem) : Rat :=
  item.invoiceValueForeign.getD 0

def itemCost (item : InventoryItem) : Rat :=
  item.cost.getD 0 * item.quantity.getD 0

/-- What a value grows by when charges are spread over a total. -/
def allocationRatio (total charges : Rat) : Rat :=
  if 0 < total then (total + charges) / total else 1

namespace Inventory

variable (inventory : Inventory)

/-- The rate, one where there is none; a stored rate of zero is a text that is not empty,
so it stays. -/
def rate : Rat :=
  inventory.exchangeRate.getD 1

def totalCharges : Rat :=
  inventory.clearingCharges.getD 0 + inventory.freightCharges.getD 0 + inventory.otherCharges.getD 0

def chargesForeign : Rat :=
  if inventory.chargesInTzs ∧ 0 < inventory.rate then inventory.totalCharges / inventory.rate
  else inventory.totalCharges

def totalInvoiceForeign : Rat :=
  (inventory.items.map invoiceValue).sum

def ratio : Rat :=
  allocationRatio inventory.totalInvoiceForeign inventory.chargesForeign

def totalItemCost : Rat :=
  (inventory.items.map itemCost).sum

def localRatio : Rat :=
  allocationRatio inventory.totalItemCost inventory.totalCharges

end Inventory

def allocated (ratio value : Rat) : Rat :=
  value * (ratio - 1)

def totalCostForeign (ratio : Rat) (item : InventoryItem) : Rat :=
  invoiceValue item + allocated ratio (invoiceValue item)

def totalCostTzs (rate ratio : Rat) (item : InventoryItem) : Rat :=
  totalCostForeign ratio item * rate

def landed (rate ratio : Rat) (item : InventoryItem) : InventoryItem :=
  if counted item then
    let unitCost := totalCostTzs rate ratio item / item.quantity.getD 0
    { item with
      allocatedCharges := allocated ratio (invoiceValue item)
      unitCostTzs := unitCost
      cost := some unitCost
      costBreakdown := some (.imported (item.unitPriceForeign.getD 0) (invoiceValue item)
        (allocated ratio (invoiceValue item)) (totalCostForeign ratio item) rate
        (totalCostTzs rate ratio item) unitCost ratio) }
  else item

def handle (inventory : Inventory) : Inventory :=
  if inventory.type ≠ "Receive" ∨ inventory.items = [] then inventory
  else
    { inventory with
      items := inventory.items.map (landed inventory.rate inventory.ratio)
      invoiceValueForeign := inventory.totalInvoiceForeign
      totalLandedCostTzs := ((inventory.items.filter counted).map
        (totalCostTzs inventory.rate inventory.ratio)).sum }

def localUnitCost (ratio : Rat) (item : InventoryItem) : Rat :=
  (itemCost item + allocated ratio (itemCost item)) / item.quantity.getD 0

def landedLocal (ratio : Rat) (item : InventoryItem) : InventoryItem :=
  if counted item then
    { item with
      allocatedCharges := allocated ratio (itemCost item)
      unitCostTzs := localUnitCost ratio item
      cost := some (localUnitCost ratio item)
      costBreakdown := some (.bought item.cost (allocated ratio (itemCost item))
        (localUnitCost ratio item) ratio) }
  else item

def handleLocal (inventory : Inventory) : Inventory :=
  if inventory.type ≠ "Receive" ∨ inventory.items = [] then inventory
  else
    { inventory with
      items := inventory.items.map (landedLocal inventory.localRatio)
      totalLandedCostTzs := ((inventory.items.filter counted).map fun item =>
        localUnitCost inventory.localRatio item * item.quantity.getD 0).sum }

structure PreviewItem where
  allocatedCharges : Rat
  totalCostForeign : Rat
  totalCostTzs : Rat
  unitCostTzs : Rat
  cost : Rat
deriving DecidableEq

structure Preview where
  items : List (Option PreviewItem)
  ratio : Rat
  totalInvoiceForeign : Rat
  totalChargesForeign : Rat
  totalLandedCostTzs : Rat
deriving DecidableEq

section Previewing

variable (round : Rat → Nat → Rat)

def previewItem (rate ratio : Rat) (item : InventoryItem) : Option PreviewItem :=
  if counted item then
    let unitCost := totalCostTzs rate ratio item / item.quantity.getD 0
    some {
      allocatedCharges := round (allocated ratio (invoiceValue item)) 2
      totalCostForeign := round (totalCostForeign ratio item) 2
      totalCostTzs := round (totalCostTzs rate ratio item) 2
      unitCostTzs := round unitCost 4
      cost := round unitCost 4 }
  else none

def preview (inventory : Inventory) : Preview where
  items := inventory.items.map (previewItem round inventory.rate inventory.ratio)
  ratio := round inventory.ratio 4
  totalInvoiceForeign := round inventory.totalInvoiceForeign 2
  totalChargesForeign := round inventory.chargesForeign 2
  totalLandedCostTzs := round ((inventory.items.filter counted).map
    (totalCostTzs inventory.rate inventory.ratio)).sum 2

def shown (item : InventoryItem) : Option PreviewItem :=
  match item.costBreakdown with
  | some (.imported _ _ allocatedCharges totalForeign _ totalTzs unitCost _) =>
    if counted item then
      some {
        allocatedCharges := round allocatedCharges 2
        totalCostForeign := round totalForeign 2
        totalCostTzs := round totalTzs 2
        unitCostTzs := round unitCost 4
        cost := round (item.cost.getD 0) 4 }
    else none
  | _ => none

end Previewing

theorem sum_filter_add (value : InventoryItem → Rat) (items : List InventoryItem) :
    ((items.filter counted).map value).sum +
      ((items.filter fun item => !counted item).map value).sum = (items.map value).sum := by
  induction items with
  | nil => simp
  | cons item items ih =>
    rw [map_cons, sum_cons, ← ih]
    cases isCounted : counted item with
    | true =>
      rw [filter_cons_of_pos isCounted, filter_cons_of_neg (by simp [isCounted]),
        map_cons, sum_cons]
      ring
    | false =>
      rw [filter_cons_of_neg (by simp [isCounted]),
        filter_cons_of_pos (by simp [isCounted]), map_cons, sum_cons]
      ring

theorem counted_landed (rate ratio : Rat) (item : InventoryItem) :
    counted (landed rate ratio item) = counted item := by
  rw [landed]
  split
  · rfl
  · rfl

theorem counted_comp_landed (rate ratio : Rat) : counted ∘ landed rate ratio = counted := by
  funext item
  exact counted_landed rate ratio item

structure Purchase where
  inventory : Inventory
  received : inventory.type = "Receive"
  invoiced : 0 < inventory.totalInvoiceForeign
  rated : 0 < inventory.rate

namespace Purchase

variable (purchase : Purchase)

/-- The charges at the rate; those in local currency are what they are. -/
def chargesTzs : Rat :=
  if purchase.inventory.chargesInTzs then purchase.inventory.totalCharges
  else purchase.inventory.totalCharges * purchase.inventory.rate

/-- The stored total is the invoice and the charges, and the charges are spread whole. -/
structure Conserved : Prop where
  total : (handle purchase.inventory).totalLandedCostTzs =
    purchase.inventory.totalInvoiceForeign * purchase.inventory.rate + purchase.chargesTzs
  charges : (((handle purchase.inventory).items.filter counted).map
    InventoryItem.allocatedCharges).sum * purchase.inventory.rate = purchase.chargesTzs

/-- The value of the items that the charges are spread over. -/
def countedInvoice : Rat :=
  ((purchase.inventory.items.filter counted).map invoiceValue).sum

def skippedInvoice : Rat :=
  ((purchase.inventory.items.filter fun item => !counted item).map invoiceValue).sum

variable {purchase}

theorem handle_eq : handle purchase.inventory = { purchase.inventory with
      items := purchase.inventory.items.map
        (landed purchase.inventory.rate purchase.inventory.ratio)
      invoiceValueForeign := purchase.inventory.totalInvoiceForeign
      totalLandedCostTzs := ((purchase.inventory.items.filter counted).map
        (totalCostTzs purchase.inventory.rate purchase.inventory.ratio)).sum } := by
  apply if_neg
  rintro (other | empty)
  · exact other purchase.received
  · have invoiced := purchase.invoiced
    rw [Inventory.totalInvoiceForeign, empty] at invoiced
    exact lt_irrefl 0 invoiced

theorem total_eq : (handle purchase.inventory).totalLandedCostTzs =
    purchase.countedInvoice * (purchase.inventory.ratio * purchase.inventory.rate) := by
  rw [handle_eq, countedInvoice, ← sum_map_mul_right]
  show (List.map _ _).sum = _
  congr 1
  apply map_congr_left
  intro item _
  rw [totalCostTzs, totalCostForeign, allocated]
  ring

theorem allocated_eq : (((handle purchase.inventory).items.filter counted).map
    InventoryItem.allocatedCharges).sum =
      purchase.countedInvoice * (purchase.inventory.ratio - 1) := by
  rw [handle_eq]
  show (((purchase.inventory.items.map _).filter counted).map _).sum = _
  rw [filter_map, map_map, countedInvoice, ← sum_map_mul_right, counted_comp_landed]
  congr 1
  apply map_congr_left
  intro item listed
  show (landed _ _ item).allocatedCharges = _
  rw [landed, if_pos (List.mem_filter.mp listed).2]
  rfl

theorem chargesTzs_eq :
    purchase.chargesTzs = purchase.inventory.chargesForeign * purchase.inventory.rate := by
  have rated := purchase.rated
  rw [chargesTzs, Inventory.chargesForeign]
  by_cases inTzs : purchase.inventory.chargesInTzs = true
  · rw [if_pos inTzs, if_pos ⟨inTzs, rated⟩]
    exact (div_mul_cancel₀ _ rated.ne').symm
  · rw [if_neg inTzs, if_neg fun both => inTzs both.1]

theorem ratio_eq : purchase.inventory.ratio * purchase.inventory.totalInvoiceForeign =
    purchase.inventory.totalInvoiceForeign + purchase.inventory.chargesForeign := by
  rw [Inventory.ratio, allocationRatio, if_pos purchase.invoiced]
  exact div_mul_cancel₀ _ purchase.invoiced.ne'

/-- The landed costs are those of the invoice and the charges exactly when the items that
are skipped have no value together. -/
theorem conserved_iff (purchase : Purchase) : purchase.Conserved ↔ purchase.skippedInvoice = 0 := by
  have split := sum_filter_add invoiceValue purchase.inventory.items
  have whole : purchase.countedInvoice + purchase.skippedInvoice =
      purchase.inventory.totalInvoiceForeign := split
  have invoiced := purchase.invoiced
  have rated := purchase.rated
  have ratio := @ratio_eq purchase
  constructor
  · intro conserved
    have total := conserved.total
    have charges := conserved.charges
    rw [total_eq, chargesTzs_eq] at total
    rw [allocated_eq, chargesTzs_eq] at charges
    have spread : purchase.countedInvoice * purchase.inventory.rate =
        purchase.inventory.totalInvoiceForeign * purchase.inventory.rate := by
      linear_combination total - charges
    have all := mul_right_cancel₀ rated.ne' spread
    linarith
  · intro none
    have all : purchase.countedInvoice = purchase.inventory.totalInvoiceForeign := by
      linarith
    constructor
    · rw [total_eq, chargesTzs_eq, all]
      linear_combination purchase.inventory.rate * ratio
    · rw [allocated_eq, chargesTzs_eq, all]
      linear_combination purchase.inventory.rate * ratio

end Purchase

/-- Paper that has arrived, and paper of the same value that has not. -/
def halfReceived : Purchase where
  inventory := {
    type := "Receive"
    exchangeRate := some 2500
    freightCharges := some 20
    items := [
      { quantity := some 10, invoiceValueForeign := some 100 },
      { quantity := some 0, invoiceValueForeign := some 100 }] }
  received := by rfl
  invoiced := by decide +kernel
  rated := by decide +kernel

/-- Half of the freight is on no item. -/
theorem halfReceived_not_conserved : ¬ halfReceived.Conserved := by
  intro conserved
  have total := conserved.total
  revert total
  decide +kernel

namespace Inventory

def stored (inventory : Inventory) : List (Option Rat × Rat) × Rat :=
  (inventory.items.map fun item => (item.cost, item.unitCostTzs), inventory.totalLandedCostTzs)

/-- However often it runs, a calculation stores what its first run does. -/
def Idempotent (calculate : Inventory → Inventory) (inventory : Inventory) : Prop :=
  ∀ runs, (calculate^[runs + 1] inventory).stored = (calculate inventory).stored

/-- The preview of a purchase that a calculation stores is what it stores, rounded. -/
def PreviewShows (round : Rat → Nat → Rat) (inventory : Inventory) : Prop :=
  inventory.type = "Receive" → inventory.items ≠ [] →
    (preview round inventory).items = (handle inventory).items.map (shown round) ∧
    (preview round inventory).totalInvoiceForeign = round (handle inventory).invoiceValueForeign 2 ∧
    (preview round inventory).totalLandedCostTzs = round (handle inventory).totalLandedCostTzs 2

/-- Both calculations store the same costs again, and the preview agrees. -/
structure Repeats (round : Rat → Nat → Rat) (inventory : Inventory) : Prop where
  imported : Idempotent handle inventory
  bought : Idempotent handleLocal inventory
  preview : PreviewShows round inventory

/-- The cost of the items that the charges are spread over. -/
def countedCost (inventory : Inventory) : Rat :=
  ((inventory.items.filter counted).map itemCost).sum

/-- The local costs do not grow a second time: nothing is spread, or on costs of zero, or
what the first run leaves is zero or has no positive total. -/
def LocalRepeats (inventory : Inventory) : Prop :=
  inventory.type = "Receive" → 0 < inventory.totalItemCost → inventory.totalCharges ≠ 0 →
    inventory.totalItemCost + inventory.totalCharges ≠ 0 →
    0 < inventory.totalItemCost * inventory.totalItemCost +
      inventory.totalCharges * inventory.countedCost →
    ∀ item ∈ inventory.items, counted item → item.cost.getD 0 = 0

end Inventory

open Inventory

theorem invoiceValue_landed (rate ratio : Rat) (item : InventoryItem) :
    invoiceValue (landed rate ratio item) = invoiceValue item := by
  rw [landed]
  split
  · rfl
  · rfl

theorem landed_landed (rate ratio : Rat) (item : InventoryItem) :
    landed rate ratio (landed rate ratio item) = landed rate ratio item := by
  by_cases isCounted : counted item = true
  · have again := counted_landed rate ratio item
    rw [isCounted] at again
    rw [landed, if_pos again]
    simp only [landed, if_pos isCounted]
    rfl
  · simp only [landed, if_neg isCounted]

/-- The import reads nothing that it writes. -/
theorem handle_handle (inventory : Inventory) : handle (handle inventory) = handle inventory := by
  by_cases skipped : inventory.type ≠ "Receive" ∨ inventory.items = []
  · have unchanged : handle inventory = inventory := if_pos skipped
    rw [unchanged, unchanged]
  · have first := handle.eq_1 inventory
    rw [if_neg skipped] at first
    have values : (handle inventory).totalInvoiceForeign = inventory.totalInvoiceForeign := by
      rw [first, totalInvoiceForeign, totalInvoiceForeign]
      show ((inventory.items.map _).map _).sum = _
      rw [map_map]
      congr 1
      apply map_congr_left
      intro item _
      exact invoiceValue_landed _ _ item
    have rates : (handle inventory).rate = inventory.rate := by
      rw [first]
      rfl
    have ratios : (handle inventory).ratio = inventory.ratio := by
      have charges : (handle inventory).chargesForeign = inventory.chargesForeign := by
        rw [first]
        rfl
      rw [ratio, ratio, values, charges]
    have again : ¬ ((handle inventory).type ≠ "Receive" ∨ (handle inventory).items = []) := by
      rw [first]
      rintro (other | empty)
      · exact skipped (Or.inl other)
      · exact skipped (Or.inr (List.map_eq_nil_iff.mp empty))
    rw [handle.eq_1 (handle inventory), if_neg again, values, rates, ratios, first]
    congr 1
    · show (inventory.items.map _).map _ = _
      rw [map_map]
      apply map_congr_left
      intro item _
      exact landed_landed _ _ item
    · show (((inventory.items.map _).filter counted).map _).sum = _
      rw [filter_map, map_map, counted_comp_landed]
      congr 1
      apply map_congr_left
      intro item _
      show totalCostTzs _ _ (landed _ _ item) = _
      rw [totalCostTzs, totalCostForeign, invoiceValue_landed]
      rfl

theorem handle_idempotent (inventory : Inventory) : Idempotent handle inventory := by
  intro runs
  congr 1
  induction runs with
  | zero => rfl
  | succ runs ih => rw [Function.iterate_succ_apply', ih, handle_handle]

theorem handle_previewShows (round : Rat → Nat → Rat) (inventory : Inventory) :
    PreviewShows round inventory := by
  intro received listed
  have handled := handle.eq_1 inventory
  rw [if_neg (by rintro (other | empty); exacts [other received, listed empty])] at handled
  rw [handled]
  constructor
  · show inventory.items.map _ = (inventory.items.map _).map _
    rw [map_map]
    apply map_congr_left
    intro item _
    show _ = shown round (landed _ _ item)
    have same := counted_landed inventory.rate inventory.ratio item
    rw [previewItem]
    by_cases isCounted : counted item = true
    · rw [isCounted] at same
      simp only [landed, if_pos isCounted, shown] at same ⊢
      rw [if_pos same]
      rfl
    · rw [if_neg isCounted, landed, if_neg isCounted, shown]
      split
      · rw [if_neg isCounted]
      · rfl
  · constructor
    · rfl
    · rfl

theorem allocationRatio_eq_one (total charges : Rat) :
    allocationRatio total charges = 1 ↔ total ≤ 0 ∨ charges = 0 := by
  rw [allocationRatio]
  by_cases positive : 0 < total
  · rw [if_pos positive, div_eq_one_iff_eq positive.ne']
    simp [positive.not_ge]
  · simp [positive, not_lt.mp positive]

theorem localUnitCost_eq (ratio : Rat) {item : InventoryItem} (isCounted : counted item = true) :
    localUnitCost ratio item = ratio * item.cost.getD 0 := by
  have positive : 0 < item.quantity.getD 0 := of_decide_eq_true isCounted
  rw [localUnitCost, itemCost, allocated, div_eq_iff positive.ne']
  ring

theorem counted_landedLocal (ratio : Rat) (item : InventoryItem) :
    counted (landedLocal ratio item) = counted item := by
  rw [landedLocal]
  split
  · rfl
  · rfl

theorem itemCost_landedLocal (ratio : Rat) (item : InventoryItem) :
    itemCost (landedLocal ratio item) =
      if counted item then ratio * itemCost item else itemCost item := by
  by_cases isCounted : counted item = true
  · have unit := localUnitCost_eq ratio isCounted
    rw [landedLocal, if_pos isCounted, if_pos isCounted, itemCost, itemCost]
    show localUnitCost ratio item * item.quantity.getD 0 = _
    rw [unit]
    ring
  · rw [landedLocal, if_neg isCounted, if_neg isCounted]

theorem sum_landedLocal (ratio : Rat) (items : List InventoryItem) :
    ((items.map (landedLocal ratio)).map itemCost).sum =
      (items.map itemCost).sum + (ratio - 1) * ((items.filter counted).map itemCost).sum := by
  induction items with
  | nil => simp
  | cons item items ih =>
    rw [map_cons, map_cons, sum_cons, ih, itemCost_landedLocal, map_cons, sum_cons]
    cases isCounted : counted item with
    | true =>
      rw [filter_cons_of_pos isCounted, map_cons, sum_cons, if_pos rfl]
      ring
    | false =>
      rw [filter_cons_of_neg (by simp [isCounted]), if_neg (by decide)]
      ring

/-- An item without the columns that no calculation reads. -/
def InventoryItem.bare (item : InventoryItem) : InventoryItem :=
  { item with allocatedCharges := 0, costBreakdown := none }

def Inventory.bare (inventory : Inventory) : Inventory :=
  { inventory with items := inventory.items.map InventoryItem.bare }

theorem stored_bare (inventory : Inventory) : inventory.bare.stored = inventory.stored := by
  rw [stored, stored]
  congr 1
  show (inventory.items.map _).map _ = _
  rw [map_map]
  rfl

theorem bare_landedLocal (ratio : Rat) (item : InventoryItem) :
    (landedLocal ratio item.bare).bare = (landedLocal ratio item).bare := by
  by_cases isCounted : counted item = true
  · have same : counted item.bare = true := isCounted
    rw [landedLocal, if_pos same, landedLocal, if_pos isCounted]
    rfl
  · have same : ¬ counted item.bare = true := isCounted
    rw [landedLocal, if_neg same, landedLocal, if_neg isCounted]
    rfl

theorem handleLocal_eq {inventory : Inventory} (received : inventory.type = "Receive")
    (listed : inventory.items ≠ []) : handleLocal inventory =
      { inventory with
        items := inventory.items.map (landedLocal inventory.localRatio)
        totalLandedCostTzs := ((inventory.items.filter counted).map fun item =>
          localUnitCost inventory.localRatio item * item.quantity.getD 0).sum } := by
  apply if_neg
  rintro (other | empty)
  · exact other received
  · exact listed empty

theorem bare_handleLocal (inventory : Inventory) :
    (handleLocal inventory.bare).bare = (handleLocal inventory).bare := by
  have bareTwice : inventory.bare.bare = inventory.bare := by
    rw [Inventory.bare, Inventory.bare]
    congr 1
    show (inventory.items.map _).map _ = _
    rw [map_map]
    rfl
  by_cases skipped : inventory.type ≠ "Receive" ∨ inventory.items = []
  · have same : handleLocal inventory.bare = inventory.bare :=
      if_pos (skipped.imp_right fun empty => by rw [Inventory.bare, empty]; rfl)
    have unchanged : handleLocal inventory = inventory := if_pos skipped
    rw [same, unchanged, bareTwice]
  · have received : inventory.type = "Receive" := by
      by_contra other
      exact skipped (Or.inl other)
    have listed : inventory.items ≠ [] := fun empty => skipped (Or.inr empty)
    have listedBare : inventory.bare.items ≠ [] := fun empty =>
      listed (List.map_eq_nil_iff.mp empty)
    have ratios : inventory.bare.localRatio = inventory.localRatio := by
      rw [localRatio, localRatio, totalItemCost, totalItemCost]
      show allocationRatio ((inventory.items.map _).map _).sum _ = _
      rw [map_map]
      rfl
    rw [handleLocal_eq received listed, @handleLocal_eq inventory.bare received
      listedBare, ratios, Inventory.bare, Inventory.bare]
    congr 1
    · show ((inventory.items.map _).map _).map _ = (inventory.items.map _).map _
      rw [map_map, map_map, map_map]
      apply map_congr_left
      intro item _
      exact bare_landedLocal _ item
    · show (((inventory.items.map _).filter counted).map _).sum = _
      rw [filter_map, map_map]
      rfl

/-- A calculation that leaves its own costs alone leaves them alone ever after. -/
theorem idempotent_of_again {inventory : Inventory}
    (again : (handleLocal (handleLocal inventory)).bare = (handleLocal inventory).bare) :
    Idempotent handleLocal inventory := by
  intro runs
  rw [← stored_bare, ← stored_bare (handleLocal inventory)]
  congr 1
  induction runs with
  | zero => rfl
  | succ runs ih =>
    rw [Function.iterate_succ_apply', ← bare_handleLocal, ih, bare_handleLocal, again]

section Local

variable {inventory : Inventory} (received : inventory.type = "Receive")
  (listed : inventory.items ≠ [])
include received listed

theorem total_handleLocal : (handleLocal inventory).totalItemCost =
    inventory.totalItemCost + (inventory.localRatio - 1) * inventory.countedCost := by
  rw [handleLocal_eq received listed]
  exact sum_landedLocal _ _

theorem handleLocal_listed : (handleLocal inventory).items ≠ [] := by
  rw [handleLocal_eq received listed]
  exact fun empty => listed (List.map_eq_nil_iff.mp empty)

theorem handleLocal_received : (handleLocal inventory).type = "Receive" := by
  rw [handleLocal_eq received listed]
  exact received

theorem handleLocal_charges : (handleLocal inventory).totalCharges = inventory.totalCharges := by
  rw [handleLocal_eq received listed]
  rfl

/-- A second run leaves the costs when it spreads nothing or when they are zero. -/
theorem handleLocal_again (settled : (handleLocal inventory).localRatio = 1 ∨
      ∀ item ∈ inventory.items, counted item → inventory.localRatio * item.cost.getD 0 = 0) :
    (handleLocal (handleLocal inventory)).bare = (handleLocal inventory).bare := by
  have unit : ∀ item ∈ inventory.items, counted item = true →
      (handleLocal inventory).localRatio * (inventory.localRatio * item.cost.getD 0) =
        inventory.localRatio * item.cost.getD 0 := by
    intro item member isCounted
    rcases settled with one | zero
    · rw [one, one_mul]
    · rw [zero item member isCounted, mul_zero]
  have units : ∀ item ∈ inventory.items, counted item = true →
      localUnitCost (handleLocal inventory).localRatio (landedLocal inventory.localRatio item) =
        localUnitCost inventory.localRatio item := by
    intro item member isCounted
    have still := counted_landedLocal inventory.localRatio item
    rw [isCounted] at still
    rw [localUnitCost_eq _ still, localUnitCost_eq _ isCounted, landedLocal, if_pos isCounted]
    show _ * localUnitCost _ item = _
    rw [localUnitCost_eq _ isCounted]
    exact unit item member isCounted
  rw [handleLocal_eq (handleLocal_received received listed) (handleLocal_listed received listed)]
  generalize (handleLocal inventory).localRatio = again at units
  rw [handleLocal_eq received listed, Inventory.bare, Inventory.bare]
  congr 1
  · show ((inventory.items.map _).map _).map _ = (inventory.items.map _).map _
    rw [map_map, map_map, map_map]
    apply map_congr_left
    intro item member
    show (landedLocal again (landedLocal _ item)).bare = (landedLocal _ item).bare
    have still := counted_landedLocal inventory.localRatio item
    by_cases isCounted : counted item = true
    · rw [isCounted] at still
      rw [landedLocal, if_pos still, units item member isCounted, landedLocal, if_pos isCounted]
      rfl
    · rw [Bool.not_eq_true] at isCounted
      rw [landedLocal, if_neg (by rw [still, isCounted]; decide)]
  · show (((inventory.items.map _).filter counted).map _).sum = _
    rw [filter_map, map_map]
    have same : counted ∘ landedLocal inventory.localRatio = counted := by
      funext item
      exact counted_landedLocal _ item
    rw [same]
    congr 1
    apply map_congr_left
    intro item member
    have kept := List.mem_filter.mp member
    have quantities : (landedLocal inventory.localRatio item).quantity = item.quantity := by
      rw [landedLocal, if_pos kept.2]
    show localUnitCost again (landedLocal _ item) * (landedLocal _ item).quantity.getD 0 = _
    rw [units item kept.1 kept.2, quantities]

/-- A second run that leaves the cost of an item multiplies it by one, or it is zero. -/
theorem unit_of_idempotent (idempotent : Idempotent handleLocal inventory) :
    ∀ item ∈ inventory.items, counted item = true →
      (handleLocal inventory).localRatio * (inventory.localRatio * item.cost.getD 0) =
        inventory.localRatio * item.cost.getD 0 := by
  have stored := congrArg Prod.fst (idempotent 1)
  change (handleLocal (handleLocal inventory)).items.map _ =
    (handleLocal inventory).items.map _ at stored
  rw [handleLocal_eq (handleLocal_received received listed)
    (handleLocal_listed received listed)] at stored
  generalize (handleLocal inventory).localRatio = again at stored ⊢
  rw [handleLocal_eq received listed] at stored
  change ((inventory.items.map _).map _).map _ = (inventory.items.map _).map _ at stored
  rw [map_map, map_map, map_map] at stored
  intro item member isCounted
  have costs := congrArg Prod.snd (List.map_inj_left.mp stored item member)
  change (landedLocal again (landedLocal _ item)).unitCostTzs =
    (landedLocal _ item).unitCostTzs at costs
  have still := counted_landedLocal inventory.localRatio item
  rw [isCounted] at still
  rw [landedLocal, if_pos still] at costs
  change localUnitCost again _ = _ at costs
  rw [localUnitCost_eq _ still, landedLocal, if_pos isCounted] at costs
  change _ * localUnitCost _ item = localUnitCost _ item at costs
  rw [localUnitCost_eq _ isCounted] at costs
  exact costs

/-- The total after a run, times the total before it. -/
theorem total_mul_handleLocal (positive : 0 < inventory.totalItemCost) :
    inventory.totalItemCost * (handleLocal inventory).totalItemCost =
      inventory.totalItemCost * inventory.totalItemCost +
        inventory.totalCharges * inventory.countedCost := by
  have ratio : inventory.localRatio * inventory.totalItemCost =
      inventory.totalItemCost + inventory.totalCharges := by
    rw [localRatio, allocationRatio, if_pos positive]
    exact div_mul_cancel₀ _ positive.ne'
  rw [total_handleLocal received listed]
  linear_combination inventory.countedCost * ratio

end Local

theorem handleLocal_idempotent_iff (inventory : Inventory) :
    Idempotent handleLocal inventory ↔ LocalRepeats inventory := by
  by_cases listed : inventory.items = []
  · constructor
    · intro _ _ positive
      rw [totalItemCost, listed] at positive
      exact absurd positive (lt_irrefl 0)
    · intro _
      have unchanged : handleLocal inventory = inventory := if_pos (Or.inr listed)
      apply idempotent_of_again
      rw [unchanged, unchanged]
  · constructor
    · intro idempotent received positive charged remains grows item member isCounted
      have unit := unit_of_idempotent received listed idempotent item member isCounted
      have notOne : (handleLocal inventory).localRatio ≠ 1 := by
        intro one
        rcases (allocationRatio_eq_one _ _).mp one with small | none
        · rw [← total_mul_handleLocal received listed positive] at grows
          exact absurd ((pos_iff_pos_of_mul_pos grows).mp positive) small.not_gt
        · rw [handleLocal_charges received listed] at none
          exact charged none
      have notZero : inventory.localRatio ≠ 0 := by
        rw [localRatio, allocationRatio, if_pos positive]
        exact div_ne_zero remains positive.ne'
      rcases mul_eq_zero.mp (mul_left_eq_self₀.mp unit |>.resolve_left notOne) with zero | zero
      · exact absurd zero notZero
      · exact zero
    · intro repeats
      apply idempotent_of_again
      by_cases received : inventory.type = "Receive"
      · apply handleLocal_again received listed
        rw [localRatio, allocationRatio_eq_one, handleLocal_charges received listed]
        by_cases positive : 0 < inventory.totalItemCost
        · by_cases charged : inventory.totalCharges = 0
          · exact Or.inl (Or.inr charged)
          · by_cases remains : inventory.totalItemCost + inventory.totalCharges = 0
            · right
              intro item _ _
              rw [localRatio, allocationRatio, if_pos positive, remains, zero_div, zero_mul]
            · have after := total_mul_handleLocal received listed positive
              by_cases grows : 0 < inventory.totalItemCost * inventory.totalItemCost +
                  inventory.totalCharges * inventory.countedCost
              · right
                intro item member isCounted
                rw [repeats received positive charged remains grows item member isCounted, mul_zero]
              · left; left
                by_contra more
                rw [← after] at grows
                exact grows (mul_pos positive (not_le.mp more))
        · left; left
          rw [total_handleLocal received listed, localRatio, allocationRatio, if_neg positive,
            sub_self, zero_mul, add_zero]
          exact not_lt.mp positive
      · have unchanged : handleLocal inventory = inventory := if_pos (Or.inl received)
        rw [unchanged, unchanged]

/-- Ten reams at ten each, and a delivery that costs ten. -/
def delivered : Inventory where
  type := "Receive"
  freightCharges := some 10
  items := [{ quantity := some 10, cost := some 10 }]

end McpAssistant.Billing.LandedCosts
