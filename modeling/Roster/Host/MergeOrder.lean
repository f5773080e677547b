/-! The order in which the units of a pool are taken in. A pool keeps none, so one is given with the host: for every
batch, by its number, and every count of units a row of all their positions. -/

namespace Roster

structure MergeOrder where
  positions : Nat → Nat → List Nat
  perm : ∀ batch count, (positions batch count).Perm (List.range count)

namespace MergeOrder

/-- Units are taken in as they were submitted. -/
def submission : MergeOrder where
  positions _ count := List.range count
  perm _ _ := .refl _

/-- The units of a batch as they are taken in. -/
def arrange {α : Type} (order : MergeOrder) (batch : Nat) (units : List α) : List α :=
  (order.positions batch units.length).filterMap (units[·]?)

theorem filterMap_range {α : Type} (units : List α) :
    (List.range units.length).filterMap (units[·]?) = units := by
  induction units with
  | nil => rfl
  | cons unit rest ih =>
      have hlater : ((unit :: rest)[·]?) ∘ Nat.succ = (rest[·]?) := funext fun _ => List.getElem?_cons_succ
      rw [List.length_cons, List.range_succ_eq_map, List.filterMap_cons, List.filterMap_map, hlater, ih]
      rfl

theorem arrange_perm {α : Type} (order : MergeOrder) (batch : Nat) (units : List α) :
    (order.arrange batch units).Perm units :=
  calc (order.arrange batch units).Perm ((List.range units.length).filterMap (units[·]?)) :=
        (order.perm batch units.length).filterMap _
    _ = units := filterMap_range units

@[simp]
theorem arrange_submission {α : Type} (batch : Nat) (units : List α) :
    submission.arrange batch units = units :=
  filterMap_range units

/-- The order looks at positions only. -/
theorem arrange_map {α β : Type} (order : MergeOrder) (batch : Nat) (f : α → β) (units : List α) :
    order.arrange batch (units.map f) = (order.arrange batch units).map f := by
  rw [arrange, arrange, List.length_map, List.map_filterMap]
  simp only [List.getElem?_map]

end MergeOrder

end Roster
