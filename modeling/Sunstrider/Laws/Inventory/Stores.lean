import Sunstrider.Laws.Inventory.Places
import Sunstrider.Lib.Storing

/-!
# Storing in a storage

`Player::StoreItem` stores by a plan, at positions that are places: the stacks before and after are
related as in `Lib.Storing`. A bag with items in it is stored only where it is not in use.
-/

namespace Sunstrider.Inventory

open Sunstrider.Lib (Puts Stores)

variable {T : Templates}

/-- The amounts of a plan as they are stored. -/
def amounts (dest : List ItemPosCount) : List (Pos × ℕ) := dest.map fun c => (c.pos, c.count.toNat)

@[simp] theorem amounts_nil : amounts [] = [] := rfl

@[simp] theorem amounts_cons (c : ItemPosCount) (dest : List ItemPosCount) :
    amounts (c :: dest) = (c.pos, c.count.toNat) :: amounts dest := rfl

theorem amounts_pos (dest : List ItemPosCount) :
    (amounts dest).map Prod.fst = dest.map ItemPosCount.pos := by
  simp [amounts, Function.comp_def]

theorem toNat_le_getMaxStackSize (n : UInt8) {proto : ItemTemplate}
    (h : n.toNat ≤ proto.stackable) : n.toNat ≤ proto.getMaxStackSize := by
  have hlt := n.toNat_lt
  unfold ItemTemplate.getMaxStackSize
  split <;> omega

/-- Nothing lies in the item. -/
def Item.Hollow (T : Templates) (item : Item) : Prop := ∀ slot, item.getItemByPos T slot = none

theorem Item.hollow_of_bagslot {item : Item} (h : item.bagslot = fun _ => none) : item.Hollow T := by
  intro slot
  unfold Item.getItemByPos
  rw [h]
  exact ite_self none

namespace Player

variable {v : Player} {p q : Pos} {item : Item}

/-- The stacks, with the generator of guids. -/
def held (T : Templates) (v : Player) : (Pos → Option Stack) × ℕ := (v.stackAt T, v.nextGuid)

theorem setItem_nextGuid (v : Player) (p : Pos) (o : Option Item) :
    (v.setItem p o).nextGuid = v.nextGuid := by
  unfold setItem
  split <;> rfl

theorem removeItem_nextGuid (v : Player) (p : Pos) : (v.removeItem T p).nextGuid = v.nextGuid := by
  unfold removeItem
  split
  · exact setItem_nextGuid v p none
  · rfl

/-- Places stay as an item is set that is not in a slot for bags. -/
theorem HasPlace.setItem (h : v.HasPlace T p) (hq : isBagPos q = false) (o : Option Item) :
    (v.setItem q o).HasPlace T p := by
  rcases h with h | ⟨hbag, bag, hat, hlt⟩
  · exact .inl h
  · refine .inr ⟨hbag, ?_⟩
    unfold Player.setItem
    by_cases hown : q.1 = inventorySlotBag0
    · have hne : p.1 ≠ q.2 := by
        intro heq
        rw [isBagPos_iff.mpr ⟨hown, heq ▸ hbag⟩] at hq
        cases hq
      rw [if_pos hown]
      exact ⟨bag, (Function.update_of_ne hne ..).trans hat, hlt⟩
    · rw [if_neg hown]
      by_cases heq : p.1 = q.1
      · refine ⟨{ bag with bagslot := Function.update bag.bagslot q.2 o }, ?_, hlt⟩
        show Function.update v.items q.1 _ p.1 = _
        rw [← heq, Function.update_self, hat, Option.map_some]
      · exact ⟨bag, (Function.update_of_ne heq ..).trans hat, hlt⟩

/-- One position is written. -/
theorem storeItemAt_eq_setItem (v : Player) (item : Item) (c : ItemPosCount) (clone : Bool) :
    ∃ (v' : Player) (o : Option Item), v.storeItemAt T item c clone = v'.setItem c.pos o ∧ v'.items = v.items := by
  unfold storeItemAt
  split
  · exact ⟨v, _, rfl, rfl⟩
  · cases clone <;> exact ⟨_, _, rfl, rfl⟩

theorem HasPlace.of_items {v' : Player} (h : v.HasPlace T p) (hitems : v'.items = v.items) :
    v'.HasPlace T p := by
  unfold HasPlace
  rw [hitems]
  exact h

theorem items_of_isBagPos (hp : isBagPos p = true) : v.items p.2 = v.getItemByPos T p := by
  obtain ⟨hown, hslot⟩ := isBagPos_iff.mp hp
  exact (getItemByPos_own hown (.inl (bagSlot_own hslot))).symm

theorem stackAt_inside_of_isBagPos (hp : isBagPos p = true) (j : Fin 256) :
    v.stackAt T (p.2, j) =
      ((v.getItemByPos T p).bind fun bag => bag.getItemByPos T j).map Item.stack := by
  unfold stackAt
  rw [getItemByPos_inside v (isBagPos_iff.mp hp).2, items_of_isBagPos hp]

variable {o : Option Item}

/-- Places stay where a bag is replaced by one of its kind. -/
theorem HasPlace.setItem_bag (h : v.HasPlace T p) (hq : isBagPos q = true)
    (hsize : ∀ bag, v.getItemByPos T q = some bag → ∃ b, o = some b ∧ b.entry = bag.entry) :
    (v.setItem q o).HasPlace T p := by
  rcases h with h | ⟨hbag, bag, hat, hlt⟩
  · exact .inl h
  · refine .inr ⟨hbag, ?_⟩
    unfold Player.setItem
    rw [if_pos (isBagPos_iff.mp hq).1]
    by_cases heq : p.1 = q.2
    · obtain ⟨b, rfl, hentry⟩ := hsize bag (by rw [← items_of_isBagPos hq, ← heq, hat])
      refine ⟨b, by rw [heq]; exact Function.update_self .., ?_⟩
      unfold Item.getBagSize Item.isBag
      rw [hentry]
      exact hlt
    · exact ⟨bag, (Function.update_of_ne heq ..).trans hat, hlt⟩

theorem HasPlace.storeItemAt (h : v.HasPlace T p) (c : ItemPosCount) (clone : Bool) :
    (v.storeItemAt T item c clone).HasPlace T p := by
  by_cases hc : isBagPos c.pos = true
  · unfold Player.storeItemAt
    cases hat : v.getItemByPos T c.pos with
    | some dest =>
      apply h.setItem_bag hc
      intro bag hbag
      rw [hat] at hbag
      cases hbag
      exact ⟨_, rfl, rfl⟩
    | none =>
      have hnone : ∀ (v' : Player) o, v'.items = v.items → (v'.setItem c.pos o).HasPlace T p := by
        intro v' o hitems
        apply (h.of_items hitems).setItem_bag hc
        intro bag hbag
        rw [← items_of_isBagPos hc, hitems, items_of_isBagPos hc, hat] at hbag
        cases hbag
      cases clone
      · exact hnone v _ rfl
      · exact hnone _ _ rfl
  · obtain ⟨v', o, heq, hitems⟩ := v.storeItemAt_eq_setItem (T := T) item c clone
    rw [heq]
    exact (h.of_items hitems).setItem (Bool.eq_false_iff.mpr hc) o

/-- What is written: at a slot for bags, where the same stacks lie in what was there and in what is
put there. -/
def Writes (T : Templates) (v : Player) (p : Pos) (o : Option Item) : Prop :=
  isBagPos p = true →
    ∀ j, (o.bind fun bag => bag.getItemByPos T j).map Item.stack = v.stackAt T (p.2, j)

/-- What is held changes at the position only. -/
theorem held_setItem (h : v.HasPlace T p) (ho : v.Writes T p o) :
    (v.setItem p o).held T = (Function.update (v.stackAt T) p (o.map Item.stack), v.nextGuid) := by
  unfold held
  rw [setItem_nextGuid]
  by_cases hp : isBagPos p = true
  · rw [stackAt_setItem_bag hp (ho hp)]
  · rw [stackAt_setItem h (Bool.eq_false_iff.mpr hp)]

theorem Writes.grow {dest dest' : Item} (h : v.getItemByPos T p = some dest)
    (hentry : dest'.entry = dest.entry) (hbagslot : dest'.bagslot = dest.bagslot) :
    v.Writes T p (some dest') := by
  intro hp j
  have hsame : dest'.getItemByPos T j = dest.getItemByPos T j := by
    unfold Item.getItemByPos Item.getBagSize Item.isBag
    rw [hentry, hbagslot]
  rw [stackAt_inside_of_isBagPos hp, h, Option.bind_some, Option.bind_some, hsame]

theorem Writes.put (h : v.getItemByPos T p = none)
    (ho : isBagPos p = true → ∀ b, o = some b → b.Hollow T) : v.Writes T p o := by
  intro hp j
  rw [stackAt_inside_of_isBagPos hp, h]
  cases o with
  | none => rfl
  | some b => rw [Option.bind_some, ho hp b rfl j, Option.bind_none]

/-- One step of `StoreItem` is one of the library. -/
theorem storeItemAt_puts {c : ItemPosCount} (clone : Bool) (h : v.HasPlace T c.pos)
    (hc : isBagPos c.pos = true → item.Hollow T)
    (hmax : c.count.toNat ≤ (T item.entry).stackable) {there : Pos → Prop} (hthere : there c.pos) :
    Puts there Stack.entry Stack.count Stack.guid item.entry item.guid clone
      (c.pos, c.count.toNat) (v.held T) ((v.storeItemAt T item c clone).held T) := by
  unfold storeItemAt
  cases hat : v.getItemByPos T c.pos with
  | some dest =>
    have hstack : v.stackAt T c.pos = some dest.stack := by
      unfold stackAt
      rw [hat, Option.map_some]
    rw [held_setItem h]
    · exact .grow hthere hstack rfl rfl rfl
    · exact .grow hat rfl rfl
  | none =>
    have hstack : v.stackAt T c.pos = none := by
      unfold stackAt
      rw [hat, Option.map_none]
    cases clone with
    | true =>
      have hplace : ({ v with nextGuid := v.nextGuid + 1 } : Player).HasPlace T c.pos := h
      have hnone : ({ v with nextGuid := v.nextGuid + 1 } : Player).getItemByPos T c.pos = none := hat
      simp only [if_true, cloneItem]
      rw [held_setItem hplace]
      · refine .clone hthere hstack rfl rfl ?_
        exact min_eq_left (toNat_le_getMaxStackSize c.count hmax)
      · apply Writes.put hnone
        rintro - b ⟨⟩
        exact Item.hollow_of_bagslot rfl
    | false =>
      simp only [Bool.false_eq_true, if_false]
      rw [held_setItem h]
      · exact .self hthere hstack rfl rfl rfl
      · apply Writes.put hat
        rintro hp b ⟨⟩
        exact hc hp

/-- **`StoreItem` stores by its plan**. -/
theorem storeItem_stores (dest : List ItemPosCount) {v : Player}
    (hplaces : ∀ c ∈ dest, v.HasPlace T c.pos)
    (hbags : ∀ c ∈ dest, isBagPos c.pos = true → item.Hollow T)
    (hmax : ∀ c ∈ dest, c.count.toNat ≤ (T item.entry).stackable) {there : Pos → Prop}
    (hthere : ∀ c ∈ dest, there c.pos) :
    Stores there Stack.entry Stack.count Stack.guid item.entry item.guid (amounts dest)
      (v.held T) ((storeItem T item dest v).held T) := by
  induction dest generalizing v with
  | nil => exact .nil _
  | cons c dest ih =>
    have hc := hplaces c List.mem_cons_self
    have hbag := hbags c List.mem_cons_self
    have hle := hmax c List.mem_cons_self
    have hat := hthere c List.mem_cons_self
    cases dest with
    | nil => exact .last (storeItemAt_puts false hc hbag hle hat)
    | cons d dest =>
      refine .cons (storeItemAt_puts true hc hbag hle hat) ?_
      apply ih
      · intro e he
        exact (hplaces e (List.mem_cons_of_mem c he)).storeItemAt c true
      · intro e he
        exact hbags e (List.mem_cons_of_mem c he)
      · intro e he
        exact hmax e (List.mem_cons_of_mem c he)
      · intro e he
        exact hthere e (List.mem_cons_of_mem c he)

/-! ## Bags that are gone -/

theorem stackAt_of_items {v' : Player} (h : v'.items = v.items) : v'.stackAt T = v.stackAt T := by
  ext1 q
  unfold stackAt getItemByPos
  rw [h]

end Player

end Sunstrider.Inventory
