import Sunstrider.Inventory.Moves

/-!
# Places of a storage

What a position reads after a write to another one. A storage is seen as the stacks at its positions
(`stackAt`): a write to a position that is not of a bag in use is an update of that view
(`stackAt_setItem`), and a bag that is put into a slot brings what lies in it (`stackAt_setItem_bag`).
-/

namespace Sunstrider.Inventory

variable {T : Templates}

/-- What an item counts for at its position. -/
@[ext] structure Stack where
  guid : ℕ
  entry : ℕ
  count : ℕ
  deriving DecidableEq, Repr

def Item.stack (item : Item) : Stack := ⟨item.guid, item.entry, item.count⟩

/-! ## Positions -/

theorem isBagPos_iff {p : Pos} : isBagPos p = true ↔ p.1 = inventorySlotBag0 ∧ isBagSlot p.2 = true := by
  simp only [isBagPos, isBagSlot, Bool.or_eq_true, Bool.and_eq_true, decide_eq_true_eq]
  tauto

variable {slot : Fin 256}

theorem bagSlot_ne_bag0 (h : isBagSlot slot = true) : slot ≠ inventorySlotBag0 := by
  rintro rfl
  exact absurd h (by decide)

theorem bagSlot_own (h : isBagSlot slot = true) : slot.val < 74 := by
  simp only [isBagSlot, isInventoryBagSlot, isBankBagSlot, Bool.or_eq_true, Bool.and_eq_true,
    decide_eq_true_eq] at h
  omega

namespace Player

variable {v : Player} {p q : Pos}

/-- The stacks at the positions. -/
def stackAt (T : Templates) (v : Player) (p : Pos) : Option Stack := (v.getItemByPos T p).map Item.stack

/-- A position of the player himself, or a slot of a bag in use. -/
def HasPlace (T : Templates) (v : Player) (p : Pos) : Prop :=
  (p.1 = inventorySlotBag0 ∧ (p.2.val < 74 ∨ isKeyringSlot p.2 = true)) ∨
    (isBagSlot p.1 = true ∧ ∃ bag, v.items p.1 = some bag ∧ p.2.val < bag.getBagSize T)

theorem getItemByPos_own (h : p.1 = inventorySlotBag0)
    (hslot : p.2.val < 74 ∨ isKeyringSlot p.2 = true) : v.getItemByPos T p = v.items p.2 :=
  if_pos ⟨h, hslot⟩

theorem getItemByPos_bagSlot (v : Player) (h : isBagSlot slot = true) :
    v.getItemByPos T (inventorySlotBag0, slot) = v.items slot :=
  getItemByPos_own rfl (.inl (bagSlot_own h))

theorem getItemByPos_inside (v : Player) (h : isBagSlot p.1 = true) :
    v.getItemByPos T p = (v.items p.1).bind fun bag => bag.getItemByPos T p.2 := by
  unfold getItemByPos
  rw [if_neg fun hp => bagSlot_ne_bag0 h hp.1, if_pos h]

theorem getItemByPos_nowhere (v : Player) (h : p.1 ≠ inventorySlotBag0) (hbag : isBagSlot p.1 = false) :
    v.getItemByPos T p = none := by
  unfold getItemByPos
  rw [if_neg fun hp => h hp.1, hbag]
  rfl

theorem hasPlace_of_getItemByPos {item : Item} (h : v.getItemByPos T p = some item) :
    v.HasPlace T p := by
  unfold getItemByPos at h
  split at h
  · next hp => exact .inl hp
  · split at h
    · next hbag =>
      obtain ⟨bag, hat, hin⟩ := Option.bind_eq_some_iff.mp h
      unfold Item.getItemByPos at hin
      split at hin
      · next hlt => exact .inr ⟨hbag, bag, hat, hlt⟩
      · cases hin
    · cases h

/-- Where one item lies in a slot of the player himself, there is no other. -/
theorem lone_item {a b : Item} (hitems : v.items = fun s => if s = slot then some a else none)
    (hempty : a.bagslot = fun _ => none) (hat : v.getItemByPos T p = some b) :
    p = (inventorySlotBag0, slot) ∧ b = a := by
  unfold getItemByPos at hat
  rw [hitems] at hat
  split at hat
  · next hp =>
    obtain ⟨hslot, heq⟩ := Option.ite_none_right_eq_some.mp hat
    exact ⟨Prod.ext hp.1 hslot, (Option.some.inj heq).symm⟩
  · split at hat
    · obtain ⟨bag, hbag, hin⟩ := Option.bind_eq_some_iff.mp hat
      obtain ⟨-, heq⟩ := Option.ite_none_right_eq_some.mp hbag
      rw [← Option.some.inj heq] at hin
      unfold Item.getItemByPos at hin
      rw [hempty, ite_self] at hin
      cases hin
    · cases hat

/-! ## Writes -/

theorem getItemByPos_setItem_self (h : v.HasPlace T p) (o : Option Item) :
    (v.setItem p o).getItemByPos T p = o := by
  unfold setItem
  rcases h with ⟨hp, hslot⟩ | ⟨hbag, bag, hat, hlt⟩
  · rw [if_pos hp, getItemByPos_own hp hslot]
    exact Function.update_self ..
  · rw [if_neg (bagSlot_ne_bag0 hbag), getItemByPos_inside _ hbag]
    simp only [Function.update_self, hat, Option.map_some, Option.bind_some]
    have hsize : ({ bag with bagslot := Function.update bag.bagslot p.2 o } : Item).getBagSize T =
        bag.getBagSize T := rfl
    unfold Item.getItemByPos
    rw [hsize, if_pos hlt]
    exact Function.update_self ..

theorem getItemByPos_setItem_own (h : p.1 = inventorySlotBag0) (hp : isBagPos p = false)
    (o : Option Item) (hne : q ≠ p) : (v.setItem p o).getItemByPos T q = v.getItemByPos T q := by
  unfold setItem getItemByPos
  rw [if_pos h]
  split
  · next hq =>
    have hslot : q.2 ≠ p.2 := fun heq => hne (Prod.ext (hq.1.trans h.symm) heq)
    exact Function.update_of_ne hslot ..
  · split
    · next hbag =>
      have hslot : q.1 ≠ p.2 := by
        intro heq
        rw [isBagPos_iff.mpr ⟨h, heq ▸ hbag⟩] at hp
        cases hp
      show ((Function.update v.items p.2 o) q.1).bind _ = _
      rw [Function.update_of_ne hslot]
    · rfl

theorem map_getItemByPos_setItem_inside {β : Type} {f : Item → β}
    (hf : ∀ (item : Item) (bagslot : Fin 256 → Option Item), f { item with bagslot } = f item)
    (h : p.1 ≠ inventorySlotBag0) (o : Option Item) (hne : q ≠ p) :
    ((v.setItem p o).getItemByPos T q).map f = (v.getItemByPos T q).map f := by
  unfold setItem
  rw [if_neg h]
  unfold getItemByPos
  split
  · next hq =>
    by_cases hslot : q.2 = p.1
    · simp only [hslot, Function.update_self]
      cases v.items p.1 with
      | none => rfl
      | some bag => exact congrArg some (hf bag _)
    · simp only [Function.update_of_ne hslot]
  · split
    · next hbag =>
      by_cases hslot : q.1 = p.1
      · have hne' : q.2 ≠ p.2 := fun heq => hne (Prod.ext hslot heq)
        simp only [hslot, Function.update_self]
        cases v.items p.1 with
        | none => rfl
        | some bag =>
          have hsize : ({ bag with bagslot := Function.update bag.bagslot p.2 o } : Item).getBagSize T =
              bag.getBagSize T := rfl
          simp only [Option.map_some, Option.bind_some, Item.getItemByPos, hsize,
            Function.update_of_ne hne']
      · simp only [Function.update_of_ne hslot]
    · rfl

theorem stackAt_setItem_inside (h : p.1 ≠ inventorySlotBag0) (o : Option Item) (hne : q ≠ p) :
    (v.setItem p o).stackAt T q = v.stackAt T q :=
  map_getItemByPos_setItem_inside (fun _ _ => rfl) h o hne

/-- **A write to a position that is not of a bag in use** is an update of the stacks. -/
theorem stackAt_setItem (h : v.HasPlace T p) (hp : isBagPos p = false) (o : Option Item) :
    (v.setItem p o).stackAt T = Function.update (v.stackAt T) p (o.map Item.stack) := by
  ext1 q
  by_cases hq : q = p
  · rw [hq, Function.update_self]
    unfold stackAt
    rw [getItemByPos_setItem_self h]
  · rw [Function.update_of_ne hq]
    by_cases hown : p.1 = inventorySlotBag0
    · unfold stackAt
      rw [getItemByPos_setItem_own hown hp o hq]
    · exact stackAt_setItem_inside hown o hq

theorem getItemByPos_setItem_bag (hp : isBagPos p = true) (o : Option Item) (hne : q ≠ p) :
    (v.setItem p o).getItemByPos T q =
      if q.1 = p.2 then o.bind fun bag => bag.getItemByPos T q.2 else v.getItemByPos T q := by
  obtain ⟨hown, hslot⟩ := isBagPos_iff.mp hp
  unfold setItem
  rw [if_pos hown]
  by_cases hin : q.1 = p.2
  · rw [if_pos hin, getItemByPos_inside _ (hin ▸ hslot)]
    simp only [hin, Function.update_self]
  · rw [if_neg hin]
    unfold getItemByPos
    simp only [Function.update_of_ne hin]
    split
    · next hq =>
      have hne' : q.2 ≠ p.2 := fun heq => hne (Prod.ext (hq.1.trans hown.symm) heq)
      exact Function.update_of_ne hne' ..
    · rfl

/-- A write to a slot for bags is an update of the stacks where the same stacks lie in what was there
and in what is put there. -/
theorem stackAt_setItem_bag (hp : isBagPos p = true) {o : Option Item}
    (hsame : ∀ j, (o.bind fun bag => bag.getItemByPos T j).map Item.stack = v.stackAt T (p.2, j)) :
    (v.setItem p o).stackAt T = Function.update (v.stackAt T) p (o.map Item.stack) := by
  obtain ⟨hown, hslot⟩ := isBagPos_iff.mp hp
  ext1 q
  by_cases hq : q = p
  · rw [hq, Function.update_self]
    unfold stackAt
    rw [getItemByPos_setItem_self (.inl ⟨hown, .inl (bagSlot_own hslot)⟩)]
  · rw [Function.update_of_ne hq]
    show Option.map Item.stack _ = _
    rw [getItemByPos_setItem_bag hp o hq]
    split
    · next hin =>
      rw [hsame q.2]
      exact congrArg (v.stackAt T) (Prod.ext hin.symm rfl)
    · rfl

/-! ## Bank positions -/

theorem stackAt_setItem_of_not_bank (hp : isBankPos p = false) (hq : isBankPos q = true)
    (o : Option Item) : (v.setItem p o).stackAt T q = v.stackAt T q := by
  have hne : q ≠ p := by
    rintro rfl
    rw [hp] at hq
    cases hq
  by_cases hown : p.1 = inventorySlotBag0
  · unfold stackAt
    by_cases hbag : isBagPos p = true
    · rw [getItemByPos_setItem_bag hbag o hne, if_neg]
      intro hin
      have hslot : isBagSlot q.1 = true := hin ▸ (isBagPos_iff.mp hbag).2
      have hbank : isBankBagSlot p.2 = false := by
        simp only [isBankPos, hown, decide_true, Bool.true_and, Bool.or_eq_false_iff] at hp
        exact hp.1.2
      simp [isBankPos, hin, hbank, hin ▸ bagSlot_ne_bag0 hslot] at hq
    · rw [getItemByPos_setItem_own hown (Bool.eq_false_iff.mpr hbag) o hne]
  · exact stackAt_setItem_inside hown o hne

end Player

end Sunstrider.Inventory
