import Sunstrider.Inventory.Counting
import Sunstrider.Laws.Inventory.Searches
import Sunstrider.Laws.Inventory.Stores

/-!
# What is left of the items

The items at the positions, each without what lies in it (`shellAt`). As items of an entry are destroyed,
a position stays as it is, or it is a place where they are destroyed and held an item of the entry, or it
was one of a bag that is gone (`Shrunk`). Such changes compose (`Shrinks.trans`).
-/

namespace Sunstrider.Inventory

variable {T : Templates}

/-- An item without what lies in it. -/
def Item.shell (item : Item) : Item := { item with bagslot := fun _ => none }

namespace Player

variable {v v' : Player} {p q : Pos} {item : Item} {entry : ℕ}

/-- The items at the positions, each without what lies in it. -/
def shellAt (T : Templates) (v : Player) (p : Pos) : Option Item := (v.getItemByPos T p).map Item.shell

theorem shellAt_eq_some (h : v.getItemByPos T p = some item) : v.shellAt T p = some item.shell := by
  unfold shellAt
  rw [h, Option.map_some]

theorem countAt_of_shellAt (v : Player) (p : Pos) :
    v.countAt T entry p = match v.shellAt T p with
      | some item => if item.entry = entry then item.count else 0
      | none => 0 := by
  unfold countAt shellAt
  cases v.getItemByPos T p with
  | none => rfl
  | some item => rfl

theorem countAt_congr (h : v'.shellAt T q = v.shellAt T q) :
    v'.countAt T entry q = v.countAt T entry q := by
  rw [countAt_of_shellAt, countAt_of_shellAt, h]

/-! ## Writes -/

theorem getItemByPos_equipment (v : Player) (h : p.1.val < 19) : v.getItemByPos T p = none := by
  apply getItemByPos_nowhere
  · intro hp
    rw [hp] at h
    exact absurd h (by decide)
  · simp only [isBagSlot, isInventoryBagSlot, isBankBagSlot, Bool.or_eq_false_iff,
      Bool.and_eq_false_iff, decide_eq_false_iff_not]
    omega

theorem destroyItem_eq (v : Player) (p : Pos) (depth : ℕ) :
    v.destroyItem T (depth + 1) p = v.removeItem T p := by
  unfold destroyItem removeItem
  cases v.getItemByPos T p with
  | none => rfl
  | some item =>
    dsimp only
    split
    · next hequipped =>
      have hslot : p.2.val < 19 := by
        simp only [isEquipped, Bool.and_eq_true, decide_eq_true_eq] at hequipped
        exact hequipped.2.2
      have hnone : ∀ (slot : Fin 256) (w : Player), w.destroyItem T depth (p.2, slot) = w := by
        intro slot w
        cases depth with
        | zero => rfl
        | succ depth =>
          unfold destroyItem
          rw [getItemByPos_equipment w hslot]
      rw [List.foldl_fixed' fun slot => hnone slot v]
    · rfl

/-- An item that is taken away takes along what lies in it. -/
theorem shellAt_removeItem (h : v.getItemByPos T p = some item) (q : Pos) :
    (v.removeItem T p).shellAt T q =
      if q = p ∨ (isBagPos p = true ∧ q.1 = p.2) then none else v.shellAt T q := by
  unfold removeItem
  rw [h]
  by_cases hq : q = p
  · rw [if_pos (.inl hq), hq]
    unfold shellAt
    rw [getItemByPos_setItem_self (hasPlace_of_getItemByPos h), Option.map_none]
  · by_cases hown : p.1 = inventorySlotBag0
    · unfold shellAt
      by_cases hbag : isBagPos p = true
      · rw [getItemByPos_setItem_bag hbag none hq]
        simp only [hq, hbag, true_and, false_or, Option.bind_none]
        split
        · rfl
        · rfl
      · rw [getItemByPos_setItem_own hown (Bool.eq_false_iff.mpr hbag) none hq]
        simp [hq, hbag]
    · have hbag : isBagPos p ≠ true := fun hp => hown (isBagPos_iff.mp hp).1
      rw [if_neg (by simp [hq, hbag])]
      exact map_getItemByPos_setItem_inside (fun _ _ => rfl) hown none hq

theorem shellAt_setCount (h : v.getItemByPos T p = some item) (count : ℕ) :
    (v.setCount T p count).shellAt T =
      Function.update (v.shellAt T) p (some { item.shell with count }) := by
  unfold setCount
  rw [h, Option.map_some]
  ext1 q
  by_cases hq : q = p
  · rw [hq, Function.update_self]
    unfold shellAt
    rw [getItemByPos_setItem_self (hasPlace_of_getItemByPos h)]
    rfl
  · rw [Function.update_of_ne hq]
    by_cases hown : p.1 = inventorySlotBag0
    · unfold shellAt
      by_cases hbag : isBagPos p = true
      · rw [getItemByPos_setItem_bag hbag _ hq]
        split
        · next hin =>
          have hslot := (isBagPos_iff.mp hbag).2
          have hat : v.items p.2 = some item := by
            rw [← getItemByPos_bagSlot v hslot, ← hown]
            exact h
          rw [getItemByPos_inside v (hin ▸ hslot), hin, hat]
          rfl
        · rfl
      · rw [getItemByPos_setItem_own hown (Bool.eq_false_iff.mpr hbag) _ hq]
    · exact map_getItemByPos_setItem_inside (fun _ _ => rfl) hown _ hq

theorem setItem_guid (v : Player) (p : Pos) (o : Option Item) : (v.setItem p o).guid = v.guid := by
  unfold setItem
  split
  · rfl
  · rfl

theorem removeItem_guid (v : Player) (p : Pos) : (v.removeItem T p).guid = v.guid := by
  unfold removeItem
  split
  · exact setItem_guid v p none
  · rfl

/-! ## Shrinking -/

/-- What becomes of a position as items of an entry are destroyed that lie in some places. -/
inductive Shrunk (T : Templates) (S : Pos → Bool) (entry : ℕ) (v v' : Player) (p : Pos) : Prop
  | same (h : v'.shellAt T p = v.shellAt T p)
  | spent (item : Item) (hplace : S p = true) (hat : v.shellAt T p = some item)
      (hentry : item.entry = entry)
      (h : v'.shellAt T p = none ∨
        ∃ count, 0 < count ∧ v'.shellAt T p = some { item with count })
  | lost (bag : Item) (hslot : isInventoryBagSlot p.1 = true)
      (hbag : v.shellAt T (inventorySlotBag0, p.1) = some bag) (hentry : bag.entry = entry)
      (hgone : v'.shellAt T (inventorySlotBag0, p.1) = none) (h : v'.shellAt T p = none)

/-- Items of an entry are destroyed that lie in some places. -/
structure Shrinks (T : Templates) (S : Pos → Bool) (entry : ℕ) (v v' : Player) : Prop where
  places : ∀ p, Shrunk T S entry v v' p
  guid_eq : v'.guid = v.guid
  nextGuid_eq : v'.nextGuid = v.nextGuid

variable {S : Pos → Bool}

theorem Shrinks.refl (v : Player) : Shrinks T S entry v v := ⟨fun _ => .same rfl, rfl, rfl⟩

theorem Shrunk.none (h : Shrunk T S entry v v' p) (hnone : v.shellAt T p = none) :
    v'.shellAt T p = none := by
  cases h with
  | same h => rw [h, hnone]
  | spent item _ hat => rw [hnone] at hat; cases hat
  | lost _ _ _ _ _ h => exact h

theorem Shrunk.origin (h : Shrunk T S entry v v' p) (hat : v'.shellAt T p = some item) :
    ∃ old, v.shellAt T p = some old ∧ old.guid = item.guid ∧ old.entry = item.entry := by
  cases h with
  | same h => exact ⟨item, h.symm.trans hat, rfl, rfl⟩
  | spent old _ hold _ hleft =>
    rcases hleft with hnone | ⟨count, -, hsome⟩
    · rw [hnone] at hat
      cases hat
    · rw [hsome] at hat
      cases hat
      exact ⟨old, hold, rfl, rfl⟩
  | lost _ _ _ _ _ h =>
    rw [h] at hat
    cases hat

/-- **What is destroyed in two steps.** -/
theorem Shrinks.trans {w : Player} (h : Shrinks T S entry v v') (h' : Shrinks T S entry v' w) :
    Shrinks T S entry v w := by
  refine ⟨fun p => ?_, h'.guid_eq.trans h.guid_eq, h'.nextGuid_eq.trans h.nextGuid_eq⟩
  cases h.places p with
  | same heq =>
    cases h'.places p with
    | same heq' => exact .same (heq'.trans heq)
    | spent item hplace hat hentry hleft => exact .spent item hplace (heq ▸ hat) hentry hleft
    | lost bag hslot hbag hentry hgone hnone =>
      obtain ⟨old, hold, -, hsame⟩ := (h.places (inventorySlotBag0, p.1)).origin hbag
      exact .lost old hslot hold (hsame.trans hentry) hgone hnone
  | spent item hplace hat hentry hleft =>
    apply Shrunk.spent item hplace hat hentry
    rcases hleft with hnone | ⟨n, hn, hleft⟩
    · exact .inl ((h'.places p).none hnone)
    · cases h'.places p with
      | same heq' => exact .inr ⟨n, hn, heq'.trans hleft⟩
      | spent item' _ hat' _ hleft' =>
        rw [hleft] at hat'
        cases hat'
        exact hleft'
      | lost _ _ _ _ _ hnone => exact .inl hnone
  | lost bag hslot hbag hentry hgone hnone =>
    exact .lost bag hslot hbag hentry ((h'.places _).none hgone) ((h'.places p).none hnone)

theorem shrinks_removeItem (h : v.getItemByPos T p = some item) (hplace : S p = true)
    (hentry : item.entry = entry) (hbag : isBagPos p = true → isInventoryBagSlot p.2 = true) :
    Shrinks T S entry v (v.removeItem T p) := by
  refine ⟨fun q => ?_, removeItem_guid v p, removeItem_nextGuid v p⟩
  have hq := shellAt_removeItem h q
  by_cases hself : q = p
  · rw [if_pos (.inl hself)] at hq
    rw [hself] at hq ⊢
    exact .spent item.shell hplace (shellAt_eq_some h) hentry (.inl hq)
  · by_cases hin : isBagPos p = true ∧ q.1 = p.2
    · rw [if_pos (.inr hin)] at hq
      have hp : (inventorySlotBag0, q.1) = p := Prod.ext (isBagPos_iff.mp hin.1).1.symm hin.2
      have hgone := shellAt_removeItem h p
      rw [if_pos (.inl rfl)] at hgone
      refine .lost item.shell (hin.2 ▸ hbag hin.1) ?_ hentry ?_ hq
      · rw [hp]
        exact shellAt_eq_some h
      · rw [hp]
        exact hgone
    · rw [if_neg (not_or.mpr ⟨hself, hin⟩)] at hq
      exact .same hq

theorem shrinks_setCount (h : v.getItemByPos T p = some item) (hplace : S p = true)
    (hentry : item.entry = entry) {count : ℕ} (hcount : 0 < count) :
    Shrinks T S entry v (v.setCount T p count) := by
  refine ⟨fun q => ?_, setItem_guid v p _, setItem_nextGuid v p _⟩
  have hafter := shellAt_setCount h count
  by_cases hself : q = p
  · rw [hself]
    apply Shrunk.spent item.shell hplace (shellAt_eq_some h) hentry
    exact .inr ⟨count, hcount, by rw [hafter, Function.update_self]⟩
  · apply Shrunk.same
    rw [hafter, Function.update_of_ne hself]

end Player

end Sunstrider.Inventory
