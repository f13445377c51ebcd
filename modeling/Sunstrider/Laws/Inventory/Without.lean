import Mathlib.Algebra.Order.BigOperators.Group.Finset
import Sunstrider.Laws.Inventory.Rooms

/-!
# A storage without the items of an entry

What is left where all items of an entry are taken away, with what lies in the bags of the entry
(`Player.without`). It is what `DestroyItemCount` leaves, up to what lies in the items
(`shellAt_destroyed`), where no bag of the entry lies in a slot for bags of the bank. The rooms of a
storage and what is counted in it depend on no more (`storeVisits_congr`, `canTakeMoreSimilar_congr`).
-/

namespace Sunstrider.Inventory

variable {T : Templates}

namespace Player

variable {v v' : Player} {p q : Pos} {item : Item} {entry : ℕ} {merge : Bool}

/-! ## What depends on the shells -/

theorem space_of_shellAt (v : Player) (item : Item) (merge : Bool) (p : Pos) :
    v.space T item merge p = match (v.shellAt T p).filter fun dest => dest.guid ≠ item.guid with
      | some dest =>
        if merge && (dest.entry = item.entry && dest.count < (T item.entry).stackable) then
          some ((T item.entry).stackable - dest.count)
        else none
      | none => if merge then none else some (T item.entry).stackable := by
  unfold space otherItem shellAt
  cases v.getItemByPos T p with
  | none => rfl
  | some dest =>
    rw [Option.map_some, Option.filter_some, Option.filter_some]
    by_cases hguid : dest.guid = item.guid
    · simp [Item.shell, hguid]
    · simp [Item.shell, hguid]

theorem bagPositions_of_shellAt (v : Player) (slots : List (Fin 256)) :
    v.bagPositions T slots = slots.flatMap fun bag =>
      match v.shellAt T (inventorySlotBag0, bag) with
      | none => []
      | some b => (slotsFrom 0 (b.getBagSize T)).map fun slot => (bag, slot) := by
  unfold bagPositions shellAt
  apply List.flatMap_congr
  intro bag _
  cases v.getItemByPos T (inventorySlotBag0, bag) with
  | none => rfl
  | some b => rfl

theorem bagTakes_of_shellAt (v : Player) (item : Item) (bag : Fin 256) :
    v.bagTakes T item bag = (v.shellAt T (inventorySlotBag0, bag)).any fun b =>
      itemCanGoIntoBag (T item.entry) (T b.entry) := by
  unfold bagTakes shellAt
  rw [Option.any_map]
  rfl

theorem isPlainBag_of_shellAt (v : Player) (bag : Fin 256) :
    v.isPlainBag T bag = (v.shellAt T (inventorySlotBag0, bag)).any fun b =>
      (T b.entry).isPlainContainer := by
  unfold isPlainBag shellAt
  rw [Option.any_map]
  rfl

section Congr

variable (h : v'.shellAt T = v.shellAt T)

include h

theorem visits_congr (item : Item) (merge : Bool) (ps : List Pos) :
    v'.visits T item merge ps = v.visits T item merge ps := by
  unfold visits
  apply List.filterMap_congr
  intro q _
  rw [space_of_shellAt, space_of_shellAt, h]

theorem bagVisits_congr (item : Item) (merge : Bool) (skipSlot bag : Fin 256) :
    v'.bagVisits T item merge skipSlot bag = v.bagVisits T item merge skipSlot bag := by
  unfold bagVisits
  rw [bagPositions_of_shellAt, bagPositions_of_shellAt, h, visits_congr h]

theorem kindVisits_congr (item : Item) (merge nonSpecialized : Bool) (skip : Pos) (bag : Fin 256) :
    v'.kindVisits T item merge nonSpecialized skip bag =
      v.kindVisits T item merge nonSpecialized skip bag := by
  unfold kindVisits
  rw [bagTakes_of_shellAt, bagTakes_of_shellAt, isPlainBag_of_shellAt, isPlainBag_of_shellAt, h,
    bagVisits_congr h]

/-- **The rooms in all the inventory.** -/
theorem storeVisits_congr (item : Item) (p : Pos) :
    v'.storeVisits T item p = v.storeVisits T item p := by
  have hslots : ∀ first last merge,
      v'.slotVisits T item first last merge p = v.slotVisits T item first last merge p := by
    intro first last merge
    exact visits_congr h item merge _
  unfold storeVisits
  simp only [hslots, kindVisits_congr h]

theorem getItemCountOf_congr (entry : ℕ) (inBankAlso : Bool) :
    v'.getItemCountOf T entry inBankAlso = v.getItemCountOf T entry inBankAlso := by
  rw [getItemCountOf_eq, getItemCountOf_eq]
  exact Finset.sum_congr rfl fun p _ => countAt_congr (congrFun h p)

theorem canTakeMoreSimilar_congr (entry : ℕ) (count : UInt32) :
    v'.canTakeMoreSimilar T entry count none = v.canTakeMoreSimilar T entry count none := by
  unfold canTakeMoreSimilar
  rw [getItemCountOf_congr h]

end Congr

/-! ## Totals -/

theorem held_stackAt (v : Player) (entry : ℕ) (p : Pos) :
    Lib.held Stack.entry Stack.count entry (v.stackAt T p) = v.countAt T entry p := by
  unfold stackAt countAt
  cases v.getItemByPos T p with
  | none => rfl
  | some item => rfl

theorem totalOf_eq (v : Player) (entry : ℕ) : totalOf T v entry = ∑ p, v.countAt T entry p := by
  unfold totalOf Lib.total
  exact Finset.sum_congr rfl fun p _ => held_stackAt v entry p

theorem totalOf_congr (h : v'.shellAt T = v.shellAt T) (entry : ℕ) :
    totalOf T v' entry = totalOf T v entry := by
  rw [totalOf_eq, totalOf_eq]
  exact Finset.sum_congr rfl fun p _ => countAt_congr (congrFun h p)

/-! ## Items of an entry are taken away -/

/-- The storage without the items of an entry. -/
def without (v : Player) (entry : ℕ) : Player :=
  let others (o : Option Item) : Option Item := o.filter fun item => item.entry ≠ entry
  { v with
    items := fun slot =>
      (others (v.items slot)).map fun item => { item with bagslot := fun j => others (item.bagslot j) } }

/-- The position is in a bag of the entry. -/
def InBagOf (T : Templates) (v : Player) (entry : ℕ) (p : Pos) : Prop :=
  p.1 ≠ inventorySlotBag0 ∧
    ∃ bag, v.shellAt T (inventorySlotBag0, p.1) = some bag ∧ bag.entry = entry

theorem inBagOf_iff (hbag : isBagSlot p.1 = true) :
    v.InBagOf T entry p ↔ ∃ bag, v.items p.1 = some bag ∧ bag.entry = entry := by
  unfold InBagOf shellAt
  rw [getItemByPos_bagSlot v hbag]
  constructor
  · rintro ⟨-, bag, hbag, hentry⟩
    obtain ⟨whole, hwhole, rfl⟩ := Option.map_eq_some_iff.mp hbag
    exact ⟨whole, hwhole, hentry⟩
  · rintro ⟨bag, hat, hentry⟩
    exact ⟨bagSlot_ne_bag0 hbag, bag.shell, by rw [hat]; rfl, hentry⟩

theorem shellAt_without_of_inBagOf (h : v.InBagOf T entry p) :
    (v.without entry).shellAt T p = none := by
  unfold shellAt
  by_cases hbag : isBagSlot p.1 = true
  · obtain ⟨bag, hat, hentry⟩ := (inBagOf_iff hbag).mp h
    rw [getItemByPos_inside _ hbag]
    simp [without, hat, hentry]
  · rw [getItemByPos_nowhere _ h.1 (Bool.eq_false_iff.mpr hbag)]
    rfl

theorem shellAt_without (h : ¬ v.InBagOf T entry p) :
    (v.without entry).shellAt T p = (v.shellAt T p).filter fun item => item.entry ≠ entry := by
  have hshell : ∀ o : Option Item, (o.filter fun item => item.entry ≠ entry).map Item.shell =
      (o.map Item.shell).filter fun item => item.entry ≠ entry := by
    intro o
    rw [Option.filter_map]
    rfl
  unfold shellAt
  rw [← hshell]
  by_cases hown : p.1 = inventorySlotBag0 ∧ (p.2.val < 74 ∨ isKeyringSlot p.2 = true)
  · rw [getItemByPos_own hown.1 hown.2, getItemByPos_own hown.1 hown.2]
    simp only [without, Option.map_map]
    rfl
  · by_cases hbag : isBagSlot p.1 = true
    · rw [getItemByPos_inside _ hbag, getItemByPos_inside _ hbag]
      cases hat : v.items p.1 with
      | none => simp [without, hat]
      | some bag =>
        have hentry : bag.entry ≠ entry := fun hentry => h ((inBagOf_iff hbag).mpr ⟨bag, hat, hentry⟩)
        have hsize : ∀ bagslot : Fin 256 → Option Item,
            ({ bag with bagslot } : Item).getBagSize T = bag.getBagSize T := fun _ => rfl
        simp only [without, hat, Option.filter_some, hentry, ne_eq, not_false_eq_true, decide_true,
          if_true, Option.map_some, Option.bind_some, Item.getItemByPos, hsize]
        split
        · rfl
        · rfl
    · have hnone : ∀ w : Player, w.getItemByPos T p = none := by
        intro w
        unfold getItemByPos
        rw [if_neg hown, if_neg hbag]
      rw [hnone, hnone]
      rfl

theorem countAt_without_of_inBagOf (h : v.InBagOf T entry p) (entry' : ℕ) :
    (v.without entry).countAt T entry' p = 0 := by
  rw [countAt_of_shellAt, shellAt_without_of_inBagOf h]

theorem countAt_without {entry' : ℕ} (hne : entry' ≠ entry) (h : ¬ v.InBagOf T entry p) :
    (v.without entry).countAt T entry' p = v.countAt T entry' p := by
  rw [countAt_of_shellAt, countAt_of_shellAt, shellAt_without h]
  cases v.shellAt T p with
  | none => rfl
  | some item =>
    rw [Option.filter_some]
    by_cases hentry : item.entry = entry
    · simp [hentry, hne.symm]
    · simp [hentry]

section Others

variable {entry' : ℕ} (hne : entry' ≠ entry)

include hne

theorem countAt_without_le (v : Player) (p : Pos) :
    (v.without entry).countAt T entry' p ≤ v.countAt T entry' p := by
  by_cases h : v.InBagOf T entry p
  · rw [countAt_without_of_inBagOf h]
    exact Nat.zero_le _
  · rw [countAt_without hne h]

theorem totalOf_without_le (v : Player) : totalOf T (v.without entry) entry' ≤ totalOf T v entry' := by
  rw [totalOf_eq, totalOf_eq]
  exact Finset.sum_le_sum fun p _ => countAt_without_le hne v p

/-- No item of another entry is lost exactly where none lies in a bag of the entry. -/
theorem totalOf_without_eq_iff (v : Player) :
    totalOf T (v.without entry) entry' = totalOf T v entry' ↔
      ∀ p, v.InBagOf T entry p → v.countAt T entry' p = 0 := by
  rw [totalOf_eq, totalOf_eq, Finset.sum_eq_sum_iff_of_le fun p _ => countAt_without_le hne v p]
  constructor
  · intro h p hin
    rw [← h p (by simp), countAt_without_of_inBagOf hin]
  · intro h p _
    by_cases hin : v.InBagOf T entry p
    · rw [h p hin, countAt_without_of_inBagOf hin]
    · exact countAt_without hne hin

end Others

/-! ## What is destroyed -/

theorem HasPlace.isSearched (h : v.HasPlace T p)
    (hbank : ¬ (p.1 = inventorySlotBag0 ∧ isBankBagSlot p.2 = true)) : isSearched true p = true := by
  rcases h with ⟨hown, hslot⟩ | ⟨hbag, -⟩
  · have hslot' : p.2.val < 39 ∨ isKeyringSlot p.2 = true ∨ isBankSlot p.2 = true := by
      have hno : ¬ isBankBagSlot p.2 = true := fun hslot => hbank ⟨hown, hslot⟩
      simp only [isBankBagSlot, isKeyringSlot, isBankSlot, Bool.and_eq_true, decide_eq_true_eq]
        at hno hslot ⊢
      omega
    rcases hslot' with hlt | hring | hbank
    · simp [Player.isSearched, hown, hlt]
    · simp [Player.isSearched, hown, hring]
    · simp [Player.isSearched, hown, hbank]
  · simp only [Inventory.isBagSlot, Bool.or_eq_true] at hbag
    rcases hbag with hinventory | hbank
    · simp [Player.isSearched, hinventory]
    · simp [Player.isSearched, hbank]

theorem not_isSearched_bankBag {slot : Fin 256} (h : isBankBagSlot slot = true) :
    Player.isSearched true (inventorySlotBag0, slot) = false := by
  have hbag0 : isInventoryBagSlot inventorySlotBag0 = false ∧ isBankBagSlot inventorySlotBag0 = false := by
    decide
  simp only [isBankBagSlot, Bool.and_eq_true, decide_eq_true_eq] at h
  simp only [Player.isSearched, hbag0, isKeyringSlot, isBankSlot, decide_true, Bool.true_and,
    Bool.or_false, Bool.or_eq_false_iff, Bool.and_eq_false_iff, decide_eq_false_iff_not]
  omega

/-- No bag of the entry lies in a slot for bags of the bank. -/
def NoBankBagOf (T : Templates) (v : Player) (entry : ℕ) : Prop :=
  ∀ slot item, isBankBagSlot slot = true →
    v.getItemByPos T (inventorySlotBag0, slot) = some item → item.entry ≠ entry

theorem countAt_of_not_searched (h : v.NoBankBagOf T entry) (hp : isSearched true p = false) :
    v.countAt T entry p = 0 := by
  unfold countAt
  cases hat : v.getItemByPos T p with
  | none => rfl
  | some item =>
    have hbank : p.1 = inventorySlotBag0 ∧ isBankBagSlot p.2 = true := by
      by_contra hno
      rw [(hasPlace_of_getItemByPos hat).isSearched hno] at hp
      cases hp
    exact if_neg (h p.2 item hbank.2 (by rw [← hbank.1]; exact hat))

/-- All items of the entry are counted. -/
theorem totalOf_eq_getItemCountOf (h : v.NoBankBagOf T entry) :
    totalOf T v entry = v.getItemCountOf T entry true := by
  rw [totalOf_eq, getItemCountOf_eq]
  symm
  apply Finset.sum_subset (Finset.subset_univ _)
  intro p _ hp
  rw [mem_searched, Bool.not_eq_true] at hp
  exact countAt_of_not_searched h hp

theorem exists_bag_of_shellAt (hat : v.shellAt T p = some item) (hin : p.1 ≠ inventorySlotBag0) :
    ∃ bag, v.shellAt T (inventorySlotBag0, p.1) = some bag := by
  obtain ⟨whole, hwhole, -⟩ := exists_of_shellAt hat
  rcases hasPlace_of_getItemByPos hwhole with ⟨hown, -⟩ | ⟨hbag, bag, hat, -⟩
  · exact absurd hown hin
  · exact ⟨bag.shell, shellAt_eq_some ((getItemByPos_bagSlot v hbag).trans hat)⟩

section Destroyed

variable (hpositive : ∀ p item, v.getItemByPos T p = some item → 0 < item.count)
  (h : Spends T entry (v.getItemCountOf T entry true) true v v')

include hpositive h

theorem Spends.entry_ne (hbank : v.NoBankBagOf T entry) (hat : v'.shellAt T p = some item) :
    item.entry ≠ entry := by
  intro hentry
  have hleft : isSearched true p = true → item.count = 0 := by
    intro hp
    have hzero : v'.getItemCountOf T entry true = 0 := by
      have htotal := h.total
      omega
    rw [getItemCountOf_eq, Finset.sum_eq_zero_iff] at hzero
    have hcount := hzero p (mem_searched.mpr hp)
    rw [countAt_of_shellAt, hat] at hcount
    exact (if_pos hentry).symm.trans hcount
  cases h.shrinks.places p with
  | same heq =>
    rw [heq] at hat
    obtain ⟨whole, hwhole, rfl⟩ := exists_of_shellAt hat
    by_cases hp : p.1 = inventorySlotBag0 ∧ isBankBagSlot p.2 = true
    · exact hbank p.2 whole hp.2 (by rw [← hp.1]; exact hwhole) hentry
    · have hzero := hleft ((hasPlace_of_getItemByPos hwhole).isSearched hp)
      exact absurd hzero (hpositive p whole hwhole).ne'
  | spent _ hp _ _ hspent =>
    rcases hspent with hnone | ⟨count, hcount, hsome⟩
    · rw [hnone] at hat
      cases hat
    · rw [hsome] at hat
      cases hat
      exact absurd (hleft hp) hcount.ne'
  | lost _ _ _ _ _ hnone =>
    rw [hnone] at hat
    cases hat

/-- **What is left where all that is counted is destroyed.** -/
theorem Spends.shellAt_eq (hbank : v.NoBankBagOf T entry) :
    v'.shellAt T = (v.without entry).shellAt T := by
  ext1 p
  by_cases hin : v.InBagOf T entry p
  · rw [shellAt_without_of_inBagOf hin]
    cases hat : v'.shellAt T p with
    | none => rfl
    | some item =>
      obtain ⟨hne, bag, hbag, hentry⟩ := hin
      obtain ⟨bag', hbag'⟩ := exists_bag_of_shellAt hat hne
      obtain ⟨old, hold, -, hsame⟩ := (h.shrinks.places (inventorySlotBag0, p.1)).origin hbag'
      rw [hold] at hbag
      cases hbag
      exact absurd (hsame.symm.trans hentry) (h.entry_ne hpositive hbank hbag')
  · rw [shellAt_without hin]
    cases h.shrinks.places p with
    | same heq =>
      rw [← heq]
      cases hat : v'.shellAt T p with
      | none => rfl
      | some item =>
        rw [Option.filter_some, if_pos (decide_eq_true (h.entry_ne hpositive hbank hat))]
    | spent item hp hat hentry hspent =>
      rw [hat, Option.filter_some, if_neg (by simp [hentry])]
      rcases hspent with hnone | ⟨count, -, hsome⟩
      · exact hnone
      · have hne := h.entry_ne hpositive hbank hsome
        exact absurd hentry hne
    | lost bag hslot hbag hentry =>
      have hown : p.1 ≠ inventorySlotBag0 := bagSlot_ne_bag0 (isBagSlot_of_inventory hslot)
      exact absurd ⟨hown, bag, hbag, hentry⟩ hin

end Destroyed

end Player

end Sunstrider.Inventory
