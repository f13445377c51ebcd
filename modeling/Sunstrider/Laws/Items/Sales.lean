import Sunstrider.Items.Buyback
import Mathlib.Order.Interval.Finset.Nat

/-!
# A sale, and buying back

What the two packets do to the buyback slots and to the inventory (`step_cases`), and what holds of both
after any packets (`Kept`): the fields of a slot belong to its item, and no item is in two places.
-/

namespace Sunstrider.Items.Seller

open Lib (mulU32 toInt32)
open Player (maxMoneyAmount modifyMoney modifyMoney_le)

variable {sellPrice : ItemTemplates} {p : Seller} {item : Item} {slot : ℕ}

/-- The buyback slots. -/
def slots : Finset ℕ := Finset.Ico buybackSlotStart buybackSlotEnd

theorem mem_slots : slot ∈ slots ↔ buybackSlotStart ≤ slot ∧ slot < buybackSlotEnd :=
  Finset.mem_Ico

theorem start_mem_slots : buybackSlotStart ∈ slots := by decide

theorem mem_laterSlots : slot ∈ laterSlots ↔ slot ∈ slots ∧ slot ≠ buybackSlotStart := by
  unfold laterSlots
  rw [mem_slots, List.mem_range'_1]
  unfold buybackSlotStart buybackSlotEnd
  omega

/-! ## The slot that is taken -/

theorem oldestSlot_mem (oldestTime slot : ℕ) (l : List ℕ) :
    p.oldestSlot oldestTime slot l = slot ∨ p.oldestSlot oldestTime slot l ∈ l := by
  induction l generalizing oldestTime slot with
  | nil => exact .inl rfl
  | cons i l ih =>
    unfold oldestSlot
    split
    · exact .inl rfl
    · split
      · rcases ih (p.buybackTimestamp i) i with h | h
        · exact .inr (by rw [h]; exact List.mem_cons_self)
        · exact .inr (List.mem_cons_of_mem i h)
      · rcases ih oldestTime slot with h | h
        · exact .inl h
        · exact .inr (List.mem_cons_of_mem i h)

theorem slotToFill_mem (h : p.currentBuybackSlot ∈ slots) : p.slotToFill ∈ slots := by
  unfold slotToFill
  split
  · rcases oldestSlot_mem (p := p) (p.buybackTimestamp buybackSlotStart) buybackSlotStart laterSlots with h | h
    · rw [h]
      exact start_mem_slots
    · exact (mem_laterSlots.mp h).1
  · exact h

/-- No slot is older than one without a time. -/
theorem oldestSlot_zero (slot : ℕ) (l : List ℕ) : p.oldestSlot 0 slot l = slot := by
  induction l with
  | nil => rfl
  | cons i l ih =>
    unfold oldestSlot
    rw [ih]
    simp

theorem oldestSlot_le {l : List ℕ} (taken : ∀ i ∈ l, (p.buyback i).isSome) (slot : ℕ) :
    ∀ i ∈ slot :: l, p.buybackTimestamp (p.oldestSlot (p.buybackTimestamp slot) slot l) ≤
      p.buybackTimestamp i := by
  induction l generalizing slot with
  | nil =>
    intro i hi
    rw [List.mem_singleton.mp hi]
    exact le_rfl
  | cons j l ih =>
    have hj : (p.buyback j).isNone = false := by
      have := taken j List.mem_cons_self
      simpa [Option.isSome_iff_ne_none] using this
    have hl : ∀ i ∈ l, (p.buyback i).isSome := fun i hi => taken i (List.mem_cons_of_mem j hi)
    intro i hi
    unfold oldestSlot
    rw [hj, if_neg Bool.false_ne_true]
    split
    next hlt =>
      rcases List.mem_cons.mp hi with rfl | hi
      · exact (ih hl j j List.mem_cons_self).trans hlt.le
      · exact ih hl j i hi
    next hge =>
      rcases List.mem_cons.mp hi with rfl | hi
      · exact ih hl i i List.mem_cons_self
      · rcases List.mem_cons.mp hi with rfl | hi
        · exact (ih hl slot slot List.mem_cons_self).trans (not_lt.mp hge)
        · exact ih hl slot i (List.mem_cons_of_mem slot hi)

variable {q : Seller}

theorem oldestSlot_congr (hbuyback : q.buyback = p.buyback)
    (htime : q.buybackTimestamp = p.buybackTimestamp) (oldestTime slot : ℕ) (l : List ℕ) :
    q.oldestSlot oldestTime slot l = p.oldestSlot oldestTime slot l := by
  induction l generalizing oldestTime slot with
  | nil => rfl
  | cons i l ih =>
    unfold oldestSlot
    rw [hbuyback, htime, ih, ih]

/-! ## The parts of a step -/

/-- What it takes to be a step that leaves the slots alone. -/
structure SameSlots (p q : Seller) : Prop where
  buyback : q.buyback = p.buyback
  price : q.buybackPrice = p.buybackPrice
  time : q.buybackTimestamp = p.buybackTimestamp
  cursor : q.currentBuybackSlot = p.currentBuybackSlot
  money : q.money = p.money

theorem SameSlots.refl (p : Seller) : SameSlots p p := ⟨rfl, rfl, rfl, rfl, rfl⟩

variable {r : Seller}

theorem SameSlots.trans {p : Seller} (h : SameSlots p q) (h' : SameSlots q r) : SameSlots p r where
  buyback := h'.buyback.trans h.buyback
  price := h'.price.trans h.price
  time := h'.time.trans h.time
  cursor := h'.cursor.trans h.cursor
  money := h'.money.trans h.money

theorem SameSlots.slotToFill (h : SameSlots p q) : q.slotToFill = p.slotToFill := by
  unfold Seller.slotToFill
  rw [h.buyback, h.cursor, h.time, oldestSlot_congr h.buyback h.time]

/-- What `RemoveItemFromBuyBackSlot` does to a slot of a player. -/
structure Emptied (p : Seller) (slot : ℕ) (q : Seller) : Prop where
  buyback : q.buyback = Function.update p.buyback slot none
  price : q.buybackPrice = Function.update p.buybackPrice slot 0
  time : q.buybackTimestamp = Function.update p.buybackTimestamp slot 0
  cursor : q.currentBuybackSlot = p.currentBuybackSlot ∨ q.currentBuybackSlot = slot
  items : q.items = p.items
  nextGuid : q.nextGuid = p.nextGuid
  money : q.money = p.money

theorem emptied_removeItem (h : slot ∈ slots) :
    Emptied p slot (p.removeItemFromBuyBackSlot slot) := by
  unfold removeItemFromBuyBackSlot
  rw [if_pos (mem_slots.mp h)]
  dsimp only
  split
  · exact ⟨rfl, rfl, rfl, .inr rfl, rfl, rfl, rfl⟩
  · exact ⟨rfl, rfl, rfl, .inl rfl, rfl, rfl, rfl⟩

/-- What `AddItemToBuyBackSlot` does to a player. -/
structure Filled (sellPrice : ItemTemplates) (p : Seller) (item : Item) (q : Seller) : Prop where
  buyback : q.buyback = Function.update p.buyback p.slotToFill (some item)
  price : q.buybackPrice =
    Function.update p.buybackPrice p.slotToFill (mulU32 (sellPrice item.entry) item.count)
  time : ∃ etime, q.buybackTimestamp = Function.update p.buybackTimestamp p.slotToFill etime
  cursor : q.currentBuybackSlot ∈ slots
  items : q.items = p.items
  nextGuid : q.nextGuid = p.nextGuid
  money : q.money = p.money

theorem filled_addItem (h : p.currentBuybackSlot ∈ slots) (item : Item) (now : ℕ) :
    Filled sellPrice p item (p.addItemToBuyBackSlot item (sellPrice item.entry) now) := by
  have hslot := slotToFill_mem h
  obtain ⟨hbuyback, hprice, htime, hcursor, hitems, hguid, hmoney⟩ := emptied_removeItem hslot
  have hmem : (p.removeItemFromBuyBackSlot p.slotToFill).currentBuybackSlot ∈ slots := by
    rcases hcursor with hcursor | hcursor <;> rw [hcursor] <;> assumption
  unfold addItemToBuyBackSlot
  dsimp only
  rw [hbuyback, hprice, htime, Function.update_idem, Function.update_idem, Function.update_idem]
  split
  · next hlt =>
    refine ⟨rfl, rfl, ⟨_, rfl⟩, ?_, hitems, hguid, hmoney⟩
    rw [mem_slots] at hmem ⊢
    dsimp only
    omega
  · exact ⟨rfl, rfl, ⟨_, rfl⟩, hmem, hitems, hguid, hmoney⟩

/-! ## Items and their guids -/

def guids (p : Seller) : List ℕ := p.items.map Item.guid

/-- The inventory of a player: every item is there once, and has been created. -/
structure Inventory (p : Seller) : Prop where
  distinct : p.guids.Nodup
  issued : ∀ guid ∈ p.guids, guid < p.nextGuid

theorem map_guid_count (l : List Item) (guid : ℕ) (f : ℕ → ℕ) :
    (l.map fun it => if it.guid = guid then { it with count := f it.count } else it).map Item.guid =
      l.map Item.guid := by
  rw [List.map_map]
  refine List.map_congr_left fun it _ => ?_
  show (if it.guid = guid then { it with count := f it.count } else it).guid = it.guid
  split <;> rfl

/-- What a change of the inventory keeps, when it can only bring in the item of `guid` and new ones. -/
structure Stored (guid : ℕ) (p q : Seller) : Prop where
  same : SameSlots p q
  inventory : q.Inventory
  le : p.nextGuid ≤ q.nextGuid
  origin : ∀ g ∈ q.guids, g ∈ p.guids ∨ g = guid ∨ p.nextGuid ≤ g

theorem stored_stack (item : Item) (h : p.Inventory) (guid stack count : ℕ) (clone : Bool) :
    Stored guid p (p.storeAt ⟨some stack, count⟩ item clone) ∧
      (p.storeAt ⟨some stack, count⟩ item clone).guids = p.guids := by
  have hguids : (p.storeAt ⟨some stack, count⟩ item clone).guids = p.guids :=
    map_guid_count p.items stack fun n => n + count
  refine ⟨⟨⟨rfl, rfl, rfl, rfl, rfl⟩, ⟨?_, ?_⟩, le_rfl, ?_⟩, hguids⟩
  · rw [hguids]
    exact h.distinct
  · rw [hguids]
    exact h.issued
  · rw [hguids]
    exact fun g hg => .inl hg

theorem stored_clone (item : Item) (h : p.Inventory) (guid count : ℕ) :
    Stored guid p (p.storeAt ⟨none, count⟩ item true) ∧
      (p.storeAt ⟨none, count⟩ item true).guids = p.guids ++ [p.nextGuid] := by
  have hguids : (p.storeAt ⟨none, count⟩ item true).guids = p.guids ++ [p.nextGuid] :=
    List.map_append
  have hnew : p.nextGuid ∉ p.guids := fun hmem => lt_irrefl _ (h.issued _ hmem)
  refine ⟨⟨⟨rfl, rfl, rfl, rfl, rfl⟩, ⟨?_, ?_⟩, Nat.le_succ _, ?_⟩, hguids⟩
  · rw [hguids, ← List.concat_eq_append]
    exact h.distinct.concat hnew
  · rw [hguids]
    intro g hg
    show g < p.nextGuid + 1
    rcases List.mem_append.mp hg with hg | hg
    · exact (h.issued g hg).trans (Nat.lt_succ_self _)
    · rw [List.mem_singleton.mp hg]
      exact Nat.lt_succ_self _
  · rw [hguids]
    intro g hg
    rcases List.mem_append.mp hg with hg | hg
    · exact .inl hg
    · exact .inr (.inr (List.mem_singleton.mp hg).ge)

theorem stored_itself (h : p.Inventory) (hnot : item.guid ∉ p.guids) (hlt : item.guid < p.nextGuid)
    (count : ℕ) : Stored item.guid p (p.storeAt ⟨none, count⟩ item false) := by
  have hguids : (p.storeAt ⟨none, count⟩ item false).guids = p.guids ++ [item.guid] :=
    List.map_append
  refine ⟨⟨rfl, rfl, rfl, rfl, rfl⟩, ⟨?_, ?_⟩, le_rfl, ?_⟩
  · rw [hguids, ← List.concat_eq_append]
    exact h.distinct.concat hnot
  · rw [hguids]
    intro g hg
    rcases List.mem_append.mp hg with hg | hg
    · exact h.issued g hg
    · rw [List.mem_singleton.mp hg]
      exact hlt
  · rw [hguids]
    intro g hg
    rcases List.mem_append.mp hg with hg | hg
    · exact .inl hg
    · exact .inr (.inl (List.mem_singleton.mp hg))

variable {guid : ℕ}

theorem Stored.refl (h : p.Inventory) : Stored guid p p :=
  ⟨.refl p, h, le_rfl, fun _ hg => .inl hg⟩

theorem Stored.trans {p : Seller} (h : Stored guid p q) (h' : Stored guid q r) :
    Stored guid p r where
  same := h.same.trans h'.same
  inventory := h'.inventory
  le := h.le.trans h'.le
  origin g hg := by
    rcases h'.origin g hg with hq | heq | hle
    · exact h.origin g hq
    · exact .inr (.inl heq)
    · exact .inr (.inr (h.le.trans hle))

/-- Storing an item that is not in the inventory brings in nothing else but new clones of it. -/
theorem stored_storeItem (h : p.Inventory) (hnot : item.guid ∉ p.guids)
    (hlt : item.guid < p.nextGuid) (dest : List ItemPosCount) :
    Stored item.guid p (p.storeItem item dest) := by
  induction dest generalizing p with
  | nil => exact .refl h
  | cons pos dest ih =>
    obtain ⟨stack, count⟩ := pos
    cases dest with
    | nil =>
      cases stack with
      | none => exact stored_itself h hnot hlt count
      | some stack => exact (stored_stack item h item.guid stack count false).1
    | cons pos' dest =>
      show Stored item.guid p ((p.storeAt ⟨stack, count⟩ item true).storeItem item (pos' :: dest))
      cases stack with
      | none =>
        obtain ⟨hone, hguids⟩ := stored_clone item h item.guid count
        refine hone.trans (ih hone.inventory ?_ (hlt.trans_le hone.le))
        rw [hguids, List.mem_append, List.mem_singleton, not_or]
        exact ⟨hnot, hlt.ne⟩
      | some stack =>
        obtain ⟨hone, hguids⟩ := stored_stack item h item.guid stack count true
        refine hone.trans (ih hone.inventory ?_ (hlt.trans_le hone.le))
        rw [hguids]
        exact hnot

/-- What a sale takes out of the inventory. -/
structure Sold (p : Seller) (item : Item) (count : ℕ) (q : Seller) (sold : Item) : Prop where
  same : SameSlots p q
  inventory : q.Inventory
  le : p.nextGuid ≤ q.nextGuid
  sub : ∀ g ∈ q.guids, g ∈ p.guids
  gone : sold.guid ∉ q.guids
  issued : sold.guid < q.nextGuid
  origin : sold.guid ∈ p.guids ∨ sold.guid = p.nextGuid
  entry : sold.entry = item.entry
  count : sold.count = count

theorem itemByGuid_some (h : p.itemByGuid guid = some item) : item ∈ p.items ∧ item.guid = guid :=
  ⟨List.mem_of_find?_eq_some h, by simpa using List.find?_some h⟩

variable {count : ℕ}

/-- What is sold is a part of an item of the inventory. -/
theorem saleOf_some {n : ℕ} (h : p.saleOf sellPrice guid count = some (item, n)) :
    item ∈ p.items ∧ n ≤ item.count := by
  unfold saleOf at h
  cases hit : p.itemByGuid guid with
  | none => simp [hit] at h
  | some it =>
    simp only [hit, Option.ite_none_left_eq_some] at h
    obtain ⟨-, -, hle, -, heq⟩ := h
    cases heq
    exact ⟨(itemByGuid_some hit).1, not_lt.mp hle⟩

theorem guids_takeSold_part (h : count < item.count) :
    (p.takeSold item count).1.guids = p.guids := by
  unfold takeSold
  rw [if_pos h]
  exact map_guid_count p.items item.guid fun n => n - count

theorem guids_takeSold_whole (h : ¬ count < item.count) :
    (p.takeSold item count).1.guids = p.guids.erase item.guid := by
  have hpred : (fun it : Item => decide (it.guid = item.guid)) =
      (fun guid => item.guid == guid) ∘ Item.guid := by
    funext it
    rw [Bool.eq_iff_iff, decide_eq_true_iff, Function.comp_apply, beq_iff_eq, eq_comm]
  unfold takeSold
  rw [if_neg h]
  show (p.items.eraseP fun it => decide (it.guid = item.guid)).map Item.guid =
    (p.items.map Item.guid).erase item.guid
  rw [hpred, List.erase_eq_eraseP, List.eraseP_map]

/-- **What a sale takes.** -/
theorem sold_takeSold (h : p.Inventory) (hitem : item ∈ p.items) (hle : count ≤ item.count) :
    Sold p item count (p.takeSold item count).1 (p.takeSold item count).2 := by
  have hguid : item.guid ∈ p.guids := List.mem_map_of_mem hitem
  by_cases hlt : count < item.count
  · have hguids := guids_takeSold_part (p := p) hlt
    have hout : p.takeSold item count = ((p.takeSold item count).1, { item with
        guid := p.nextGuid
        count := count }) := by
      unfold takeSold
      rw [if_pos hlt]
    have hnext : (p.takeSold item count).1.nextGuid = p.nextGuid + 1 := by
      unfold takeSold
      rw [if_pos hlt]
    have hsame : SameSlots p (p.takeSold item count).1 := by
      unfold takeSold
      rw [if_pos hlt]
      exact ⟨rfl, rfl, rfl, rfl, rfl⟩
    rw [hout]
    refine ⟨hsame, ⟨?_, ?_⟩, ?_, ?_, ?_, ?_, .inr rfl, rfl, rfl⟩
    · rw [hguids]
      exact h.distinct
    · rw [hguids, hnext]
      exact fun g hg => (h.issued g hg).trans (Nat.lt_succ_self _)
    · rw [hnext]
      exact Nat.le_succ _
    · rw [hguids]
      exact fun g hg => hg
    · rw [hguids]
      exact fun hg => lt_irrefl _ (h.issued _ hg)
    · rw [hnext]
      exact Nat.lt_succ_self _
  · have hguids := guids_takeSold_whole (p := p) hlt
    have hout : p.takeSold item count = ((p.takeSold item count).1, item) := by
      unfold takeSold
      rw [if_neg hlt]
    have hnext : (p.takeSold item count).1.nextGuid = p.nextGuid := by
      unfold takeSold
      rw [if_neg hlt]
    have hsame : SameSlots p (p.takeSold item count).1 := by
      unfold takeSold
      rw [if_neg hlt]
      exact ⟨rfl, rfl, rfl, rfl, rfl⟩
    rw [hout]
    refine ⟨hsame, ⟨?_, ?_⟩, hnext.ge, ?_, ?_, ?_, .inl hguid, rfl, ?_⟩
    · rw [hguids]
      exact h.distinct.erase _
    · rw [hguids, hnext]
      exact fun g hg => h.issued g (List.mem_of_mem_erase hg)
    · rw [hguids]
      exact fun g hg => List.mem_of_mem_erase hg
    · rw [hguids]
      exact h.distinct.not_mem_erase
    · rw [hnext]
      exact h.issued _ hguid
    · exact le_antisymm (not_lt.mp hlt) hle

/-! ## The slots of a player -/

/-- What holds of the slots and of the inventory in every state of a run. -/
structure Kept (sellPrice : ItemTemplates) (p : Seller) : Prop where
  cursor : p.currentBuybackSlot ∈ slots
  money : p.money ≤ maxMoneyAmount
  inventory : p.Inventory
  free : ∀ slot, p.buyback slot = none → p.buybackPrice slot = 0 ∧ p.buybackTimestamp slot = 0
  range : ∀ slot item, p.buyback slot = some item → slot ∈ slots
  price : ∀ slot item, p.buyback slot = some item →
    p.buybackPrice slot = mulU32 (sellPrice item.entry) item.count
  issued : ∀ slot item, p.buyback slot = some item → item.guid < p.nextGuid
  /-- An item is in a slot or in the inventory, never in both. -/
  apart : ∀ slot item, p.buyback slot = some item → item.guid ∉ p.guids
  /-- An item is in one slot. -/
  once : ∀ slot slot' item item', p.buyback slot = some item → p.buyback slot' = some item' →
    item.guid = item'.guid → slot = slot'

theorem Kept.bought (h : Kept sellPrice p) (hslot : p.buyback slot = some item)
    (hq : Emptied { p with money := modifyMoney p.money (-toInt32 (p.buybackPrice slot)) } slot q)
    (hr : Stored item.guid q r) : Kept sellPrice r := by
  have hbuyback : ∀ i it, r.buyback i = some it → i ≠ slot ∧ p.buyback i = some it := by
    intro i it hi
    rw [hr.same.buyback, hq.buyback] at hi
    by_cases hne : i = slot
    · subst hne
      rw [Function.update_self] at hi
      cases hi
    · rw [Function.update_of_ne hne] at hi
      exact ⟨hne, hi⟩
  have hle : p.nextGuid ≤ r.nextGuid := hq.nextGuid ▸ hr.le
  refine ⟨?_, ?_, hr.inventory, ?_, ?_, ?_, ?_, ?_, ?_⟩
  · rw [hr.same.cursor]
    rcases hq.cursor with hc | hc <;> rw [hc]
    · exact h.cursor
    · exact h.range slot item hslot
  · rw [hr.same.money, hq.money]
    exact modifyMoney_le _ h.money
  · intro i hi
    rw [hr.same.buyback, hq.buyback] at hi
    rw [hr.same.price, hr.same.time, hq.price, hq.time]
    by_cases hne : i = slot
    · subst hne
      exact ⟨Function.update_self .., Function.update_self ..⟩
    · rw [Function.update_of_ne hne] at hi ⊢
      rw [Function.update_of_ne hne]
      exact h.free i hi
  · exact fun i it hi => h.range i it (hbuyback i it hi).2
  · intro i it hi
    obtain ⟨hne, hi⟩ := hbuyback i it hi
    rw [hr.same.price, hq.price, Function.update_of_ne hne]
    exact h.price i it hi
  · exact fun i it hi => (h.issued i it (hbuyback i it hi).2).trans_le hle
  · intro i it hi hmem
    obtain ⟨hne, hi⟩ := hbuyback i it hi
    rcases hr.origin it.guid hmem with hmem | heq | hge
    · have hguids : q.guids = p.guids := congrArg (List.map Item.guid) hq.items
      rw [hguids] at hmem
      exact h.apart i it hi hmem
    · exact hne (h.once i slot it item hi hslot heq)
    · rw [hq.nextGuid] at hge
      exact absurd (h.issued i it hi) (not_lt.mpr hge)
  · intro i j it jt hi hj heq
    exact h.once i j it jt (hbuyback i it hi).2 (hbuyback j jt hj).2 heq

theorem Kept.sold (h : Kept sellPrice p) {money : ℕ} (hmoney : money ≤ maxMoneyAmount) {sold : Item}
    (hq : Sold p item count q sold) (hr : Filled sellPrice q sold r) :
    Kept sellPrice { r with money := money } := by
  have hnot : ∀ i it, p.buyback i = some it → it.guid ≠ sold.guid := by
    intro i it hi heq
    rcases hq.origin with hmem | hnew
    · exact h.apart i it hi (heq ▸ hmem)
    · exact lt_irrefl _ (hnew ▸ heq ▸ h.issued i it hi)
  have hbuyback : ∀ i it, r.buyback i = some it →
      (i = p.slotToFill ∧ it = sold) ∨ (i ≠ p.slotToFill ∧ p.buyback i = some it) := by
    intro i it hi
    rw [hr.buyback, hq.same.slotToFill, hq.same.buyback] at hi
    by_cases hne : i = p.slotToFill
    · rw [hne, Function.update_self] at hi
      exact .inl ⟨hne, (Option.some.inj hi).symm⟩
    · rw [Function.update_of_ne hne] at hi
      exact .inr ⟨hne, hi⟩
  have hslot := slotToFill_mem h.cursor
  have hguids : r.guids = q.guids := congrArg (List.map Item.guid) hr.items
  refine ⟨hr.cursor, hmoney, ⟨?_, ?_⟩, ?_, ?_, ?_, ?_, ?_, ?_⟩
  · show r.guids.Nodup
    rw [hguids]
    exact hq.inventory.distinct
  · show ∀ g ∈ r.guids, g < r.nextGuid
    rw [hguids, hr.nextGuid]
    exact hq.inventory.issued
  · intro i hi
    obtain ⟨etime, htime⟩ := hr.time
    show r.buybackPrice i = 0 ∧ r.buybackTimestamp i = 0
    have hi : r.buyback i = none := hi
    rw [hr.buyback, hq.same.slotToFill] at hi
    rw [hr.price, htime, hq.same.slotToFill]
    have hne : i ≠ p.slotToFill := by
      intro heq
      rw [heq, Function.update_self] at hi
      cases hi
    rw [Function.update_of_ne hne, hq.same.buyback] at hi
    rw [Function.update_of_ne hne, Function.update_of_ne hne, hq.same.price, hq.same.time]
    exact h.free i hi
  · intro i it hi
    rcases hbuyback i it hi with ⟨rfl, -⟩ | ⟨-, hi⟩
    · exact hslot
    · exact h.range i it hi
  · intro i it hi
    show r.buybackPrice i = _
    rw [hr.price, hq.same.slotToFill]
    rcases hbuyback i it hi with ⟨rfl, rfl⟩ | ⟨hne, hi⟩
    · exact Function.update_self ..
    · rw [Function.update_of_ne hne, hq.same.price]
      exact h.price i it hi
  · intro i it hi
    show it.guid < r.nextGuid
    rw [hr.nextGuid]
    rcases hbuyback i it hi with ⟨-, rfl⟩ | ⟨-, hi⟩
    · exact hq.issued
    · exact (h.issued i it hi).trans_le hq.le
  · intro i it hi
    show it.guid ∉ r.guids
    rw [hguids]
    rcases hbuyback i it hi with ⟨-, rfl⟩ | ⟨-, hi⟩
    · exact hq.gone
    · exact fun hmem => h.apart i it hi (hq.sub _ hmem)
  · intro i j it jt hi hj heq
    rcases hbuyback i it hi with ⟨rfl, rfl⟩ | ⟨-, hi⟩
    · rcases hbuyback j jt hj with ⟨rfl, -⟩ | ⟨-, hj⟩
      · rfl
      · exact absurd heq.symm (hnot j jt hj)
    · rcases hbuyback j jt hj with ⟨-, rfl⟩ | ⟨-, hj⟩
      · exact absurd heq (hnot i it hi)
      · exact h.once i j it jt hi hj heq

/-! ## Steps -/

/-- A sale that is made. -/
structure Sells (sellPrice : ItemTemplates) (p : Seller) (item : Item) (count : ℕ)
    (r : Seller × Outcome) : Prop where
  took : ∃ q sold, Sold p item count q sold ∧ r.2 = .sold sold p.slotToFill ∧
    ∃ t, Filled sellPrice q sold t ∧
      r.1 = { t with money := modifyMoney p.money (toInt32 (mulU32 (sellPrice item.entry) count)) }

/-- An item that is bought back. -/
structure Buys (p : Seller) (slot : ℕ) (item : Item) (r : Seller × Outcome) : Prop where
  there : p.buyback slot = some item
  paid : p.buybackPrice slot ≤ p.money
  outcome : r.2 = .bought item slot
  took : ∃ q, Emptied { p with money := modifyMoney p.money (-toInt32 (p.buybackPrice slot)) } slot q ∧
    ∃ dest, r.1 = q.storeItem item dest

theorem sells_handleSellItem (hcursor : p.currentBuybackSlot ∈ slots) (h : p.Inventory) {now n : ℕ}
    (hsale : p.saleOf sellPrice guid count = some (item, n)) :
    Sells sellPrice p item n (p.handleSellItem sellPrice guid count now) := by
  obtain ⟨hitem, hle⟩ := saleOf_some hsale
  have hsold := sold_takeSold h hitem hle
  unfold handleSellItem
  simp only [hsale]
  cases htook : p.takeSold item n with
  | mk q sold =>
    rw [htook] at hsold
    have hfill : Filled sellPrice q sold (q.addItemToBuyBackSlot sold (sellPrice item.entry) now) := by
      rw [← hsold.entry]
      exact filled_addItem (hsold.same.cursor ▸ hcursor) sold now
    have hmoney := hfill.money.trans hsold.same.money
    exact ⟨q, sold, hsold, rfl, _, hfill, by rw [← hmoney]⟩

/-- **What a packet can do.** -/
theorem step_cases (sellPrice : ItemTemplates) (hcursor : p.currentBuybackSlot ∈ slots) (h : p.Inventory) (op : Op) :
    p.step sellPrice op = (p, .refused) ∨
      (∃ guid count now item n, op = .sell guid count now ∧
        p.saleOf sellPrice guid count = some (item, n) ∧
        Sells sellPrice p item n (p.step sellPrice op)) ∨
      ∃ slot dest item, op = .buyback slot dest ∧ Buys p slot item (p.step sellPrice op) := by
  cases op with
  | sell guid count now =>
    cases hsale : p.saleOf sellPrice guid count with
    | none =>
      left
      show p.handleSellItem sellPrice guid count now = _
      unfold handleSellItem
      rw [hsale]
    | some sale =>
      obtain ⟨item, n⟩ := sale
      exact .inr (.inl ⟨guid, count, now, item, n, rfl, hsale, sells_handleSellItem hcursor h hsale⟩)
  | buyback slot dest =>
    show p.handleBuybackItem slot dest = _ ∨ _ ∨ _
    cases hitem : p.itemFromBuyBackSlot slot with
    | none =>
      left
      unfold handleBuybackItem
      rw [hitem]
    | some item =>
      have hslot : slot ∈ slots ∧ p.buyback slot = some item := by
        unfold itemFromBuyBackSlot at hitem
        split at hitem
        · next hr => exact ⟨mem_slots.mpr hr, hitem⟩
        · cases hitem
      by_cases hpaid : p.money < p.buybackPrice slot
      · left
        unfold handleBuybackItem
        rw [hitem]
        exact if_pos hpaid
      · cases dest with
        | none =>
          left
          unfold handleBuybackItem
          rw [hitem]
          exact if_neg hpaid
        | some dest =>
          refine .inr (.inr ⟨slot, some dest, item, rfl, hslot.2, not_lt.mp hpaid, ?_, ?_⟩)
          · show (p.handleBuybackItem slot (some dest)).2 = _
            unfold handleBuybackItem
            rw [hitem]
            exact congrArg Prod.snd (if_neg hpaid)
          · refine ⟨_, emptied_removeItem hslot.1, dest, ?_⟩
            show (p.handleBuybackItem slot (some dest)).1 = _
            unfold handleBuybackItem
            rw [hitem]
            exact congrArg Prod.fst (if_neg hpaid)

theorem Buys.stored (h : Kept sellPrice p) {r : Seller × Outcome} (hbuys : Buys p slot item r) :
    ∃ q, Emptied { p with money := modifyMoney p.money (-toInt32 (p.buybackPrice slot)) } slot q ∧
      Stored item.guid q r.1 := by
  obtain ⟨q, hq, dest, hr⟩ := hbuys.took
  have hguids : q.guids = p.guids := congrArg (List.map Item.guid) hq.items
  have hinv : q.Inventory := by
    refine ⟨?_, ?_⟩
    · rw [hguids]
      exact h.inventory.distinct
    · rw [hguids, hq.nextGuid]
      exact h.inventory.issued
  refine ⟨q, hq, ?_⟩
  rw [hr]
  refine stored_storeItem hinv ?_ ?_ dest
  · rw [hguids]
    exact h.apart slot item hbuys.there
  · rw [hq.nextGuid]
    exact h.issued slot item hbuys.there

theorem Kept.step (h : Kept sellPrice p) (op : Op) : Kept sellPrice (p.step sellPrice op).1 := by
  rcases step_cases sellPrice h.cursor h.inventory op with
    hrefused | ⟨guid, count, now, item, n, rfl, -, hsells⟩ | ⟨slot, dest, item, rfl, hbuys⟩
  · rw [hrefused]
    exact h
  · obtain ⟨q, sold, hq, -, t, ht, hr⟩ := hsells.took
    rw [hr]
    exact h.sold (modifyMoney_le _ h.money) hq ht
  · obtain ⟨q, hq, hr⟩ := hbuys.stored h
    exact h.bought hbuys.there hq hr

end Sunstrider.Items.Seller
